/-
# KubeAutopsy.Theory.Bytes — byte strings and the operations on them

A string of the modelled language is a sequence of bytes, not of characters, so
strings are lists of bytes here and a literal is its UTF-8 encoding (`lit`).
`cut` is the split at the first occurrence of a separator; `cut_append` is the
law it is used by: a prefix that does not contain the separator, not even
overlapping into it, is cut off exactly.
-/
import Mathlib

namespace KubeAutopsy.Theory.Bytes

set_option autoImplicit false

/-- A byte string. -/
abbrev GoString := List UInt8

/-- The bytes of a string literal. -/
def lit (s : String) : GoString := s.toUTF8.data.toList

theorem lit_injective : Function.Injective lit := by
  intro s t same
  have data : s.toUTF8.data = t.toUTF8.data := Array.toList_inj.1 same
  exact String.toByteArray_inj.1 (ByteArray.ext data)

/-- The decimal text of an integer. -/
def itoa (n : Int) : GoString := lit n.repr

theorem itoa_injective : Function.Injective itoa :=
  fun _ _ same => Int.repr_injective (lit_injective same)

/-- Cutting off what is beyond `n` is taking `n`. -/
theorem truncate_eq_take {α : Type} (s : List α) (n : Nat) :
    (if s.length > n then s.take n else s) = s.take n := by
  split_ifs with long
  · rfl
  · exact (List.take_of_length_le (Nat.le_of_not_lt long)).symm

section Cut

variable {α : Type} [DecidableEq α]

/-- Split at the first occurrence of `sep`: what is before it and what is after
it, or `none` when it does not occur. -/
def cut (sep : List α) : List α → Option (List α × List α)
  | [] => if sep = [] then some ([], []) else none
  | a :: rest =>
      if sep <+: a :: rest then some ([], (a :: rest).drop sep.length)
      else (cut sep rest).map fun halves => (a :: halves.1, halves.2)

/-- No suffix of `head`, continued by `sep`, starts with `sep` before its end. -/
def Separates (sep head : List α) : Prop :=
  ∀ tail, tail <:+ head → tail ≠ [] → ∀ rest, ¬ sep <+: tail ++ sep ++ rest

omit [DecidableEq α] in
/-- A separator none of whose tails starts it again separates every head it does
not occur in. -/
theorem separates_of_absent {sep head : List α}
    (borderless : ∀ k < sep.length, 0 < k → ¬ sep.drop k <+: sep)
    (absent : ¬ sep <:+: head) : Separates sep head := by
  intro tail suffix nonempty rest starts
  rw [List.append_assoc] at starts
  have positive : 0 < tail.length := List.length_pos_iff.2 nonempty
  by_cases long : sep.length ≤ tail.length
  · have inside : sep <+: tail := List.prefix_of_prefix_length_le starts (List.prefix_append _ _) long
    exact absent (inside.isInfix.trans suffix.isInfix)
  · refine borderless tail.length (by omega) positive ?_
    -- What of `sep` lies behind `tail` is matched against the start of `sep` itself.
    have behind : sep.drop tail.length <+: sep ++ rest := by
      have := starts.drop tail.length
      rwa [List.drop_left] at this
    exact List.prefix_of_prefix_length_le behind (List.prefix_append _ _) (by simp)

theorem cut_append {sep head : List α} (rest : List α) (separates : Separates sep head) :
    cut sep (head ++ sep ++ rest) = some (head, rest) := by
  induction head with
  | nil =>
      cases whole : sep ++ rest with
      | nil =>
          obtain ⟨rfl, rfl⟩ := List.append_eq_nil_iff.1 whole
          simp [cut]
      | cons a tail =>
          have starts : sep <+: a :: tail := ⟨rest, whole⟩
          simp only [List.nil_append, whole, cut, if_pos starts]
          rw [← whole, List.drop_left]
  | cons a head ih =>
      have here : ¬ sep <+: a :: (head ++ sep ++ rest) := by
        simpa using separates (a :: head) List.suffix_rfl (by simp) rest
      have later : Separates sep head := fun tail suffix =>
        separates tail (suffix.trans (List.suffix_cons a head))
      simp only [List.cons_append, cut, if_neg here, ih later, Option.map_some]

/-- What a cut leaves are the two sides of the separator. -/
theorem eq_of_cut {sep s before after : List α} (found : cut sep s = some (before, after)) :
    s = before ++ (sep ++ after) := by
  induction s generalizing before with
  | nil =>
      rw [cut] at found
      split at found
      · rename_i empty
        cases found
        simp [empty]
      · cases found
  | cons a s ih =>
      rw [cut] at found
      split at found
      · rename_i starts
        cases found
        exact List.prefix_iff_eq_append.1 starts |>.symm
      · obtain ⟨halves, later, same⟩ := Option.map_eq_some_iff.1 found
        cases same
        rw [ih later, List.cons_append]

/-- A single byte separates every text it does not occur in. -/
theorem cut_byte {b : α} {head : List α} (absent : b ∉ head) (rest : List α) :
    cut [b] (head ++ b :: rest) = some (head, rest) := by
  have separates : Separates [b] head := by
    refine separates_of_absent ?_ fun inside => absent (inside.subset (by simp))
    intro k short positive
    simp at short
    omega
  have := cut_append rest separates
  rwa [List.append_assoc] at this

theorem cut_of_absent {sep s : List α} (absent : ¬ sep <:+: s) : cut sep s = none := by
  induction s with
  | nil =>
      have nonempty : sep ≠ [] := fun empty => absent (by simp [empty])
      rw [cut, if_neg nonempty]
  | cons a s ih =>
      have here : ¬ sep <+: a :: s := fun starts => absent starts.isInfix
      have later : ¬ sep <:+: s := fun inside =>
        absent (inside.trans (List.suffix_cons a s).isInfix)
      rw [cut, if_neg here, ih later, Option.map_none]

theorem cut_absent {b : α} {s : List α} (absent : b ∉ s) : cut [b] s = none :=
  cut_of_absent fun inside => absent (inside.subset (by simp))

end Cut

end KubeAutopsy.Theory.Bytes
