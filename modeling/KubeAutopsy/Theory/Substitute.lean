/-
# KubeAutopsy.Theory.Substitute — replacing every occurrence of a text

`replaceAll` goes from left to right and does not look at what it has put in.  It is the
split at the occurrences (`splitAll`) joined again with the new text, so it undoes one
joining and does another: on texts that mention `old` between pieces in which it starts
nowhere, it is the same text with `new` mentioned (`replaceAll_intercalate`).
-/
import KubeAutopsy.Theory.Bytes

namespace KubeAutopsy.Theory.Substitute

open KubeAutopsy.Theory.Bytes (cut cut_append cut_of_absent Separates)

set_option autoImplicit false

section Definitions

variable {α : Type} [DecidableEq α]

/-- What is between the first `n` occurrences of `old`. -/
def splitAll (old : List α) : Nat → List α → List (List α)
  | 0, s => [s]
  | n + 1, s =>
      match cut old s with
      | none => [s]
      | some (before, after) => before :: splitAll old n after

/-- There are no more occurrences than elements. -/
def replaceAll (old new s : List α) : List α := new.intercalate (splitAll old s.length s)

end Definitions

section Laws

variable {α : Type} [DecidableEq α] {old new : List α}

theorem splitAll_of_absent {s : List α} (absent : ¬ old <:+: s) (n : Nat) :
    splitAll old n s = [s] := by
  cases n with
  | zero => rfl
  | succ n => rw [splitAll, cut_of_absent absent]

theorem replaceAll_of_absent {s : List α} (absent : ¬ old <:+: s) : replaceAll old new s = s := by
  rw [replaceAll, splitAll_of_absent absent]
  simp

omit [DecidableEq α] in
theorem absent_of_separates (nonempty : old ≠ []) {piece : List α}
    (separates : Separates old piece) : ¬ old <:+: piece := by
  rintro ⟨front, back, rfl⟩
  have inside : old ++ back ≠ [] := by simp [nonempty]
  have suffix : old ++ back <:+ front ++ old ++ back := by
    rw [List.append_assoc]
    exact List.suffix_append _ _
  apply separates (old ++ back) suffix inside []
  rw [List.append_assoc, List.append_assoc]
  exact List.prefix_append _ _

/-- A joint that starts in no piece is found exactly where it is. -/
theorem splitAll_intercalate (nonempty : old ≠ []) {pieces : List (List α)} (some_ : pieces ≠ [])
    (separates : ∀ piece ∈ pieces, Separates old piece) {n : Nat} (enough : pieces.length ≤ n + 1) :
    splitAll old n (old.intercalate pieces) = pieces := by
  induction pieces generalizing n with
  | nil => exact absurd rfl some_
  | cons piece pieces ih =>
      obtain ⟨head, tail⟩ := List.forall_mem_cons.1 separates
      cases pieces with
      | nil =>
          rw [List.intercalate_singleton]
          exact splitAll_of_absent (absent_of_separates nonempty head) n
      | cons next pieces =>
          obtain ⟨n, rfl⟩ : ∃ m, n = m + 1 := ⟨n - 1, by simp at enough; omega⟩
          rw [List.intercalate_cons_cons, splitAll, cut_append _ head]
          show piece :: splitAll old n (old.intercalate (next :: pieces)) = _
          rw [ih (by simp) tail (by simpa using enough)]

omit [DecidableEq α] in
theorem length_le_intercalate (nonempty : old ≠ []) (pieces : List (List α)) :
    pieces.length ≤ (old.intercalate pieces).length + 1 := by
  have positive := List.length_pos_iff.2 nonempty
  induction pieces with
  | nil => simp
  | cons piece pieces ih =>
      cases pieces with
      | nil => simp
      | cons next pieces =>
          rw [List.intercalate_cons_cons, List.length_append, List.length_append, List.length_cons]
          omega

/-- **Replacing a joint is joining with another one.** -/
theorem replaceAll_intercalate (nonempty : old ≠ []) {pieces : List (List α)}
    (separates : ∀ piece ∈ pieces, Separates old piece) :
    replaceAll old new (old.intercalate pieces) = new.intercalate pieces := by
  cases pieces with
  | nil => rfl
  | cons piece pieces =>
      rw [replaceAll, splitAll_intercalate nonempty (by simp) separates
        (length_le_intercalate nonempty _)]

end Laws

section Joints

variable {α : Type}

/-- A text that starts again behind `front` repeats it. -/
theorem mem_of_prefix_append {front s rest : List α} (some_ : front ≠ [])
    (again : s <+: front ++ s ++ rest) : ∀ b ∈ s, b ∈ front := by
  have positive := List.length_pos_iff.2 some_
  have each : ∀ i, (inside : i < s.length) → s[i] ∈ front := by
    intro i
    induction i using Nat.strongRecOn with
    | ind i ih =>
        intro inside
        have same := again.getElem inside
        rw [same]
        by_cases early : i < front.length
        · rw [List.getElem_append_left (by simp; omega), List.getElem_append_left early]
          exact List.getElem_mem _
        · rw [List.getElem_append_left (by simp; omega), List.getElem_append_right (by omega)]
          exact ih (i - front.length) (by omega) (by omega)
  intro b member
  obtain ⟨i, inside, rfl⟩ := List.mem_iff_getElem.1 member
  exact each i inside

/-- A text separates every piece that shares nothing with its end. -/
theorem separates_of_disjoint {base tail piece : List α} (some_ : tail ≠ [])
    (disjoint : ∀ b ∈ piece, b ∉ tail) : Separates (base ++ tail) piece := by
  intro front suffix nonempty rest again
  obtain ⟨b, last⟩ := List.exists_mem_of_ne_nil tail some_
  have repeated := mem_of_prefix_append nonempty again b (List.mem_append_right _ last)
  exact disjoint b (suffix.subset repeated) last

theorem length_intercalate (joint : List α) (piece : List α) (pieces : List (List α)) :
    (joint.intercalate (piece :: pieces)).length =
      ((piece :: pieces).map List.length).sum + pieces.length * joint.length := by
  induction pieces generalizing piece with
  | nil => simp
  | cons next pieces ih =>
      rw [List.intercalate_cons_cons, List.length_append, List.length_append, ih]
      simp only [List.map_cons, List.sum_cons, List.length_cons]
      ring

/-- A text that mentions something tells what it mentions. -/
theorem intercalate_inj {u v : List α} {pieces : List (List α)} (two : 1 < pieces.length)
    (same : u.intercalate pieces = v.intercalate pieces) : u = v := by
  match pieces, two with
  | piece :: next :: pieces, _ =>
      have lengths := congrArg List.length same
      rw [length_intercalate, length_intercalate] at lengths
      have equal : (next :: pieces).length * u.length = (next :: pieces).length * v.length := by
        omega
      have long : u.length = v.length := Nat.eq_of_mul_eq_mul_left (by simp) equal
      rw [List.intercalate_cons_cons, List.intercalate_cons_cons, List.append_assoc,
        List.append_assoc] at same
      exact (List.append_inj (List.append_cancel_left same) long).1

end Joints

end KubeAutopsy.Theory.Substitute
