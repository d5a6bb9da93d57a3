/-
# KubeAutopsy.Theory.Escape — texts in which single bytes are replaced

An escaped text is `s.flatMap sub`: each byte is replaced by itself or by something that
stands for it.  An escaping that keeps a separator to itself commutes with splitting at it
(`splitOn_flatMap`).  One that leaves everything beyond ASCII alone keeps valid text valid
(`valid_flatMap`), and its longest replacement bounds the escaped text by the number of its
code points (`length_flatMap_le`).
-/
import KubeAutopsy.Theory.Lines
import KubeAutopsy.Theory.Utf8

namespace KubeAutopsy.Theory.Escape

open KubeAutopsy.Theory.Bytes (GoString)
open KubeAutopsy.Theory.Lines (absent_of_mem_splitOn)
open KubeAutopsy.Theory.Utf8

set_option autoImplicit false

/-! ## Separators -/

section Separators

variable {α : Type} {sub : α → List α}

theorem flatMap_intercalate (joint : List α) (pieces : List (List α)) :
    (joint.intercalate pieces).flatMap sub =
      (joint.flatMap sub).intercalate (pieces.map (List.flatMap sub)) := by
  induction pieces with
  | nil => rfl
  | cons piece pieces ih =>
      cases pieces with
      | nil => simp
      | cons next pieces =>
          rw [List.intercalate_cons_cons, List.flatMap_append, List.flatMap_append, ih]
          simp only [List.map_cons, List.intercalate_cons_cons]

/-- The separator stands for itself and in nothing else. -/
structure Keeps (sub : α → List α) (sep : α) : Prop where
  itself : sub sep = [sep]
  alone : ∀ b, b ≠ sep → sep ∉ sub b

/-- An escaped text has the escaped pieces. -/
theorem splitOn_flatMap [DecidableEq α] {sep : α} (keeps : Keeps sub sep) (s : List α) :
    (s.flatMap sub).splitOn sep = (s.splitOn sep).map (List.flatMap sub) := by
  have absent : ∀ piece ∈ (s.splitOn sep).map (List.flatMap sub), sep ∉ piece := by
    intro piece member inside
    obtain ⟨raw, here, rfl⟩ := List.mem_map.1 member
    obtain ⟨b, inRaw, inSub⟩ := List.mem_flatMap.1 inside
    by_cases same : b = sep
    · subst same
      exact absent_of_mem_splitOn here inRaw
    · exact keeps.alone b same inSub
  have joined : s.flatMap sub = [sep].intercalate ((s.splitOn sep).map (List.flatMap sub)) := by
    have whole : [sep].intercalate (s.splitOn sep) = s := List.intercalate_splitOn sep
    rw [← whole, flatMap_intercalate, List.flatMap_singleton, keeps.itself, whole]
  rw [joined]
  exact List.splitOn_intercalate sep absent (by simp [List.splitOn_ne_nil])

end Separators

/-! ## Characters -/

/-- The number of code points of a valid text: each of them has one byte that starts it. -/
def codePoints (s : GoString) : Nat := s.countP runeStart

/-- Only ASCII is replaced, and by valid text. -/
structure AsciiOnly (sub : UInt8 → GoString) : Prop where
  ascii : ∀ b, b < 0x80 → Valid (sub b)
  other : ∀ b, ¬ b < 0x80 → sub b = [b]

theorem encodeChar_ascii : ∀ b : UInt8, b < 0x80 →
    String.utf8EncodeChar (Char.ofNat b.toNat) = [b] := by
  decide +kernel

theorem valid_ascii {b : UInt8} (ascii : b < 0x80) : Valid [b] :=
  ⟨[Char.ofNat b.toNat], by rw [List.flatMap_singleton, encodeChar_ascii b ascii]⟩

/-- A character is one ASCII byte, or has none. -/
theorem encodeChar_cases (c : Char) :
    (∃ b, b < 0x80 ∧ String.utf8EncodeChar c = [b]) ∨
      ∀ b ∈ String.utf8EncodeChar c, ¬ b < 0x80 := by
  obtain ⟨first, rest, shape, -, continuing, -, alone⟩ := encodeChar_eq c
  by_cases ascii : first < 0x80
  · exact .inl ⟨first, ascii, by rw [shape, alone ascii]⟩
  · refine .inr ?_
    rw [shape]
    refine List.forall_mem_cons.2 ⟨ascii, ?_⟩
    intro b member low
    have starts := runeStart_of_ascii low
    rw [continuing b member] at starts
    cases starts

section Ascii

variable {sub : UInt8 → GoString} (only : AsciiOnly sub)
include only

theorem flatMap_of_not_ascii {s : GoString} (high : ∀ b ∈ s, ¬ b < 0x80) : s.flatMap sub = s := by
  induction s with
  | nil => rfl
  | cons b s ih =>
      obtain ⟨head, tail⟩ := List.forall_mem_cons.1 high
      rw [List.flatMap_cons, only.other b head, ih tail, List.singleton_append]

theorem valid_flatMap {s : GoString} (valid : Valid s) : Valid (s.flatMap sub) := by
  obtain ⟨chars, rfl⟩ := valid
  induction chars with
  | nil => exact valid_nil
  | cons c chars ih =>
      rw [List.flatMap_cons, List.flatMap_append]
      refine Valid.append ?_ ih
      rcases encodeChar_cases c with ⟨b, low, shape⟩ | high
      · rw [shape, List.flatMap_singleton]
        exact only.ascii b low
      · rw [flatMap_of_not_ascii only high]
        exact ⟨[c], by rw [List.flatMap_singleton]⟩

/-- A code point takes at most four bytes, and an escaped one at most `m`. -/
theorem length_flatMap_le {m : Nat} (four : 4 ≤ m) (bounded : ∀ b, (sub b).length ≤ m)
    {s : GoString} (valid : Valid s) : (s.flatMap sub).length ≤ m * codePoints s := by
  obtain ⟨chars, rfl⟩ := valid
  induction chars with
  | nil => exact Nat.zero_le _
  | cons c chars ih =>
      have one : (String.utf8EncodeChar c).countP runeStart = 1 := by
        obtain ⟨first, rest, shape, starts, continuing, -⟩ := encodeChar_eq c
        rw [shape, List.countP_cons_of_pos starts, List.countP_eq_zero.2]
        intro b member
        rw [continuing b member]
        exact Bool.false_ne_true
      have short : ((String.utf8EncodeChar c).flatMap sub).length ≤ m := by
        rcases encodeChar_cases c with ⟨b, low, shape⟩ | high
        · rw [shape, List.flatMap_singleton]
          exact bounded b
        · obtain ⟨first, rest, shape, -, -, three, -⟩ := encodeChar_eq c
          rw [flatMap_of_not_ascii only high, shape, List.length_cons]
          omega
      rw [codePoints] at ih ⊢
      rw [List.flatMap_cons, List.flatMap_append, List.length_append, List.countP_append, one,
        Nat.mul_add, Nat.mul_one]
      omega

end Ascii

end KubeAutopsy.Theory.Escape
