/-
# KubeAutopsy.Theory.Lines — the lines of a text, and of a suffix of it

`linesOf sep` are the pieces of a text between separators, without the empty piece behind
a final separator.  A text that is known from some place on shows its lines from there on
whole, except for the first, of which it has a suffix (`linesOf_append`).  What lies behind
the first `j` lines is a separator and the text of the others (`linesOf_behind`), so how far
back the last lines reach is a matter of lengths alone.
-/
import Mathlib

namespace KubeAutopsy.Theory.Lines

set_option autoImplicit false

variable {α : Type} [DecidableEq α] (sep : α)

theorem splitOn_append (s t : List α) :
    ∃ front last first rest, s.splitOn sep = front ++ [last] ∧ t.splitOn sep = first :: rest ∧
      (s ++ t).splitOn sep = front ++ (last ++ first) :: rest := by
  obtain ⟨first, rest, pieces⟩ := List.exists_cons_of_ne_nil (List.splitOn_ne_nil sep t)
  induction s with
  | nil => exact ⟨[], [], first, rest, by simp, pieces, pieces⟩
  | cons a s ih =>
      obtain ⟨front, last, first', rest', one, two, both⟩ := ih
      rw [pieces] at two
      obtain ⟨rfl, rfl⟩ := List.cons.inj two
      by_cases separator : a = sep
      · subst separator
        refine ⟨[] :: front, last, first, rest, ?_, pieces, ?_⟩
        · simp [List.splitOn_cons_eq_if_modifyHead, one]
        · simp [List.splitOn_cons_eq_if_modifyHead, both]
      · cases front with
        | nil =>
            refine ⟨[], a :: last, first, rest, ?_, pieces, ?_⟩
            · simp [List.splitOn_cons_eq_if_modifyHead, separator, one]
            · simp [List.splitOn_cons_eq_if_modifyHead, separator, both]
        | cons piece front =>
            refine ⟨(a :: piece) :: front, last, first, rest, ?_, pieces, ?_⟩
            · simp [List.splitOn_cons_eq_if_modifyHead, separator, one]
            · simp [List.splitOn_cons_eq_if_modifyHead, separator, both]

theorem length_splitOn (s : List α) : (s.splitOn sep).length = s.count sep + 1 := by
  induction s with
  | nil => simp
  | cons a s ih =>
      rw [List.splitOn_cons_eq_if_modifyHead, List.count_cons]
      by_cases separator : a = sep
      · simp [separator, ih]
      · simp [separator, ih]

variable {sep} in
theorem absent_of_mem_splitOn {s piece : List α} (member : piece ∈ s.splitOn sep) : sep ∉ piece := by
  induction s generalizing piece with
  | nil =>
      rw [List.splitOn_nil, List.mem_singleton] at member
      simp [member]
  | cons a s ih =>
      rw [List.splitOn_cons_eq_if_modifyHead] at member
      by_cases separator : a = sep
      · simp only [separator, BEq.rfl, if_true, List.mem_cons] at member
        rcases member with rfl | later
        · simp
        · exact ih later
      · obtain ⟨first, rest, pieces⟩ := List.exists_cons_of_ne_nil (List.splitOn_ne_nil sep s)
        simp only [beq_iff_eq, separator, if_false, pieces, List.modifyHead_cons, List.mem_cons] at member
        rcases member with rfl | later
        · have absent : sep ∉ first := ih (by simp [pieces])
          simp [Ne.symm separator, absent]
        · exact ih (by simp [pieces, later])

/-- The lines of a text. -/
def linesOf (s : List α) : List (List α) :=
  if (s.splitOn sep).getLast? = some [] then (s.splitOn sep).dropLast else s.splitOn sep

theorem linesOf_nil : linesOf sep [] = [] := by simp [linesOf]

theorem linesOf_append_cons (s t : List α) :
    linesOf sep (s ++ sep :: t) = s.splitOn sep ++ linesOf sep t := by
  have nonempty := List.splitOn_ne_nil sep t
  unfold linesOf
  rw [List.splitOn_append_cons_self, List.getLast?_append_of_ne_nil _ nonempty]
  split
  · rw [List.dropLast_append_of_ne_nil nonempty]
  · rfl

/-- A text is in its lines up to a final separator. -/
theorem splitOn_eq_linesOf (s : List α) :
    s.splitOn sep = linesOf sep s ∨ s.splitOn sep = linesOf sep s ++ [[]] := by
  unfold linesOf
  split
  · rename_i empty
    exact .inr (List.dropLast_append_getLast? [] empty).symm
  · exact .inl rfl

theorem count_le_length_linesOf (s : List α) : s.count sep ≤ (linesOf sep s).length := by
  have total := length_splitOn sep s
  rcases splitOn_eq_linesOf sep s with same | same
  · rw [same] at total
    omega
  · rw [same, List.length_append, List.length_singleton] at total
    omega

theorem mem_splitOn_of_mem_linesOf {s line : List α} (member : line ∈ linesOf sep s) :
    line ∈ s.splitOn sep := by
  rcases splitOn_eq_linesOf sep s with same | same
  · rwa [same]
  · rw [same]
    exact List.mem_append_left _ member

/-- A text of one line has no separator but a final one. -/
theorem linesOf_eq_singleton {s line : List α} (alone : linesOf sep s = [line]) :
    sep ∉ s.dropLast ∧ (s = line ∨ s = line ++ [sep]) := by
  have piece : line ∈ s.splitOn sep := mem_splitOn_of_mem_linesOf sep (by simp [alone])
  have absent : sep ∉ line := absent_of_mem_splitOn piece
  have whole : [sep].intercalate (s.splitOn sep) = s := List.intercalate_splitOn sep
  rcases splitOn_eq_linesOf sep s with same | same
  · rw [same, alone, List.intercalate_singleton] at whole
    subst whole
    exact ⟨fun member => absent (List.mem_of_mem_dropLast member), .inl rfl⟩
  · rw [same, alone] at whole
    have closed : s = line ++ [sep] := by
      simpa using whole.symm
    subst closed
    exact ⟨by simpa using absent, .inr rfl⟩

/-- A text without a separator but a final one is one line. -/
theorem linesOf_of_absent {s : List α} (nonempty : s ≠ []) (absent : sep ∉ s.dropLast) :
    ∃ line, linesOf sep s = [line] := by
  by_cases closed : s.getLast nonempty = sep
  · refine ⟨s.dropLast, ?_⟩
    have shape : s = s.dropLast ++ sep :: [] := by
      conv_lhs => rw [← List.dropLast_append_getLast nonempty, closed]
    rw [shape, linesOf_append_cons, linesOf_nil, List.append_nil, ← shape,
      List.splitOn_eq_singleton absent]
  · refine ⟨s, ?_⟩
    have none : sep ∉ s := by
      rw [← List.dropLast_append_getLast nonempty, List.mem_append, List.mem_singleton]
      rintro (member | last)
      · exact absent member
      · exact closed last.symm
    simp [linesOf, List.splitOn_eq_singleton none, nonempty]

/-- **The lines seen from some place on.** -/
theorem linesOf_append {t : List α} (s : List α) (nonempty : t ≠ []) :
    ∃ front last first rest, s.splitOn sep = front ++ [last] ∧ linesOf sep t = first :: rest ∧
      linesOf sep (s ++ t) = front ++ (last ++ first) :: rest := by
  obtain ⟨front, last, first, rest, before, pieces, both⟩ := splitOn_append sep s t
  cases rest with
  | nil =>
      have whole : [sep].intercalate (t.splitOn sep) = t := List.intercalate_splitOn sep
      rw [pieces] at whole
      have text : first ≠ [] := by
        rintro rfl
        exact nonempty (by simpa using whole.symm)
      refine ⟨front, last, first, [], before, ?_, ?_⟩
      · simp [linesOf, pieces, text]
      · simp [linesOf, both, text]
  | cons next rest =>
      by_cases empty : (next :: rest).getLast? = some []
      · refine ⟨front, last, first, (next :: rest).dropLast, before, ?_, ?_⟩
        · simp [linesOf, pieces, List.getLast?_cons_cons, empty]
        · simp [linesOf, both, List.getLast?_append, List.getLast?_cons_cons, empty]
      · refine ⟨front, last, first, next :: rest, before, ?_, ?_⟩
        · simp [linesOf, pieces, List.getLast?_cons_cons, empty]
        · simp [linesOf, both, List.getLast?_append, List.getLast?_cons_cons, empty]

omit [DecidableEq α] in
/-- Joined texts are joined again by the separator. -/
theorem intercalate_append {front back : List (List α)} (some_ : front ≠ []) (more : back ≠ []) :
    [sep].intercalate (front ++ back) =
      [sep].intercalate front ++ sep :: [sep].intercalate back := by
  induction front with
  | nil => exact absurd rfl some_
  | cons piece front ih =>
      by_cases alone : front = []
      · subst alone
        simp [List.intercalate_cons_of_ne_nil more]
      · rw [List.cons_append, List.intercalate_cons_of_ne_nil (by simp [alone]),
          List.intercalate_cons_of_ne_nil alone, ih alone]
        simp

theorem length_linesOf_le (s : List α) : (linesOf sep s).length ≤ (s.splitOn sep).length := by
  rcases splitOn_eq_linesOf sep s with same | same
  · rw [same]
  · rw [same, List.length_append]
    exact Nat.le_add_right _ _

/-- What lies behind the first `j` lines. -/
theorem linesOf_behind {s : List α} {j : Nat} (some_ : 0 < j) (more : j < (linesOf sep s).length) :
    ∃ rest, s = [sep].intercalate ((linesOf sep s).take j) ++ sep :: rest ∧
      linesOf sep rest = (linesOf sep s).drop j := by
  have whole : [sep].intercalate (s.splitOn sep) = s := List.intercalate_splitOn sep
  have long : j < (s.splitOn sep).length := more.trans_le (length_linesOf_le sep s)
  have taken : (linesOf sep s).take j = (s.splitOn sep).take j := by
    rcases splitOn_eq_linesOf sep s with same | same
    · rw [same]
    · rw [same, List.take_append_of_le_length more.le]
  have behind : (s.splitOn sep).drop j ≠ [] := by
    rw [← List.length_pos_iff, List.length_drop]
    omega
  have before : (s.splitOn sep).take j ≠ [] := by
    rw [← List.length_pos_iff, List.length_take]
    omega
  refine ⟨[sep].intercalate ((s.splitOn sep).drop j), ?_, ?_⟩
  · rw [taken, ← intercalate_append sep before behind, List.take_append_drop, whole]
  · have pieces : ([sep].intercalate ((s.splitOn sep).drop j)).splitOn sep = (s.splitOn sep).drop j :=
      List.splitOn_intercalate sep (fun _ member => absent_of_mem_splitOn (List.mem_of_mem_drop member))
        behind
    unfold linesOf
    rw [pieces, List.getLast?_drop, if_neg (Nat.not_le.2 long)]
    split
    · rw [List.dropLast_drop_eq_drop_dropLast]
    · rfl

theorem length_linesOf_suffix {s t : List α} (suffix : t <:+ s) :
    (linesOf sep t).length ≤ (linesOf sep s).length := by
  obtain ⟨front, rfl⟩ := suffix
  by_cases empty : t = []
  · simp [empty, linesOf_nil]
  · obtain ⟨before, last, first, rest, -, lines, both⟩ := linesOf_append sep front empty
    rw [lines, both]
    simp

/-- A suffix that shows all lines whole is the whole text. -/
theorem eq_of_linesOf_eq {s t : List α} (suffix : t <:+ s) (nonempty : t ≠ [])
    (same : linesOf sep t = linesOf sep s) : t = s := by
  obtain ⟨before, rfl⟩ := suffix
  obtain ⟨front, last, first, rest, pieces, seen, whole⟩ := linesOf_append sep before nonempty
  rw [seen, whole] at same
  have lengths := congrArg List.length same
  simp only [List.length_append, List.length_cons] at lengths
  obtain rfl : front = [] := List.length_eq_zero_iff.1 (by omega)
  have cut : last = [] := by simpa using same
  have text : [sep].intercalate (before.splitOn sep) = before := List.intercalate_splitOn sep
  rw [pieces, cut] at text
  obtain rfl : before = [] := text.symm
  rfl

/-! ## The last elements of a list -/

section Last

variable {β : Type} {xs ys : List β}

theorem length_rtake (xs : List β) (n : Nat) : (xs.rtake n).length = min n xs.length := by
  rw [List.rtake, List.length_drop]
  omega

theorem rtake_of_length_le {n : Nat} (few : xs.length ≤ n) : xs.rtake n = xs := by
  rw [List.rtake, Nat.sub_eq_zero_of_le few, List.drop_zero]

/-- The last elements of a suffix that has enough of them. -/
theorem rtake_of_suffix {n : Nat} (suffix : ys <:+ xs) (many : n ≤ ys.length) :
    ys.rtake n = xs.rtake n := by
  obtain ⟨front, rfl⟩ := suffix
  have place : (front ++ ys).length - n = front.length + (ys.length - n) := by
    rw [List.length_append]
    omega
  rw [List.rtake, List.rtake, place, ← List.drop_drop, List.drop_left]

theorem rtake_suffix_rtake {n : Nat} (suffix : ys <:+ xs) : ys.rtake n <:+ xs.rtake n := by
  by_cases many : n ≤ ys.length
  · rw [rtake_of_suffix suffix many]
  · rw [rtake_of_length_le (by omega)]
    obtain ⟨front, rfl⟩ := suffix
    have place : (front ++ ys).length - n ≤ front.length := by
      rw [List.length_append]
      omega
    rw [List.rtake, List.drop_append_of_le_length place]
    exact List.suffix_append _ _

end Last

end KubeAutopsy.Theory.Lines
