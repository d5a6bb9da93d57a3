/-
# KubeAutopsy.Theory.Fields — records read and written by the name of a field

A record whose fields have names and, by name, types: reading a field after writing one is
updating a function at one place.  `assign` writes a list of fields one after the other, and
what is read afterwards is the last that was written, or what was there before
(`get_assign`).  So a record that is filled in layers has in each field what the topmost
layer that writes it says.
-/
import Mathlib.Logic.Function.Basic

namespace KubeAutopsy.Theory.Fields

set_option autoImplicit false

variable {ι : Type} [DecidableEq ι] {V : ι → Type} {R : Type}

structure Record (ι : Type) [DecidableEq ι] (V : ι → Type) (R : Type) where
  get : R → (i : ι) → V i
  set : R → (i : ι) → V i → R
  get_set : ∀ r i v, get (set r i v) = Function.update (get r) i v

def Record.assign (F : Record ι V R) (r : R) (writes : List (Σ i, V i)) : R :=
  writes.foldl (fun r w => F.set r w.1 w.2) r

/-- What a write says about a field. -/
def wrote (i : ι) (w : Σ i, V i) : Option (V i) :=
  if h : w.1 = i then some (h ▸ w.2) else none

/-- What the last write of a field says. -/
def latest (i : ι) : List (Σ i, V i) → Option (V i)
  | [] => none
  | w :: writes => (latest i writes).or (wrote i w)

theorem wrote_self (i : ι) (v : V i) : wrote i ⟨i, v⟩ = some v := by
  simp [wrote]

theorem wrote_other {i : ι} {w : Σ i, V i} (other : w.1 ≠ i) : wrote i w = none := dif_neg other

theorem get_set_eq (F : Record ι V R) (r : R) (w : Σ i, V i) (i : ι) :
    F.get (F.set r w.1 w.2) i = (wrote i w).getD (F.get r i) := by
  obtain ⟨j, v⟩ := w
  rw [F.get_set]
  by_cases here : j = i
  · subst here
    simp [wrote]
  · simp [wrote, here, Function.update_of_ne (Ne.symm here)]

/-- **What is read is what was written last.** -/
theorem get_assign (F : Record ι V R) (r : R) (writes : List (Σ i, V i)) (i : ι) :
    F.get (F.assign r writes) i = (latest i writes).getD (F.get r i) := by
  induction writes generalizing r with
  | nil => rfl
  | cons w writes ih =>
      show F.get (F.assign (F.set r w.1 w.2) writes) i = _
      rw [ih, get_set_eq, latest]
      cases latest i writes <;> simp

theorem latest_isSome (i : ι) (writes : List (Σ i, V i)) :
    (latest i writes).isSome = true ↔ ∃ w ∈ writes, w.1 = i := by
  induction writes with
  | nil => simp [latest]
  | cons w writes ih =>
      rw [latest, Option.isSome_or, Bool.or_eq_true, ih]
      by_cases here : w.1 = i
      · simp [wrote, here]
      · simp [wrote, here]

theorem latest_eq_none {i : ι} {writes : List (Σ i, V i)} (absent : ∀ w ∈ writes, w.1 ≠ i) :
    latest i writes = none := by
  rw [← Option.not_isSome_iff_eq_none, latest_isSome]
  rintro ⟨w, member, here⟩
  exact absent w member here

section Sources

variable {κ : Type} (field : κ → ι) (value : (k : κ) → Option (V (field k)))

/-- The fields for which their sources have a value. -/
def writesOf (sources : List κ) : List (Σ i, V i) :=
  sources.filterMap fun k => (value k).map (Sigma.mk (field k))

variable {field value}

omit [DecidableEq ι] in
theorem mem_writesOf {sources : List κ} {w : Σ i, V i} (member : w ∈ writesOf field value sources) :
    ∃ k ∈ sources, field k = w.1 := by
  obtain ⟨k, inside, found⟩ := List.mem_filterMap.1 member
  obtain ⟨v, -, rfl⟩ := Option.map_eq_some_iff.1 found
  exact ⟨k, inside, rfl⟩

theorem latest_writesOf_absent {sources : List κ} {i : ι} (absent : i ∉ sources.map field) :
    latest i (writesOf field value sources) = none := by
  apply latest_eq_none
  intro w member here
  obtain ⟨k, inside, same⟩ := mem_writesOf member
  exact absent (List.mem_map.2 ⟨k, inside, same.trans here⟩)

/-- A field with one source has what that source has. -/
theorem latest_writesOf {sources : List κ} (distinct : (sources.map field).Nodup) {k : κ}
    (member : k ∈ sources) : latest (field k) (writesOf field value sources) = value k := by
  induction sources with
  | nil => cases member
  | cons first sources ih =>
      rw [List.map_cons, List.nodup_cons] at distinct
      have split : writesOf field value (first :: sources) =
          ((value first).map (Sigma.mk (field first))).toList ++ writesOf field value sources := by
        unfold writesOf
        rw [List.filterMap_cons]
        cases value first <;> rfl
      rw [split]
      rcases List.mem_cons.1 member with rfl | later
      · have rest : latest (field k) (writesOf field value sources) = none :=
          latest_writesOf_absent distinct.1
        cases found : value k with
        | none => exact rest
        | some v => simp [latest, rest, wrote_self]
      · have other : field first ≠ field k := by
          intro same
          exact distinct.1 (List.mem_map.2 ⟨k, later, same.symm⟩)
        have rest := ih distinct.2 later
        cases value first with
        | none => exact rest
        | some v =>
            have none_here : wrote (field k) (⟨field first, v⟩ : Σ i, V i) = none := wrote_other other
            simp [latest, rest, none_here]

end Sources

end KubeAutopsy.Theory.Fields
