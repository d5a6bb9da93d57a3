/-
# KubeAutopsy.Theory.Admission — a set that admits whoever comes first, up to a limit

`Admitted α limit` is a set of at most `limit` names, with the limit as a field.  It admits a
name while there is room (`accept`) and forgets none.  A name is refused only when the set is
full (`full_of_refused`), and a full set never changes (`acceptAll_of_full`), so the first
decision about a name is the last (`accept_decides`).
-/
import Mathlib.Data.Finset.Card

namespace KubeAutopsy.Theory.Admission

set_option autoImplicit false

/-- A set of names with its limit. -/
structure Admitted (α : Type) (limit : Nat) where
  seen : Finset α
  bounded : seen.card ≤ limit

namespace Admitted

variable {α : Type} [DecidableEq α] {limit : Nat}

def empty : Admitted α limit := ⟨∅, Nat.zero_le limit⟩

def add (names : Admitted α limit) (a : α) (room : names.seen.card < limit) : Admitted α limit where
  seen := insert a names.seen
  bounded := (Finset.card_insert_le a names.seen).trans room

/-- Admit a new name if there is room for it. -/
def accept (names : Admitted α limit) (a : α) : Admitted α limit :=
  if room : a ∉ names.seen ∧ names.seen.card < limit then names.add a room.2 else names

/-- Names come one after the other. -/
def acceptAll (names : Admitted α limit) (arrivals : List α) : Admitted α limit :=
  arrivals.foldl accept names

theorem acceptAll_cons (names : Admitted α limit) (a : α) (arrivals : List α) :
    names.acceptAll (a :: arrivals) = (names.accept a).acceptAll arrivals := rfl

theorem mem_accept_iff {names : Admitted α limit} {a b : α} :
    b ∈ (names.accept a).seen ↔ b ∈ names.seen ∨ b = a ∧ names.seen.card < limit := by
  rw [accept]
  split_ifs with room
  · simp [add, room.2, or_comm]
  · refine ⟨.inl, ?_⟩
    rintro (member | ⟨rfl, free⟩)
    · exact member
    · by_contra absent
      exact room ⟨absent, free⟩

theorem accept_of_mem {names : Admitted α limit} {a : α} (member : a ∈ names.seen) :
    names.accept a = names :=
  dif_neg fun room => room.1 member

theorem accept_of_room {names : Admitted α limit} {a : α} (absent : a ∉ names.seen)
    (room : names.seen.card < limit) : names.accept a = names.add a room :=
  dif_pos ⟨absent, room⟩

/-- **A name is refused only by a full set.** -/
theorem full_of_refused {names : Admitted α limit} {a : α} (refused : a ∉ (names.accept a).seen) :
    names.seen.card = limit := by
  apply Nat.le_antisymm names.bounded
  rw [← Nat.not_lt]
  intro room
  exact refused (mem_accept_iff.2 (.inr ⟨rfl, room⟩))

theorem accept_of_full {names : Admitted α limit} (full : names.seen.card = limit) (a : α) :
    names.accept a = names :=
  dif_neg fun room => Nat.not_lt.2 full.ge room.2

/-- **A full set never changes.** -/
theorem acceptAll_of_full {names : Admitted α limit} (full : names.seen.card = limit)
    (arrivals : List α) : names.acceptAll arrivals = names := by
  induction arrivals with
  | nil => rfl
  | cons a arrivals ih => rw [acceptAll_cons, accept_of_full full, ih]

theorem mem_acceptAll {names : Admitted α limit} {a : α} (member : a ∈ names.seen)
    (arrivals : List α) : a ∈ (names.acceptAll arrivals).seen := by
  induction arrivals generalizing names with
  | nil => exact member
  | cons b arrivals ih =>
      apply ih
      exact mem_accept_iff.2 (.inl member)

/-- **The first decision about a name is the last.** -/
theorem accept_decides (names : Admitted α limit) (a : α) (arrivals : List α) :
    a ∈ ((names.accept a).acceptAll arrivals).seen ↔ a ∈ (names.accept a).seen := by
  constructor
  · intro present
    by_contra refused
    have full := full_of_refused refused
    rw [accept_of_full full] at present refused
    rw [acceptAll_of_full full] at present
    exact refused present
  · intro member
    exact mem_acceptAll member arrivals

/-- Nobody is in the set who has not come. -/
theorem mem_of_mem_acceptAll {names : Admitted α limit} {a : α} {arrivals : List α}
    (member : a ∈ (names.acceptAll arrivals).seen) : a ∈ names.seen ∨ a ∈ arrivals := by
  induction arrivals generalizing names with
  | nil => exact .inl member
  | cons b arrivals ih =>
      rcases ih member with early | later
      · rcases mem_accept_iff.1 early with before | ⟨rfl, -⟩
        · exact .inl before
        · exact .inr List.mem_cons_self
      · exact .inr (List.mem_cons_of_mem b later)

end Admitted

end KubeAutopsy.Theory.Admission
