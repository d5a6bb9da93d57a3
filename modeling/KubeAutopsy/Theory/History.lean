/-
# KubeAutopsy.Theory.History — everything a store ever held

A store that gives every write a larger version number, together with everything
it ever held: `Versions` is the written objects, newest first, with the order of
their numbers as a field.  The current object of a key is the newest one that has
it.  A number identifies its object (`eq_of_version`), which is what an optimistic
lock on it is worth.

`Linked R` says that successive versions of one key are related by `R`.  It is
enough to check `R` between the current version and the one that replaces it
(`Linked.push`); for a preorder it then holds between any two versions of the key
in the order of their numbers (`Linked.of_le`).
-/
import Mathlib.Data.List.Basic

namespace KubeAutopsy.Theory.History

set_option autoImplicit false

variable {α K : Type} {key : α → K} {version : α → Nat}

/-- Written objects, newest first. -/
structure Versions (key : α → K) (version : α → Nat) where
  entries : List α
  ordered : entries.Pairwise fun newer older => version older < version newer

namespace Versions

/-- Nothing written yet. -/
def empty : Versions key version := ⟨[], .nil⟩

/-- The number of the last write. -/
def last (vs : Versions key version) : Nat :=
  match vs.entries with
  | [] => 0
  | v :: _ => version v

theorem le_last (vs : Versions key version) {v : α} (member : v ∈ vs.entries) :
    version v ≤ vs.last := by
  obtain ⟨entries, ordered⟩ := vs
  cases entries with
  | nil => cases member
  | cons newest rest =>
      rcases List.mem_cons.1 member with rfl | older
      · exact Nat.le_refl _
      · exact Nat.le_of_lt ((List.pairwise_cons.1 ordered).1 v older)

/-- Write an object whose number is larger than every number so far. -/
def push (vs : Versions key version) (v : α) (fresh : vs.last < version v) :
    Versions key version where
  entries := v :: vs.entries
  ordered :=
    List.pairwise_cons.2 ⟨fun _ member => Nat.lt_of_le_of_lt (vs.le_last member) fresh, vs.ordered⟩

/-- Two members of a pairwise related list are related one way round, or are one. -/
theorem eq_or_related {R : α → α → Prop} {entries : List α} (related : entries.Pairwise R) {u v : α}
    (first : u ∈ entries) (second : v ∈ entries) : u = v ∨ R u v ∨ R v u := by
  induction related with
  | nil => cases first
  | cons head _ ih =>
      rcases List.mem_cons.1 first with rfl | u_later
      · rcases List.mem_cons.1 second with rfl | v_later
        · exact .inl rfl
        · exact .inr (.inl (head v v_later))
      · rcases List.mem_cons.1 second with rfl | v_later
        · exact .inr (.inr (head u u_later))
        · exact ih u_later v_later

/-- A number identifies its object. -/
theorem eq_of_version {vs : Versions key version} {u v : α} (first : u ∈ vs.entries)
    (second : v ∈ vs.entries) (same : version u = version v) : u = v := by
  rcases eq_or_related vs.ordered first second with rfl | newer | older
  · rfl
  · omega
  · omega

/-- Successive versions of a key are related by `R`, the older one first. -/
def Linked (R : α → α → Prop) (vs : Versions key version) : Prop :=
  vs.entries.Pairwise fun newer older => key newer = key older → R older newer

variable {R : α → α → Prop} {vs : Versions key version}

theorem linked_empty : Linked R (empty : Versions key version) := .nil

theorem Linked.of_le (linked : Linked R vs) (refl : ∀ a, R a a) {u v : α} (first : u ∈ vs.entries)
    (second : v ∈ vs.entries) (same : key u = key v) (le : version u ≤ version v) : R u v := by
  rcases eq_or_related (linked.and vs.ordered) first second with rfl | ⟨_, newer⟩ | ⟨related, _⟩
  · exact refl u
  · omega
  · exact related same.symm

section Current

variable [DecidableEq K]

/-- The newest object of a key. -/
def current (vs : Versions key version) (k : K) : Option α :=
  vs.entries.find? fun v => decide (key v = k)

theorem mem_of_current {k : K} {v : α} (found : vs.current k = some v) : v ∈ vs.entries :=
  List.mem_of_find?_eq_some found

theorem key_of_current {k : K} {v : α} (found : vs.current k = some v) : key v = k := by
  simpa using List.find?_some found

/-- A key with a version has a current one. -/
theorem exists_current {v : α} (member : v ∈ vs.entries) : ∃ c, vs.current (key v) = some c := by
  rw [← Option.isSome_iff_exists, current, List.find?_isSome]
  exact ⟨v, member, by simp⟩

/-- No version of a key is newer than its current one. -/
theorem version_le_current {k : K} {u c : α} (member : u ∈ vs.entries) (same : key u = k)
    (found : vs.current k = some c) : version u ≤ version c := by
  obtain ⟨entries, ordered⟩ := vs
  induction entries with
  | nil => cases member
  | cons newest rest ih =>
      obtain ⟨head, tail⟩ := List.pairwise_cons.1 ordered
      by_cases here : key newest = k
      · have newest_eq : newest = c := by simpa [current, here] using found
        subst newest_eq
        rcases List.mem_cons.1 member with rfl | older
        · exact Nat.le_refl _
        · exact Nat.le_of_lt (head u older)
      · rcases List.mem_cons.1 member with rfl | older
        · exact absurd same here
        · exact ih tail older (by simpa [current, here] using found)

theorem Linked.of_current (linked : Linked R vs) (refl : ∀ a, R a a) {u c : α}
    (member : u ∈ vs.entries) (found : vs.current (key u) = some c) : R u c :=
  linked.of_le refl member (mem_of_current found) (key_of_current found).symm
    (version_le_current member rfl found)

theorem Linked.push (linked : Linked R vs) (refl : ∀ a, R a a)
    (trans : ∀ a b c, R a b → R b c → R a c) {v : α} (fresh : vs.last < version v)
    (replaces : ∀ c, vs.current (key v) = some c → R c v) : Linked R (vs.push v fresh) := by
  unfold Linked Versions.push
  refine List.pairwise_cons.2 ⟨fun u member same => ?_, linked⟩
  obtain ⟨c, found⟩ := exists_current member
  exact trans u c v (linked.of_current refl member found) (replaces c (same ▸ found))

end Current

end Versions

end KubeAutopsy.Theory.History
