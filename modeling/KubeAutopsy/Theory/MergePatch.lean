/-
# KubeAutopsy.Theory.MergePatch — JSON merge patches, leaf by leaf

A document is the set of its leaves: `Doc P V` gives the value at each path, or
`none` where the encoder omitted it.  A merge patch carries some of the paths;
at a carried path it holds the new value, or null to remove the leaf.

`diff` is the patch a client computes between the copy it read and the copy it
changed, and `apply` is what the server does with it: it changes exactly the
paths the patch carries (`apply_eq_of_not_carried`).  The two facts every writer
relies on are that a diff applied to the copy it was computed from gives the
changed copy (`apply_diff_self`), and that a diff carries nothing where the two
copies agree (`diff_eq_none_iff`), so that whatever the client's copy lacks on
both sides survives in the stored document.
-/
import Mathlib.Logic.Basic

namespace KubeAutopsy.Theory.MergePatch

set_option autoImplicit false

variable {P V : Type}

/-- A document by its leaves. -/
def Doc (P V : Type) := P → Option V

/-- A merge patch: `none` where a path is not carried, `some none` for null. -/
def Patch (P V : Type) := P → Option (Option V)

/-- The patch that takes `before` to `after`. -/
def diff [DecidableEq V] (before after : Doc P V) : Patch P V := fun p =>
  if before p = after p then none else some (after p)

/-- The server's side: every carried path is overwritten, nothing else moves. -/
def apply (patch : Patch P V) (doc : Doc P V) : Doc P V := fun p =>
  match patch p with
  | some value => value
  | none => doc p

theorem apply_eq_of_not_carried {patch : Patch P V} {doc : Doc P V} {p : P}
    (absent : patch p = none) : apply patch doc p = doc p := by
  simp [apply, absent]

theorem apply_eq_of_carried {patch : Patch P V} {doc : Doc P V} {p : P} {value : Option V}
    (carried : patch p = some value) : apply patch doc p = value := by
  simp [apply, carried]

section Diff

variable [DecidableEq V]

theorem diff_eq_none_iff {before after : Doc P V} {p : P} :
    diff before after p = none ↔ before p = after p := by
  unfold diff
  split <;> simp_all

theorem diff_eq_some {before after : Doc P V} {p : P} (moved : before p ≠ after p) :
    diff before after p = some (after p) := by
  simp [diff, moved]

/-- On the copy it was computed from, a diff gives the changed copy. -/
theorem apply_diff_self (before after : Doc P V) : apply (diff before after) before = after := by
  funext p
  by_cases same : before p = after p
  · rw [apply_eq_of_not_carried (diff_eq_none_iff.2 same), same]
  · exact apply_eq_of_carried (diff_eq_some same)

/-- At a path where the two copies agree the stored value stays, whatever it is. -/
theorem apply_diff_of_eq {before after doc : Doc P V} {p : P} (same : before p = after p) :
    apply (diff before after) doc p = doc p :=
  apply_eq_of_not_carried (diff_eq_none_iff.2 same)

theorem apply_diff_of_ne {before after doc : Doc P V} {p : P} (moved : before p ≠ after p) :
    apply (diff before after) doc p = after p :=
  apply_eq_of_carried (diff_eq_some moved)

end Diff

end KubeAutopsy.Theory.MergePatch
