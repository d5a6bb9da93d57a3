/-
# KubeAutopsy.Theory.Cost — what a machine can spend

Every operation has a cost in an ordered monoid.  `Pays cost left step` says that `left` is a
potential of the machine: a step costs no more than it lowers what is left to spend.  A run
from `start` has then spent at most `left start`, however far it has come (`Ran.spent_le`).

`attempts` is the potential of a loop of attempts with pauses between them.
-/
import KubeAutopsy.Theory.Refinement
import Mathlib.Algebra.Order.BigOperators.Group.List
import Mathlib.Algebra.Order.Monoid.Canonical.Defs

namespace KubeAutopsy.Theory.Cost

open KubeAutopsy.Theory.Program
open KubeAutopsy.Theory.Refinement

set_option autoImplicit false

section Spent

variable {Op : Type} {Resp : Op → Type} {C : Type} [AddCommMonoid C]

/-- What the operations of a log cost together. -/
def spent (cost : Op → C) (log : List (Entry Op Resp)) : C := (log.map fun e => cost e.op).sum

@[simp] theorem spent_nil (cost : Op → C) : spent cost ([] : List (Entry Op Resp)) = 0 := rfl

@[simp] theorem spent_cons (cost : Op → C) (e : Entry Op Resp) (log : List (Entry Op Resp)) :
    spent cost (e :: log) = cost e.op + spent cost log := rfl

end Spent

section Potential

variable {Op : Type} {Resp : Op → Type} {σ C : Type} [AddCommMonoid C] [PartialOrder C]
  [IsOrderedAddMonoid C]

/-- A step costs no more than it lowers what is left. -/
def Pays (cost : Op → C) (left : σ → C) (step : Machine Op Resp σ) : Prop :=
  ∀ q e q', step q e q' → cost e.op + left q' ≤ left q

variable {cost : Op → C} {left : σ → C} {step : Machine Op Resp σ} {start q : σ}
  {log : List (Entry Op Resp)}

/-- **A run spends what it had at the start, less what is left.** -/
theorem Ran.spent_le (ran : Ran step start log q) (pays : Pays cost left step) :
    spent cost log + left q ≤ left start := by
  refine ran.invariant (I := fun log q => spent cost log + left q ≤ left start) ?_ ?_
  · rw [spent_nil, zero_add]
  · intro log q e q' within moved
    calc spent cost (e :: log) + left q' = spent cost log + (cost e.op + left q') := by
          rw [spent_cons, add_comm (cost e.op), add_assoc]
      _ ≤ spent cost log + left q := add_le_add_right (pays q e q' moved) _
      _ ≤ left start := within

end Potential

section Attempts

variable {C : Type} [AddCommMonoid C]

/-- What attempt `k` and `more` attempts behind it may spend, if each costs `each` and the pause
before attempt `k` costs `pause k`. -/
def attempts (each : C) (pause : Nat → C) : Nat → Nat → C
  | 0, _ => each
  | more + 1, k => each + (pause (k + 1) + attempts each pause more (k + 1))

variable {each : C} {pause : Nat → C}

/-- An attempt that is followed by another. -/
theorem attempts_of_lt {steps k : Nat} (more : k + 1 < steps) :
    attempts each pause (steps - 1 - k) k =
      each + (pause (k + 1) + attempts each pause (steps - 1 - (k + 1)) (k + 1)) := by
  obtain ⟨n, count⟩ : ∃ n, steps - 1 - k = n + 1 := ⟨steps - 2 - k, by omega⟩
  have next : steps - 1 - (k + 1) = n := by omega
  rw [count, next, attempts]

/-- An attempt that ends the loop. -/
theorem le_attempts [PartialOrder C] [CanonicallyOrderedAdd C] (more k : Nat) :
    each ≤ attempts each pause more k := by
  cases more with
  | zero => exact le_refl _
  | succ more => exact le_self_add

end Attempts

end KubeAutopsy.Theory.Cost
