/-
# KubeAutopsy.Theory.Slices — index and slice expressions that can be out of range

A call stops with an error value or, on an index out of range, with a panic.  The index
and slice expressions here stop that way exactly outside the bounds of the list, so that a
program written with them returns a value only if none of its indices is out of range.
-/
import Mathlib.Data.List.Basic

namespace KubeAutopsy.Theory.Slices

set_option autoImplicit false

/-- How a call ends without a result. -/
inductive Stop (ε : Type) where
  | failed (err : ε)
  | outOfRange
  deriving DecidableEq, Repr

variable {ε α : Type}

/-- The result of a call, as one sees it who knows that no index in it is out of range. -/
def settled : (result : Except (Stop ε) α) → result ≠ .error .outOfRange → Except ε α
  | .ok a, _ => .ok a
  | .error (.failed err), _ => .error err
  | .error .outOfRange, inRange => absurd rfl inRange

theorem settled_eq_ok {result : Except (Stop ε) α} {inRange : result ≠ .error .outOfRange} {a : α}
    (ends : settled result inRange = .ok a) : result = .ok a := by
  match result, inRange with
  | .ok b, _ => exact congrArg Except.ok (Except.ok.inj ends)
  | .error (.failed err), _ => cases ends
  | .error .outOfRange, inRange => exact absurd rfl inRange

/-- The expression `xs[i]`. -/
def elementAt (xs : List α) (i : Int) : Except (Stop ε) α :=
  if 0 ≤ i then
    match xs[i.toNat]? with
    | some a => .ok a
    | none => .error .outOfRange
  else .error .outOfRange

/-- The expression `xs[low:]`. -/
def sliceFrom (xs : List α) (low : Int) : Except (Stop ε) (List α) :=
  if 0 ≤ low ∧ low ≤ xs.length then .ok (xs.drop low.toNat) else .error .outOfRange

/-- The expression `xs[:high]` of a list that is as long as its capacity. -/
def sliceTo (xs : List α) (high : Int) : Except (Stop ε) (List α) :=
  if 0 ≤ high ∧ high ≤ xs.length then .ok (xs.take high.toNat) else .error .outOfRange

theorem elementAt_of_lt {xs : List α} {i : Nat} (inside : i < xs.length) :
    elementAt xs i = (.ok xs[i] : Except (Stop ε) α) := by
  rw [elementAt, if_pos (Int.natCast_nonneg i), Int.toNat_natCast, List.getElem?_eq_getElem inside]

theorem sliceFrom_of_le {xs : List α} {n : Nat} (le : n ≤ xs.length) :
    sliceFrom xs n = (.ok (xs.drop n) : Except (Stop ε) (List α)) := by
  rw [sliceFrom, if_pos (by omega), Int.toNat_natCast]

theorem elementAt_last {xs : List α} {last : α} (found : xs.getLast? = some last) :
    elementAt xs ((xs.length : Int) - 1) = (.ok last : Except (Stop ε) α) := by
  have nonempty : 0 < xs.length := by
    cases xs with
    | nil => cases found
    | cons a xs => simp
  have place : ((xs.length : Int) - 1).toNat = xs.length - 1 := by omega
  rw [List.getLast?_eq_getElem?] at found
  unfold elementAt
  rw [if_pos (by omega), place, found]

theorem sliceFrom_sub {xs : List α} {n : Nat} (le : n ≤ xs.length) :
    sliceFrom xs ((xs.length : Int) - n) = (.ok (xs.drop (xs.length - n)) : Except (Stop ε) (List α)) := by
  have place : ((xs.length : Int) - n).toNat = xs.length - n := by omega
  unfold sliceFrom
  rw [if_pos (by omega), place]

theorem sliceFrom_one {xs : List α} (nonempty : 0 < xs.length) :
    sliceFrom xs 1 = (.ok xs.tail : Except (Stop ε) (List α)) := by
  unfold sliceFrom
  rw [if_pos (by omega)]
  simp

theorem sliceTo_last {xs : List α} (nonempty : 0 < xs.length) :
    sliceTo xs ((xs.length : Int) - 1) = (.ok xs.dropLast : Except (Stop ε) (List α)) := by
  have place : ((xs.length : Int) - 1).toNat = xs.length - 1 := by omega
  unfold sliceTo
  rw [if_pos (by omega), place, List.dropLast_eq_take]

end KubeAutopsy.Theory.Slices
