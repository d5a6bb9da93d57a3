/-
# KubeAutopsy.Theory.Clock — instants and durations

Instants and durations are integers of nanoseconds.  An instant is unbounded;
a duration is a 64-bit integer, and the difference of two instants saturates at
its ends instead of wrapping (`sub`).  Saturation keeps the order, which is all
the comparisons with a bound in range use (`sub_lt_iff`, `lt_sub_iff`).
-/
import Mathlib.Order.Lattice
import Mathlib.Algebra.Order.Ring.Int

namespace KubeAutopsy.Theory.Clock

set_option autoImplicit false

def second : Int := 1000000000
def minute : Int := 60 * second
def hour : Int := 60 * minute

def maxDuration : Int := 2 ^ 63 - 1
def minDuration : Int := -2 ^ 63

/-- `t.Sub(u)`: the difference, saturated to the range of a duration. -/
def sub (t u : Int) : Int :=
  max minDuration (min maxDuration (t - u))

theorem sub_mono {t t' u : Int} (later : t ≤ t') : sub t u ≤ sub t' u := by
  unfold sub
  omega

theorem sub_anti {t u u' : Int} (later : u ≤ u') : sub t u' ≤ sub t u := by
  unfold sub
  omega

/-- Against a bound below the upper end of the range, saturation does not show. -/
theorem lt_sub_iff {t u : Int} {d : Int} (low : minDuration ≤ d) (high : d < maxDuration) :
    d < sub t u ↔ d < t - u := by
  unfold sub
  omega

theorem sub_lt_iff {t u : Int} {d : Int} (low : minDuration < d) (high : d ≤ maxDuration) :
    sub t u < d ↔ t - u < d := by
  unfold sub
  omega

end KubeAutopsy.Theory.Clock
