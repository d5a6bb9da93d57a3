/-
# KubeAutopsy.Theory.Words — 64-bit arithmetic that does not wrap

Conversions, sums and products of 64-bit integers wrap.  They are what they are of the
unbounded integers as long as the result is in range.
-/
import Mathlib.Algebra.Order.Ring.Int

namespace KubeAutopsy.Theory.Words

set_option autoImplicit false

/-- What a signed 64-bit integer can be. -/
def InRange (n : Int) : Prop := -2 ^ 63 ≤ n ∧ n < 2 ^ 63

theorem bmod_of_inRange {n : Int} (range : InRange n) : n.bmod (2 ^ 64) = n := by
  obtain ⟨low, high⟩ := range
  exact Int.bmod_eq_of_le (by omega) (by omega)

theorem toInt_ofInt {n : Int} (range : InRange n) : (Int64.ofInt n).toInt = n := by
  rw [Int64.toInt_ofInt]
  exact bmod_of_inRange range

theorem toInt_mul {a b : Int64} (range : InRange (a.toInt * b.toInt)) :
    (a * b).toInt = a.toInt * b.toInt := by
  rw [Int64.toInt_mul, bmod_of_inRange range]

theorem toInt_add {a b : Int64} (range : InRange (a.toInt + b.toInt)) :
    (a + b).toInt = a.toInt + b.toInt := by
  rw [Int64.toInt_add, bmod_of_inRange range]

/-- An unsigned number below the sign bit is the same number signed. -/
theorem toInt_toInt64_of_lt {n : UInt64} (small : n.toNat < 2 ^ 63) : n.toInt64.toInt = n.toNat := by
  show n.toBitVec.toInt = _
  rw [BitVec.toInt_eq_toNat_of_lt]
  · rfl
  · show 2 * n.toNat < 2 ^ 64
    omega

theorem toInt_toInt32_of_lt {n : UInt32} (small : n.toNat < 2 ^ 31) : n.toInt32.toInt = n.toNat := by
  show n.toBitVec.toInt = _
  rw [BitVec.toInt_eq_toNat_of_lt]
  · rfl
  · show 2 * n.toNat < 2 ^ 32
    omega

/-- The upper half of a 64-bit number. -/
theorem toNat_upper (n : UInt64) : (n >>> 32).toUInt32.toNat = n.toNat / 2 ^ 32 := by
  have shift : (32 : UInt64).toNat % 64 = 32 := by decide
  rw [UInt64.toNat_toUInt32, UInt64.toNat_shiftRight, shift, Nat.shiftRight_eq_div_pow]
  have := n.toNat_lt
  omega

end KubeAutopsy.Theory.Words
