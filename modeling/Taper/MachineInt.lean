import Mathlib.Data.Int.Init
import Mathlib.Tactic.Common

set_option autoImplicit false

/-!
# Exactness of wrapping 32-bit arithmetic

Where the first operand is non-negative, a non-negative result has not wrapped,
whatever the second operand is.
-/
namespace Taper.MachineInt

theorem int32_bounds (a : Int32) : -2147483648 ≤ a.toInt ∧ a.toInt ≤ 2147483647 := by
  have lower := a.le_toInt
  have upper := a.toInt_lt
  omega

theorem add_exact {a b : Int32} (ha : 0 ≤ a.toInt) (h : 0 ≤ (a + b).toInt) :
    (a + b).toInt = a.toInt + b.toInt := by
  have boundA := int32_bounds a
  have boundB := int32_bounds b
  rw [Int32.toInt_add] at h ⊢
  rw [Int.bmod_def] at h ⊢
  omega

theorem sub_exact {a b : Int32} (ha : 0 ≤ a.toInt) (h : 0 ≤ (a - b).toInt) :
    (a - b).toInt = a.toInt - b.toInt := by
  have boundA := int32_bounds a
  have boundB := int32_bounds b
  rw [Int32.toInt_sub] at h ⊢
  rw [Int.bmod_def] at h ⊢
  omega

theorem add_in_range {a b : Int32} (low : -2147483648 ≤ a.toInt + b.toInt)
    (high : a.toInt + b.toInt ≤ 2147483647) : (a + b).toInt = a.toInt + b.toInt := by
  rw [Int32.toInt_add, Int.bmod_def]
  omega

theorem sub_in_range {a b : Int32} (low : -2147483648 ≤ a.toInt - b.toInt)
    (high : a.toInt - b.toInt ≤ 2147483647) : (a - b).toInt = a.toInt - b.toInt := by
  rw [Int32.toInt_sub, Int.bmod_def]
  omega

theorem neg_exact {a : Int32} (h : a.toInt ≠ -2147483648) : (-a).toInt = -a.toInt := by
  have bound := int32_bounds a
  rw [Int32.toInt_neg, Int.bmod_def]
  omega

end Taper.MachineInt
