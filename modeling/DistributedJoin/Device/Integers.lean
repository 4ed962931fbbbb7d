import Mathlib.Algebra.Order.Ring.Int
import Mathlib.Tactic.Linarith

/-!
# Machine integers

Conversions to the integer types of the code. A number outside the range of a
type wraps around.
-/

namespace DistributedJoin

/-- Arithmetic on `int`, a signed integer of 32 bits. -/
def toInt (value : Int) : Int := value.bmod (2 ^ 32)

/-- Arithmetic on `std::int64_t`, a signed integer of 64 bits. -/
def toInt64 (value : Int) : Int := value.bmod (2 ^ 64)

/-- Conversion to `std::size_t`, an unsigned integer of 64 bits. -/
def toSizeT (value : Int) : Nat := (value % 2 ^ 64).toNat

theorem toInt_bounds (value : Int) : -2 ^ 31 ≤ toInt value ∧ toInt value < 2 ^ 31 := by
  have lower : -((2 ^ 32 : Nat) / 2 : Int) ≤ toInt value := Int.le_bmod (by decide)
  have upper : toInt value < ((2 ^ 32 : Nat) + 1 : Int) / 2 := Int.bmod_lt (by decide)
  omega

/-- A number that `int` can hold is not changed. -/
theorem toInt_eq
    {value : Int}
    (nonnegative : 0 ≤ value)
    (bounded : value < 2 ^ 31) :
    toInt value = value := by
  unfold toInt
  apply Int.bmod_eq_of_le_mul_two <;> omega

/-- Two numbers are the same `int` exactly if they differ by a multiple of its
range. -/
theorem toInt_eq_iff (first second : Int) :
    toInt first = toInt second ↔ (2 ^ 32 : Int) ∣ first - second := by
  unfold toInt
  rw [Int.bmod_eq_bmod_iff_bmod_sub_eq_zero, ← Int.dvd_iff_bmod_eq_zero]
  rfl

theorem toInt64_eq
    {value : Int}
    (lower : -2 ^ 63 ≤ value)
    (upper : value < 2 ^ 63) :
    toInt64 value = value := by
  unfold toInt64
  rw [Int.bmod_def]
  omega

theorem toSizeT_eq
    {value : Int}
    (nonnegative : 0 ≤ value)
    (bounded : value < 2 ^ 64) :
    (toSizeT value : Int) = value := by
  unfold toSizeT
  rw [Int.emod_eq_of_lt nonnegative bounded, Int.toNat_of_nonneg nonnegative]

/-- A number that has wrapped around stays the same as an unsigned integer. -/
theorem toSizeT_toInt64 (value : Int) : toSizeT (toInt64 value) = toSizeT value := by
  unfold toSizeT toInt64
  exact congrArg Int.toNat Int.bmod_emod

end DistributedJoin
