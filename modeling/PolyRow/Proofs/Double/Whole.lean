import Mathlib
import PolyRow.Proofs.Double.Arithmetic

/-!
# Whole numbers as doubles

A whole number becomes the double nearest to it. Small ones are converted from a
machine word and multiplied by one, large ones are the product of a shifted mantissa
with one; either way the whole number is rounded once.

## Main results

* `number_ofNat`, `number_ofInt`: the double of a whole number is the nearest one.
* `isFinite_ofInt_iff`: the whole numbers that become finite doubles.
-/

namespace PolyRow.Double

open Float.Model (Format UnpackedFloat)
open Float.Model.UnpackedFloat

private theorem number_ofNat_of_lt {n : Nat} (h : n < 2 ^ 53) :
    number (Float.ofNat n) = nearest n := by
  have hofNat : Float.ofNat n = n.toUInt64.toFloat * 1 := by
    show Float.ofScientific n false 0 = _
    unfold Float.ofScientific
    rw [dif_pos ⟨h, by decide⟩]
    rfl
  have hword : n.toUInt64.toNat = n :=
    UInt64.toNat_ofNat_of_lt' (lt_of_lt_of_le h (by decide))
  rw [hofNat, number_mul_one]
  show value (repack (UnpackedFloat.normalize .binary64 (n.toUInt64.toNat : Int) 0 .positive)) = _
  rw [value_normalize, hword, zpow_zero, mul_one, Int.cast_natCast]

private theorem number_ofNat_of_le {n : Nat} (h : 2 ^ 53 ≤ n) :
    number (Float.ofNat n) = nearest n := by
  have hofNat : Float.ofNat n = Float.ofModel (Float.Model.ofScientific n 0) := by
    show Float.ofScientific n false 0 = _
    unfold Float.ofScientific
    rw [dif_neg (by omega)]
    rfl
  have hproduct : UnpackedFloat.ofScientific .binary64 n 0 =
      roundWithAccuracy .binary64 .positive (n <<< 53 * 1) (-53) .exact := by
    have hlow : ¬ (0 : Int) < -((2 : Int) ^ 11 + n.log2) := by omega
    unfold UnpackedFloat.ofScientific
    rw [dif_neg (by omega), if_neg (by decide), if_neg hlow, if_pos le_rfl]
    rfl
  have hscale : ((n <<< 53 * 1 : Nat) : Rat) * 2 ^ (-53 : Int) = n := by
    rw [mul_one, Nat.shiftLeft_eq, Nat.cast_mul, Nat.cast_pow, Nat.cast_ofNat, mul_assoc,
      two_pow_mul_zpow]
    exact mul_one _
  have hplace : -53 ≤ lastPlace (n : Rat) := by
    have hlog := lastPlace_mul_zpow (show 0 < n by omega) 0
    rw [zpow_zero, mul_one] at hlog
    omega
  have hpos : 0 < n <<< 53 * 1 := by
    rw [mul_one, Nat.shiftLeft_eq]
    omega
  rw [hofNat]
  show value (repack (UnpackedFloat.ofScientific .binary64 n 0)) = nearest n
  rw [hproduct, value_roundWithAccuracy .positive hpos (by rwa [hscale]), hscale]
  exact congrArg nearest (one_mul _)

/-- **The double of a whole number is the nearest one.** -/
theorem number_ofNat (n : Nat) : number (Float.ofNat n) = nearest n := by
  by_cases h : n < 2 ^ 53
  · exact number_ofNat_of_lt h
  · exact number_ofNat_of_le (by omega)

theorem number_ofInt (n : Int) : number (Float.ofInt n) = nearest n := by
  cases n with
  | ofNat k => exact (number_ofNat k).trans (congrArg nearest (Int.cast_natCast k).symm)
  | negSucc k =>
      have hcast : ((Int.negSucc k : Int) : Rat) = -((k + 1 : Nat) : Rat) := by
        rw [Int.negSucc_eq]
        push_cast
        ring
      show number (-(Float.ofNat (k + 1))) = _
      rw [number_neg, number_ofNat, hcast, nearest_neg]

/-- It is finite in the range of doubles. -/
theorem isFinite_ofInt_iff {n : Int} :
    Scalar.isFinite (Float.ofInt n) = true ↔ |(n : Rat)| < 2 ^ 1024 - 2 ^ 970 := by
  rw [isFinite_iff, number_ofInt, nearest_eq_finite_iff]

end PolyRow.Double
