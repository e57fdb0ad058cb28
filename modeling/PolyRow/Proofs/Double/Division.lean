import Mathlib
import PolyRow.Proofs.Double.Zero

/-!
# Quotients of doubles

A quotient is computed from the mantissas: zeros are put behind the first until the
whole quotient has more bits than a double keeps, or reaches the least place of all. The
remainder then tells on which side of the half the rest lies, which is all that rounding
asks for. So a quotient is the exact one, rounded once.

The exact reciprocal of the least doubles lies beyond the range. The limit is `2 ^ -1024`,
which is far below the least double with a full mantissa.

## Main results

* `number_div`: exact arithmetic and one rounding, for a divisor that is not zero.
* `number_one_div`: a reciprocal, rounded once.
* `isFinite_one_div_iff`: the divisors whose reciprocal is finite.
-/

namespace PolyRow.Double

open Float.Model (Format UnpackedFloat totalExponent)
open Float.Model.UnpackedFloat

/-! ## Mantissas -/

/-- The leading place of a quotient is known up to one. -/
private theorem log_sub_log_le {x y : Rat} (hx : 0 < x) (hy : 0 < y) :
    Int.log 2 x - Int.log 2 y - 1 ≤ Int.log 2 (x / y) := by
  have hlow : (2 : Rat) ^ Int.log 2 x ≤ x := Int.zpow_log_le_self one_lt_two hx
  have hhigh : y < 2 ^ (Int.log 2 y + 1) := Int.lt_zpow_succ_log_self one_lt_two y
  rw [← Int.zpow_le_iff_le_log one_lt_two (div_pos hx hy), Nat.cast_ofNat, le_div_iff₀ hy]
  calc (2 : Rat) ^ (Int.log 2 x - Int.log 2 y - 1) * y
      ≤ 2 ^ (Int.log 2 x - Int.log 2 y - 1) * 2 ^ (Int.log 2 y + 1) :=
        mul_le_mul_of_nonneg_left hhigh.le (two_zpow_pos _).le
    _ = 2 ^ Int.log 2 x := by
        rw [← zpow_add₀ two_ne_zero]
        congr 1
        ring
    _ ≤ x := hlow

/-- The exponent of the whole quotient is at most that of the last place kept, which is
also the place that rounding shifts to. A whole quotient of zero stands at the least place
or below it. -/
private theorem targetExponent_quotient {k : Nat} {g t : Int} {q : Rat} (hpos : 0 < q)
    (hlow : k * 2 ^ g ≤ q) (hhigh : q < (k + 1) * 2 ^ g) (hlog : t - 1 ≤ Int.log 2 q)
    (hg : g ≤ Format.binary64.targetExponent t) :
    Format.binary64.targetExponent (totalExponent k g) = lastPlace q ∧ g ≤ lastPlace q := by
  have htarget (x : Int) : Format.binary64.targetExponent x = max (x - 53) (-1074) := rfl
  rw [htarget] at hg ⊢
  unfold totalExponent lastPlace
  rw [abs_of_pos hpos]
  rcases Nat.eq_zero_or_pos k with hzero | hk
  · subst hzero
    rw [Nat.cast_zero, zero_add, one_mul] at hhigh
    have hbelow : Int.log 2 q < g :=
      (Int.lt_zpow_iff_log_lt one_lt_two hpos).1 (by rwa [Nat.cast_ofNat])
    have hlogZero : Nat.log2 0 = 0 := by decide
    rw [hlogZero]
    omega
  · have hleading := log_of_units hk hlow hhigh
    omega

/-- **A quotient of mantissas and exponents**, rounded once. -/
private theorem value_divCore (s : Sign) {m n : Nat} {e f : Int} (hm : 0 < m) (hn : 0 < n) :
    value (repack (roundWithAccuracy .binary64 s (divCore .binary64 m e n f).1
      (divCore .binary64 m e n f).2.1 (divCore .binary64 m e n f).2.2)) =
    nearest (unit s * (m * 2 ^ e / (n * 2 ^ f))) := by
  unfold divCore
  dsimp only
  have hdividend : (0 : Rat) < m * 2 ^ e := mul_pos (by exact_mod_cast hm) (two_zpow_pos e)
  have hdivisor : (0 : Rat) < n * 2 ^ f := mul_pos (by exact_mod_cast hn) (two_zpow_pos f)
  have hlog : totalExponent m e - totalExponent n f - 1 ≤
      Int.log 2 ((m : Rat) * 2 ^ e / (n * 2 ^ f)) := by
    have hle := log_sub_log_le hdividend hdivisor
    rw [log_mul_zpow hm, log_mul_zpow hn] at hle
    unfold totalExponent
    omega
  -- Of the exponent that is chosen only the two upper bounds are used from here on.
  have htarget := min_le_right (e - f)
    (Format.binary64.targetExponent (totalExponent m e - totalExponent n f))
  have hshift := min_le_left (e - f)
    (Format.binary64.targetExponent (totalExponent m e - totalExponent n f))
  generalize min (e - f)
    (Format.binary64.targetExponent (totalExponent m e - totalExponent n f)) = g
    at htarget hshift ⊢
  have hpos : (0 : Rat) < m * 2 ^ e / (n * 2 ^ f) := div_pos hdividend hdivisor
  have hn' : (0 : Rat) < n := by exact_mod_cast hn
  -- In units of it the quotient is one of whole numbers.
  have hscale : ((m <<< (e - f - g).toNat : Nat) : Rat) / n =
      m * 2 ^ e / (n * 2 ^ f) / 2 ^ g := by
    have htoNat : ((e - f - g).toNat : Int) = e - f - g := Int.toNat_of_nonneg (by omega)
    rw [Nat.shiftLeft_eq, Nat.cast_mul, Nat.cast_pow, Nat.cast_ofNat, ← zpow_natCast, htoNat,
      zpow_sub₀ two_ne_zero, zpow_sub₀ two_ne_zero]
    field_simp
  generalize m <<< (e - f - g).toNat = l at hscale ⊢
  generalize (m : Rat) * 2 ^ e / (n * 2 ^ f) = q at hpos hlog hscale ⊢
  have hbrackets := brackets_quotient l hn
  have hfloor : ⌊(l : Rat) / n⌋₊ = l / n := Nat.floor_div_eq_div l n
  have hnonneg : (0 : Rat) ≤ q / 2 ^ g := (div_pos hpos (two_zpow_pos g)).le
  rw [hscale] at hbrackets hfloor
  have hlow : ((l / n : Nat) : Rat) * 2 ^ g ≤ q := by
    rw [← le_div_iff₀ (two_zpow_pos g), ← hfloor]
    exact Nat.floor_le hnonneg
  have hhigh : q < (((l / n : Nat) : Rat) + 1) * 2 ^ g := by
    rw [← div_lt_iff₀ (two_zpow_pos g), ← hfloor]
    exact Nat.lt_floor_add_one _
  obtain ⟨hplace, hg⟩ := targetExponent_quotient hpos hlow hhigh hlog htarget
  exact value_roundWithAccuracy_of_brackets s hpos hbrackets hplace hg

/-! ## Doubles -/

private theorem sign_div_eq_mul (s t : Sign) : s / t = s * t := by
  cases s <;> cases t <;> rfl

private theorem unit_div (s t : Sign) (p q : Rat) :
    unit (s / t) * (p / q) = unit s * p / (unit t * q) := by
  have hinverse : (unit t)⁻¹ = unit t := by cases t <;> norm_num [unit]
  rw [sign_div_eq_mul, unit_mul, mul_div_mul_comm, div_eq_mul_inv (unit s), hinverse]

private theorem value_div {u w : UnpackedFloat} (hw : value w ≠ .finite 0) :
    value (repack (UnpackedFloat.div .binary64 u w)) = rounded (value u / value w) := by
  have hinfinity (s : Sign) {a : ExtendedRat} (ha : value (.infinity s) = a) :
      value (repack (.infinity s)) = rounded a := value_repack_eq_rounded trivial trivial ha
  have hzero (s : Sign) {a : ExtendedRat} (ha : a = .finite 0) :
      value (repack (.zero s)) = rounded a := value_repack_eq_rounded trivial trivial ha.symm
  have hnone {a : ExtendedRat} (ha : a = .undefined) : value (repack .notANumber) = rounded a :=
    value_repack_eq_rounded trivial trivial ha.symm
  have hpos {m : Nat} (hm : 0 < m) (e : Int) : (0 : Rat) < m * 2 ^ e :=
    mul_pos (by exact_mod_cast hm) (two_zpow_pos e)
  have hunit (s : Sign) : unit s ≠ 0 := by cases s <;> norm_num [unit]
  cases w with
  | notANumber =>
      have hquotient : value u / .undefined = .undefined := by
        cases value u <;> rfl
      cases u <;> exact hnone hquotient
  | zero t => exact absurd rfl hw
  | infinity t =>
      cases u with
      | notANumber => exact hnone (by cases t <;> rfl)
      | infinity s => exact hnone (by cases s <;> cases t <;> rfl)
      | zero s => exact hzero (s / t) (by cases t <;> rfl)
      | finite s m e hm => exact hzero (s / t) (by cases t <;> rfl)
  | finite t n f hn =>
      have hdivisor : unit t * (n * 2 ^ f) ≠ (0 : Rat) :=
        mul_ne_zero (hunit t) (hpos hn f).ne'
      cases u with
      | notANumber =>
          refine hnone ?_
          show ExtendedRat.ofSign (if unit t * (n * 2 ^ f) = 0 then 0 else 0 * _) = .undefined
          rw [if_neg hdivisor, zero_mul, ExtendedRat.ofSign_zero]
      | infinity s =>
          refine hinfinity (s / t) ?_
          have hquotient : value (.infinity s) / value (.finite t n f hn) =
              ExtendedRat.ofSign (unit s * (unit t * (n * 2 ^ f))) := by
            cases s <;> exact congrArg ExtendedRat.ofSign (if_neg hdivisor)
          rw [hquotient, sign_div_eq_mul]
          exact value_infinity_mul s t (hpos hn f)
      | zero s =>
          refine hzero (s / t) ?_
          show (if unit t * (n * 2 ^ f) = 0 then ExtendedRat.ofSign 0 else .finite (0 / _)) = _
          rw [if_neg hdivisor, zero_div]
      | finite s m e hm =>
          have hquotient : value (.finite s m e hm) / value (.finite t n f hn) =
              .finite (unit s * (m * 2 ^ e) / (unit t * (n * 2 ^ f))) := if_neg hdivisor
          rw [hquotient, ← unit_div]
          exact value_divCore (s / t) hm hn

/-- **A quotient of doubles is the exact quotient, rounded once**, if the divisor is not
zero: of zeros, an exact number does not keep the sign. -/
theorem number_div (x : Float) {y : Float} (hy : number y ≠ .finite 0) :
    number (x / y) = rounded (number x / number y) :=
  value_div hy

/-! ## Reciprocals -/

/-- The reciprocal of a number other than zero is its exact reciprocal, rounded once. -/
theorem number_one_div {y : Float} {q : Rat} (hy : number y = .finite q) (hq : q ≠ 0) :
    number (1 / y) = nearest (1 / q) := by
  have hquotient : (ExtendedRat.finite 1 / .finite q : ExtendedRat) = .finite (1 / q) := if_neg hq
  have hne : number y ≠ .finite 0 := fun h => hq (ExtendedRat.finite.inj (hy.symm.trans h))
  rw [number_div 1 hne, number_one, hy, hquotient]
  rfl

/-- **The divisors whose reciprocal is finite.** The least of them is one unit of the
least place above `2 ^ -1024`, and its reciprocal is still well below the end of the
range. -/
theorem isFinite_one_div_iff {y : Float} {q : Rat} (hy : number y = .finite q) (hq : q ≠ 0) :
    Scalar.isFinite (1 / y) = true ↔ 2 ^ (-1024 : Int) < |q| := by
  obtain ⟨j, hj⟩ := exists_least_places hy
  have hpos : 0 < |q| := abs_pos.2 hq
  have hk : |q| = (|j| : Int) * 2 ^ (-1074 : Int) := by
    rw [hj, abs_mul, abs_of_pos (two_zpow_pos _), Int.cast_abs]
  generalize |j| = k at hk
  have hpower : ∃ w : Rat, 0 < w ∧ (2 : Rat) ^ 970 * 2 ^ (-1074 : Int) = w ∧ 2 ^ 104 * w = 1 := by
    refine ⟨_, by positivity, rfl, ?_⟩
    rw [two_pow_mul_zpow, two_pow_mul_zpow]
    rfl
  obtain ⟨w, hw, hunit, hone⟩ := hpower
  have hend : ((2 : Rat) ^ 1024 - 2 ^ 970) * |q| = ((2 ^ 54 - 1) * k : Int) * w := by
    have hrange : (2 : Rat) ^ 1024 = 2 ^ 54 * 2 ^ 970 := (pow_add 2 54 970)
    rw [hk, hrange, ← hunit]
    generalize (2 : Rat) ^ 970 = a, (2 : Rat) ^ (-1074 : Int) = b
    push_cast
    ring
  have hlimit : (2 : Rat) ^ (-1024 : Int) = (2 ^ 50 : Int) * 2 ^ (-1074 : Int) := by
    rw [Int.cast_pow, Int.cast_ofNat, two_pow_mul_zpow]
    rfl
  have hwhole : (2 ^ 104 : Int) < (2 ^ 54 - 1) * k ↔ (2 ^ 50 : Int) < k := by omega
  calc Scalar.isFinite (1 / y) = true ↔ |1 / q| < 2 ^ 1024 - 2 ^ 970 := by
        rw [isFinite_iff, number_one_div hy hq, nearest_eq_finite_iff]
    _ ↔ 2 ^ 104 * w < ((2 ^ 54 - 1) * k : Int) * w := by
        rw [abs_one_div, div_lt_iff₀ hpos, hend, hone]
    _ ↔ (2 ^ 104 : Int) < (2 ^ 54 - 1) * k := by
        rw [mul_lt_mul_iff_left₀ hw]
        exact_mod_cast Iff.rfl
    _ ↔ 2 ^ (-1024 : Int) < |q| := by
        rw [hwhole, hk, hlimit, mul_lt_mul_iff_left₀ (two_zpow_pos _)]
        exact_mod_cast Iff.rfl

/-- No divisor other than zero has an undefined reciprocal. -/
theorem isNaN_one_div {y : Float} {q : Rat} (hy : number y = .finite q) (hq : q ≠ 0) :
    (1 / y).isNaN = false := by
  rw [← Bool.not_eq_true, isNaN_iff, number_one_div hy hq]
  exact nearest_ne_undefined (1 / q)

end PolyRow.Double
