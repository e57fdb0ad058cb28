import Mathlib
import PolyRow.Proofs.Double.Arithmetic

/-!
# Doubles as candidates

Rounding is described by the last place that is kept of a number: the number is rounded to
whole units of it. What this has to do with doubles is shown here. A double is a whole number
of units of the last place, too, or it is below all numbers with that last place. In the first
case the result of rounding is at least as near to the number. In the second case the double
is on the far side of a power of two, which is whole as well.

## Main results

* `exists_mantissa`, `whole_or_lt`: the magnitude of a finite double, in units of a place.
* `abs_sub_nearest_le`: no finite double is nearer to a number than the one it is rounded to.
-/

namespace PolyRow.Double

variable {x : Float} {p q r : Rat}

/-- The magnitude of a finite double has 53 bits, and none below the least place of all. -/
theorem exists_mantissa (hx : number x = .finite r) :
    ∃ (m : Nat) (e : Int), |r| = m * 2 ^ e ∧ m < 2 ^ 53 ∧ -1074 ≤ e := by
  have hcanonical := canonical_toModel x
  unfold number at hx
  generalize x.toModel.unpack = u at hx hcanonical
  cases u with
  | notANumber => exact absurd hx ExtendedRat.noConfusion
  | infinity s => cases s <;> exact absurd hx ExtendedRat.noConfusion
  | zero s =>
      have hzero : (0 : Rat) = r := ExtendedRat.finite.inj hx
      exact ⟨0, -1074, by rw [← hzero, abs_zero, Nat.cast_zero, zero_mul], by decide, le_rfl⟩
  | finite s m e hm =>
      have hparts : unit s * (m * 2 ^ e) = r := ExtendedRat.finite.inj hx
      have hsign : |unit s| = 1 := by cases s <;> simp [unit]
      have hmagnitude : |(m : Rat) * 2 ^ e| = m * 2 ^ e :=
        abs_of_nonneg (mul_nonneg m.cast_nonneg (two_zpow_pos e).le)
      exact ⟨m, e, by rw [← hparts, abs_mul, hsign, one_mul, hmagnitude], hcanonical.1,
        hcanonical.2.1⟩

/-- The magnitude of a double is whole in units of a place, or has at most 52 bits above it. -/
theorem whole_or_lt (hx : number x = .finite r) (e : Int) :
    (∃ k : Int, |r| = k * 2 ^ e) ∨ e ≠ -1074 ∧ |r| < 2 ^ 52 * 2 ^ e := by
  obtain ⟨m, f, hr, hbits, hleast⟩ := exists_mantissa hx
  by_cases hef : e ≤ f
  · have hplaces : ((f - e).toNat : Int) + e = f := by omega
    refine .inl ⟨(m * 2 ^ (f - e).toNat : Nat), ?_⟩
    rw [hr, Int.cast_natCast, Nat.cast_mul, Nat.cast_pow, Nat.cast_ofNat, mul_assoc,
      two_pow_mul_zpow, hplaces]
  · have hm : (m : Rat) < 2 ^ 53 := by exact_mod_cast hbits
    have hnext : ((53 : Nat) : Int) + f ≤ (52 : Nat) + e := by omega
    refine .inr ⟨by omega, ?_⟩
    calc |r| = m * 2 ^ f := hr
      _ < 2 ^ 53 * 2 ^ f := mul_lt_mul_of_pos_right hm (two_zpow_pos f)
      _ = 2 ^ (((53 : Nat) : Int) + f) := two_pow_mul_zpow 53 f
      _ ≤ 2 ^ (((52 : Nat) : Int) + e) := zpow_le_zpow_right₀ one_le_two hnext
      _ = 2 ^ 52 * 2 ^ e := (two_pow_mul_zpow 52 e).symm

/-- A rounded magnitude is nearest among the whole multiples of its unit. -/
private theorem abs_sub_roundedMagnitude_le (q : Rat) (k : Int) :
    |(|q| - roundedMagnitude q)| ≤ |(|q| - k * 2 ^ lastPlace q)| := by
  have hunit : (0 : Rat) < 2 ^ lastPlace q := two_zpow_pos _
  have hscale (a : Rat) :
      |(|q| - a * 2 ^ lastPlace q)| = |(|q| / 2 ^ lastPlace q - a)| * 2 ^ lastPlace q := by
    rw [← abs_of_pos hunit, ← abs_mul, abs_of_pos hunit, sub_mul, div_mul_cancel₀ _ hunit.ne']
  have hnearest := (nearestEven_roundEven (div_nonneg (abs_nonneg q) hunit.le)).nearest k
  rw [Int.cast_natCast] at hnearest
  unfold roundedMagnitude
  rw [hscale, hscale]
  exact mul_le_mul_of_nonneg_right hnearest hunit.le

/-- A number is rounded on its own side of zero. -/
private theorem abs_sub_of_nearest (h : nearest q = .finite p) :
    |q - p| = |(|q| - roundedMagnitude q)| := by
  unfold nearest at h
  split_ifs at h with hrange hneg
  · obtain rfl := ExtendedRat.finite.inj h
    rw [abs_of_neg hneg, ← abs_neg]
    congr 1
    ring
  · obtain rfl := ExtendedRat.finite.inj h
    rw [abs_of_nonneg (not_lt.1 hneg)]
  · unfold ExtendedRat.ofSign at h
    split_ifs at h

/-- Between a rounded magnitude and the magnitude of a double, the former is nearer. -/
private theorem abs_sub_roundedMagnitude_le_of_number (hq : q ≠ 0)
    (hx : number x = .finite r) : |(|q| - roundedMagnitude q)| ≤ |(|q| - |r|)| := by
  rcases whole_or_lt hx (lastPlace q) with ⟨k, hk⟩ | ⟨hnormal, hbelow⟩
  · rw [hk]
    exact abs_sub_roundedMagnitude_le q k
  · have hplace : lastPlace |q| = lastPlace q := by
      unfold lastPlace
      rw [abs_abs]
    have habove : 2 ^ 52 * 2 ^ lastPlace q ≤ |q| := by
      have hwide := le_div_lastPlace (abs_pos.2 hq) (hplace.trans_ne hnormal)
      rwa [hplace, le_div_iff₀ (two_zpow_pos _)] at hwide
    -- The power of two in between is whole.
    have hpower := abs_sub_roundedMagnitude_le q (2 ^ 52 : Nat)
    rw [Int.cast_natCast, Nat.cast_pow, Nat.cast_ofNat, abs_of_nonneg (sub_nonneg.2 habove)]
      at hpower
    calc |(|q| - roundedMagnitude q)| ≤ |q| - 2 ^ 52 * 2 ^ lastPlace q := hpower
      _ ≤ |q| - |r| := by linarith only [hbelow]
      _ ≤ |(|q| - |r|)| := le_abs_self _

/-- **No finite double is nearer to a number than the one it is rounded to.** -/
theorem abs_sub_nearest_le (h : nearest q = .finite p) (hx : number x = .finite r) :
    |q - p| ≤ |q - r| := by
  by_cases hq : q = 0
  · rw [hq, nearest_zero] at h
    obtain rfl := ExtendedRat.finite.inj h
    rw [hq, sub_zero, abs_zero]
    exact abs_nonneg _
  · rw [abs_sub_of_nearest h]
    exact (abs_sub_roundedMagnitude_le_of_number hq hx).trans (abs_abs_sub_abs_le_abs_sub q r)

end PolyRow.Double
