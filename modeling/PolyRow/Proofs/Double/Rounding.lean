import Mathlib
import PolyRow.Proofs.Double.Nearest
import PolyRow.Proofs.Double.Packing

/-!
# Rounding to doubles

The arithmetic of doubles rounds by mantissas and exponents: it shifts a mantissa
to the right, keeps the bit that falls out last and whether anything fell out
before it, and rounds by these two bits. A mantissa that rounds up to the next
power of two is shifted once more. What comes out is the nearest double.

## Main results

* `Brackets.roundedMantissa_eq`: the two bits decide the rounding.
* `value_roundWithAccuracy_of_brackets`: a mantissa, an exponent and what is left
  beyond them are rounded to the nearest double.
* `value_round`, `value_normalize`: so are a mantissa and an exponent alone.
* `nearest_of_value`: a double is nearest to itself.
-/

namespace PolyRow.Double

open Float.Model (Format UnpackedFloat totalExponent)
open Float.Model.UnpackedFloat

/-! ## The two extra bits -/

/-- Half of the last place, if it is reached. -/
private def half (b : Bool) : Rat := if b then 1 / 2 else 0

/-- A mantissa with its two extra bits stands for a number: the first bit says
whether half of the last place is reached, the second whether anything is left
beyond what is written. -/
structure Brackets (em : ExtendedMantissa) (q : Rat) : Prop where
  low : em.mantissa + half em.roundBit ≤ q
  high : q < em.mantissa + half em.roundBit + 1 / 2
  sticky : em.stickyBit = true ↔ q ≠ em.mantissa + half em.roundBit

private theorem floor_eq {q : Rat} {n : Nat} (hlow : n ≤ q) (hhigh : q < n + 1) : ⌊q⌋₊ = n :=
  (Nat.floor_eq_iff (le_trans n.cast_nonneg hlow)).2 ⟨hlow, hhigh⟩

theorem brackets_exact (n : Nat) :
    Brackets (ExtendedMantissa.ofMantissaAndAccuracy n .exact) n := by
  constructor <;> simp [ExtendedMantissa.ofMantissaAndAccuracy, half]

/-- A whole quotient and its remainder stand for the quotient. -/
theorem brackets_quotient (n : Nat) {d : Nat} (hd : 0 < d) :
    Brackets (ExtendedMantissa.ofMantissaAndAccuracy (n / d) (accuracyOfFraction (n % d) d))
      ((n : Rat) / d) := by
  have hdpos : (0 : Rat) < d := by exact_mod_cast hd
  have hrest : ((n % d : Nat) : Rat) / d < 1 := by
    rw [div_lt_one hdpos]
    exact_mod_cast Nat.mod_lt n hd
  have hhalf : ((n % d : Nat) : Rat) / d - 1 / 2 = (((2 * (n % d) : Nat) : Rat) - d) / (2 * d) := by
    push_cast
    field_simp
  have hsplit : (n : Rat) / d = (n / d : Nat) + ((n % d : Nat) : Rat) / d := by
    have hdivision : ((d * (n / d) + n % d : Nat) : Rat) = n := by
      exact_mod_cast Nat.div_add_mod n d
    rw [← hdivision]
    push_cast
    field_simp
  rw [hsplit]
  unfold accuracyOfFraction
  split_ifs with hzero
  · rw [hzero, Nat.cast_zero, zero_div, add_zero]
    exact brackets_exact _
  · have hpos : 0 < ((n % d : Nat) : Rat) / d :=
      div_pos (by exact_mod_cast Nat.pos_of_ne_zero hzero) hdpos
    have hscale : (0 : Rat) < 2 * d := by positivity
    generalize ((n % d : Nat) : Rat) / d = x at hrest hhalf hpos ⊢
    -- Whether half of the last place is reached is told by twice the remainder.
    rcases lt_trichotomy (2 * (n % d)) d with h | h | h
    · have hbelow : x - 1 / 2 < 0 := by
        rw [hhalf]
        exact div_neg_of_neg_of_pos (sub_neg.2 (by exact_mod_cast h)) hscale
      rw [compare_lt_iff_lt.2 h]
      refine ⟨?_, ?_, ?_⟩ <;> simp only [ExtendedMantissa.ofMantissaAndAccuracy, half]
      · simp only [Bool.false_eq_true, if_false]
        linarith
      · simp only [Bool.false_eq_true, if_false]
        linarith
      · simpa using hpos.ne'
    · have htie : x = 1 / 2 := by
        rw [h, sub_self, zero_div] at hhalf
        linarith
      rw [compare_eq_iff_eq.2 h, htie]
      refine ⟨?_, ?_, ?_⟩ <;> simp [ExtendedMantissa.ofMantissaAndAccuracy, half]
    · have habove : 0 < x - 1 / 2 := by
        rw [hhalf]
        exact div_pos (sub_pos.2 (by exact_mod_cast h)) hscale
      rw [compare_gt_iff_gt.2 h]
      refine ⟨?_, ?_, ?_⟩ <;> simp only [ExtendedMantissa.ofMantissaAndAccuracy, half, if_true]
      · linarith
      · linarith
      · have hbeyond : x ≠ 1 / 2 := by
          intro h
          linarith
        simpa using hbeyond

/-- **The two bits decide the rounding.** -/
theorem Brackets.roundedMantissa_eq {em : ExtendedMantissa} {q : Rat} (h : Brackets em q) :
    em.roundedMantissa = roundEven q := by
  obtain ⟨m, roundBit, stickyBit⟩ := em
  obtain ⟨hlow, hhigh, hsticky⟩ := h
  cases roundBit with
  | false =>
      simp only [half, Bool.false_eq_true, if_false, add_zero] at hlow hhigh hsticky
      have hfloor : ⌊q⌋₊ = m := floor_eq hlow (by linarith)
      have hround : roundEven q = m := by
        unfold roundEven
        rw [hfloor, if_pos (by linarith)]
      rw [hround]
      cases stickyBit <;> rfl
  | true =>
      simp only [half, if_true] at hlow hhigh hsticky
      have hfloor : ⌊q⌋₊ = m := floor_eq (by linarith) (by linarith)
      unfold roundEven
      rw [hfloor, if_neg (by linarith)]
      cases stickyBit with
      | false =>
          have htie : q = m + 1 / 2 := by simpa using hsticky
          rw [if_pos (by linarith)]
          rfl
      | true =>
          have hrest : q ≠ m + 1 / 2 := hsticky.1 rfl
          rw [if_neg fun htie => hrest (by linarith)]
          rfl

/-- The bit that falls out becomes the first of the two, and the second collects
what was kept by both. -/
private theorem Brackets.shiftRightOne {em : ExtendedMantissa} {q : Rat} (h : Brackets em q) :
    Brackets em.shiftRightOne (q / 2) := by
  obtain ⟨m, roundBit, stickyBit⟩ := em
  obtain ⟨hlow, hhigh, hsticky⟩ := h
  have hkept : ((m / 2 : Nat) : Rat) + half (m % 2 != 0) = m / 2 := by
    have hsplit : ((m / 2 : Nat) : Rat) * 2 + ((m % 2 : Nat) : Rat) = m := by
      exact_mod_cast Nat.div_add_mod' m 2
    have hbit : m % 2 = 0 ∨ m % 2 = 1 := by omega
    rcases hbit with hbit | hbit <;> rw [hbit] at hsplit <;> simp [hbit, half] at hsplit ⊢ <;>
      linarith
  have hhalf : 0 ≤ half roundBit ∧ half roundBit ≤ 1 / 2 := by
    cases roundBit <;> norm_num [half]
  simp only at hlow hhigh hsticky
  constructor
  · show ((m / 2 : Nat) : Rat) + half (m % 2 != 0) ≤ q / 2
    rw [hkept]
    linarith
  · show q / 2 < ((m / 2 : Nat) : Rat) + half (m % 2 != 0) + 1 / 2
    rw [hkept]
    linarith
  · show (roundBit || stickyBit) = true ↔ q / 2 ≠ ((m / 2 : Nat) : Rat) + half (m % 2 != 0)
    rw [hkept, Bool.or_eq_true, hsticky]
    cases roundBit with
    | false =>
        have hcancel : q / 2 = m / 2 ↔ q = m := by
          constructor <;> intro h <;> linarith
        simp [half, hcancel]
    | true =>
        have hbeyond : q / 2 ≠ m / 2 := by
          intro h
          norm_num [half] at hlow
          linarith
        simp [hbeyond]

theorem Brackets.shiftRight {em : ExtendedMantissa} {q : Rat} (h : Brackets em q) (k : Nat) :
    Brackets (em >>> k) (q / 2 ^ k) := by
  show Brackets (Nat.repeat ExtendedMantissa.shiftRightOne k em) (q / 2 ^ k)
  induction k with
  | zero => simpa [Nat.repeat] using h
  | succ k ih =>
      have hstep := ih.shiftRightOne
      rw [div_div, ← pow_succ] at hstep
      exact hstep

/-! ## The last place -/

/-- The leading binary place of a number whose whole units of `2 ^ e` are known. -/
theorem log_of_units {n : Nat} (hn : 0 < n) {e : Int} {q : Rat} (hlow : n * 2 ^ e ≤ q)
    (hhigh : q < (n + 1) * 2 ^ e) : Int.log 2 q = n.log2 + e := by
  have hpos : 0 < q :=
    lt_of_lt_of_le (mul_pos (by exact_mod_cast hn) (two_zpow_pos e)) hlow
  have hpowLow : ((2 : Nat) : Rat) ^ ((n.log2 : Int) + e) ≤ q := by
    have hn : (2 : Rat) ^ n.log2 ≤ n := by exact_mod_cast Nat.log2_self_le hn.ne'
    rw [Nat.cast_ofNat, ← two_pow_mul_zpow]
    exact (mul_le_mul_of_nonneg_right hn (two_zpow_pos e).le).trans hlow
  have hpowHigh : q < ((2 : Nat) : Rat) ^ ((n.log2 : Int) + e + 1) := by
    have hn : (n : Rat) + 1 ≤ 2 ^ (n.log2 + 1) := by exact_mod_cast Nat.lt_log2_self
    have hexponent : (n.log2 : Int) + e + 1 = ((n.log2 + 1 : Nat) : Int) + e := by
      push_cast
      ring
    rw [Nat.cast_ofNat, hexponent, ← two_pow_mul_zpow]
    exact hhigh.trans_le (mul_le_mul_of_nonneg_right hn (two_zpow_pos e).le)
  have hle := (Int.zpow_le_iff_le_log one_lt_two hpos).1 hpowLow
  have hlt := (Int.lt_zpow_iff_log_lt one_lt_two hpos).1 hpowHigh
  omega

/-- A mantissa and an exponent: the leading binary place of what they stand for. -/
theorem log_mul_zpow {n : Nat} (hn : 0 < n) (e : Int) :
    Int.log 2 ((n : Rat) * 2 ^ e) = n.log2 + e :=
  log_of_units hn le_rfl (mul_lt_mul_of_pos_right (lt_add_one _) (two_zpow_pos e))

theorem lastPlace_mul_zpow {n : Nat} (hn : 0 < n) (e : Int) :
    lastPlace ((n : Rat) * 2 ^ e) = max (n.log2 + e - 52) (-1074) := by
  have hpos : (0 : Rat) < n * 2 ^ e := mul_pos (by exact_mod_cast hn) (two_zpow_pos e)
  unfold lastPlace
  rw [abs_of_pos hpos, log_mul_zpow hn]

/-- The exponent that rounding shifts to is the last place kept. -/
theorem targetExponent_eq {n : Nat} (hn : 0 < n) (e : Int) :
    Format.binary64.targetExponent (totalExponent n e) = lastPlace ((n : Rat) * 2 ^ e) := by
  have hmin : Format.binary64.minExponent = -1074 := rfl
  have hbits : Format.binary64.mantissaBits = 53 := rfl
  unfold Format.targetExponent totalExponent
  rw [lastPlace_mul_zpow hn, hmin, hbits]
  omega

/-! ## Rounding of a mantissa and an exponent -/

/-- One with the sign. -/
def unit : Sign → Rat
  | .positive => 1
  | .negative => -1

theorem cast_apply (s : Sign) (n : Nat) : ((s.apply n : Int) : Rat) = unit s * n := by
  cases s <;> simp [Sign.apply, unit]

/-- What the parts stand for, the sign of a zero aside. -/
def value : UnpackedFloat → ExtendedRat
  | .notANumber => .undefined
  | .infinity .positive => .infinity
  | .infinity .negative => .negInfinity
  | .zero _ => .finite 0
  | .finite s m e _ => .finite (unit s * (m * 2 ^ e))

/-- The first shift and the rounding. The mantissa and its accuracy place the number
in units of the exponent, which is at most that of the last place. -/
private theorem shiftToTargetExponent_eq {n : Nat} {e : Int} {accuracy : Accuracy} {q : Rat}
    (hbrackets : Brackets (.ofMantissaAndAccuracy n accuracy) (q / 2 ^ e))
    (hplace : Format.binary64.targetExponent (totalExponent n e) = lastPlace q)
    (he : e ≤ lastPlace q) :
    (shiftToTargetExponent .binary64 n e accuracy).1.roundedMantissa =
        roundEven (q / 2 ^ lastPlace q) ∧
      (shiftToTargetExponent .binary64 n e accuracy).2 = lastPlace q := by
  unfold shiftToTargetExponent shiftToExponent
  rw [hplace]
  generalize lastPlace q = t at he ⊢
  have hshift : ((t - e).toNat : Int) = t - e := Int.toNat_of_nonneg (by omega)
  constructor
  · have hshifted := hbrackets.shiftRight (t - e).toNat
    have hscale : q / 2 ^ e / 2 ^ (t - e).toNat = q / 2 ^ t := by
      rw [← zpow_natCast, hshift, zpow_sub₀ two_ne_zero]
      field_simp
    rw [hscale] at hshifted
    exact hshifted.roundedMantissa_eq
  · show e + ((t - e).toNat : Int) = t
    omega

/-- The second shift changes nothing of the number, and what comes out is
canonical: a mantissa that rounded up to `2 ^ 53` loses a zero at its end. -/
private theorem shiftToTargetExponent_rounded {r : Nat} {t : Int} (hr : 0 < r)
    (hhigh : r ≤ 2 ^ 53) (ht : -1074 ≤ t) (hnormal : 2 ^ 52 ≤ r ∨ t = -1074) :
    ∃ m e, 0 < m ∧ (shiftToTargetExponent .binary64 r t .exact).1.mantissa = m ∧
      (shiftToTargetExponent .binary64 r t .exact).2 = e ∧
      (m : Rat) * 2 ^ e = r * 2 ^ t ∧ m < 2 ^ 53 ∧ -1074 ≤ e ∧ (2 ^ 52 ≤ m ∨ e = -1074) := by
  have hmin : Format.binary64.minExponent = -1074 := rfl
  have hbits : Format.binary64.mantissaBits = 53 := rfl
  unfold shiftToTargetExponent shiftToExponent Format.targetExponent totalExponent
  rw [hmin, hbits]
  rcases Nat.lt_or_eq_of_le hhigh with hlt | heq
  · have hlog : r.log2 < 53 := (Nat.log2_lt hr.ne').2 hlt
    have hshift : (max ((r.log2 : Int) + 1 + t - (53 : Nat)) (-1074) - t).toNat = 0 := by omega
    simp only [hshift]
    exact ⟨r, t + (0 : Nat), hr, rfl, rfl, by simp, hlt, by omega, by omega⟩
  · subst heq
    have hlog : (2 ^ 53 : Nat).log2 = 53 := Nat.log2_two_pow
    have hshift :
        (max (((2 ^ 53 : Nat).log2 : Int) + 1 + t - (53 : Nat)) (-1074) - t).toNat = 1 := by
      rw [hlog]
      omega
    simp only [hshift]
    refine ⟨2 ^ 52, t + (1 : Nat), by norm_num, rfl, rfl, ?_, by norm_num, by omega, .inl le_rfl⟩
    push_cast
    rw [zpow_add₀ two_ne_zero]
    ring

/-- Nothing is left of nothing. -/
private theorem shiftToTargetExponent_zero (t : Int) :
    (shiftToTargetExponent .binary64 0 t .exact).1.mantissa = 0 := by
  simp only [shiftToTargetExponent, shiftToExponent]
  generalize (Format.binary64.targetExponent (totalExponent 0 t) - t).toNat = k
  have hlow := ((brackets_exact 0).shiftRight k).low
  have hhalf : 0 ≤ half (ExtendedMantissa.ofMantissaAndAccuracy 0 .exact >>> k).roundBit := by
    unfold half
    split <;> norm_num
  have hmantissa :
      ((ExtendedMantissa.ofMantissaAndAccuracy 0 .exact >>> k).mantissa : Rat) ≤ 0 := by
    simp only [Nat.cast_zero, zero_div] at hlow
    linarith
  have hnat : (ExtendedMantissa.ofMantissaAndAccuracy 0 .exact >>> k).mantissa ≤ 0 := by
    exact_mod_cast hmantissa
  exact Nat.le_zero.1 hnat

/-- **Rounding a mantissa and an exponent**, the exponent being at most that of
the last place: canonical parts of the rounded magnitude, if it is not zero. -/
private theorem roundWithAccuracy_cases (s : Sign) {n : Nat} {e : Int} {accuracy : Accuracy}
    {q : Rat} (hpos : 0 < q)
    (hbrackets : Brackets (.ofMantissaAndAccuracy n accuracy) (q / 2 ^ e))
    (hplace : Format.binary64.targetExponent (totalExponent n e) = lastPlace q)
    (he : e ≤ lastPlace q) :
    (roundWithAccuracy .binary64 s n e accuracy = .zero s ∧ roundedMagnitude q = 0) ∨
      ∃ m e' hm, roundWithAccuracy .binary64 s n e accuracy = .finite s m e' hm ∧
        Canonical (.finite s m e' hm) ∧ (m : Rat) * 2 ^ e' = roundedMagnitude q := by
  obtain ⟨hmantissa, hexponent⟩ := shiftToTargetExponent_eq hbrackets hplace he
  have hmagnitude : roundedMagnitude q =
      roundEven (q / 2 ^ lastPlace q) * 2 ^ lastPlace q := by
    unfold roundedMagnitude
    rw [abs_of_pos hpos]
  have hround : roundWithAccuracy .binary64 s n e accuracy =
      let shifted := shiftToTargetExponent .binary64
        (roundEven (q / 2 ^ lastPlace q)) (lastPlace q) .exact
      if h : shifted.1.mantissa = 0 then .zero s
      else .finite s shifted.1.mantissa shifted.2 (Nat.pos_of_ne_zero h) := by
    rw [← hmantissa, ← hexponent]
    rfl
  rw [hround, hmagnitude]
  have hhigh := roundEven_le (n := 2 ^ 53) (div_pos hpos (two_zpow_pos _)).le
    (by exact_mod_cast div_lastPlace_lt hpos)
  have hleast : -1074 ≤ lastPlace q := le_max_right _ _
  have hnormal : 2 ^ 52 ≤ roundEven (q / 2 ^ lastPlace q) ∨ lastPlace q = -1074 := by
    by_cases h : lastPlace q = -1074
    · exact .inr h
    · exact .inl (le_roundEven (by exact_mod_cast le_div_lastPlace hpos h))
  generalize roundEven (q / 2 ^ lastPlace q) = r at hhigh hnormal ⊢
  generalize lastPlace q = t at hleast hnormal ⊢
  rcases Nat.eq_zero_or_pos r with hzero | hr
  · left
    subst hzero
    exact ⟨dif_pos (shiftToTargetExponent_zero t), by simp⟩
  · obtain ⟨m, e', hm, hm', he', hvalue, hlt, hlow, hwide⟩ :=
      shiftToTargetExponent_rounded hr hhigh hleast hnormal
    right
    refine ⟨m, e', hm, ?_, ⟨hlt, hlow, hwide⟩, hvalue⟩
    subst hm' he'
    exact dif_neg hm.ne'

/-! ## Back to bits -/

/-- A canonical magnitude is in range when its exponent is one of the format. -/
private theorem mul_zpow_lt_iff {s : Sign} {m : Nat} {e : Int} {hm : 0 < m}
    (h : Canonical (.finite s m e hm)) : (m : Rat) * 2 ^ e < 2 ^ 1024 ↔ e ≤ 971 := by
  obtain ⟨hbits, hlow, hnormal⟩ := h
  constructor
  · intro hsmall
    by_contra hgreat
    have hwide : 2 ^ 52 ≤ m := hnormal.resolve_right (by omega)
    have hlarge : (2 : Rat) ^ 1024 ≤ m * 2 ^ e := by
      calc (2 : Rat) ^ 1024 = 2 ^ 52 * 2 ^ (972 : Int) := by
            rw [two_pow_mul_zpow, ← zpow_natCast]; rfl
        _ ≤ 2 ^ 52 * 2 ^ e :=
            mul_le_mul_of_nonneg_left (zpow_le_zpow_right₀ one_le_two (by omega)) (by norm_num)
        _ ≤ m * 2 ^ e :=
            mul_le_mul_of_nonneg_right (by exact_mod_cast hwide) (two_zpow_pos e).le
    exact not_le_of_gt hsmall hlarge
  · intro he
    calc (m : Rat) * 2 ^ e < 2 ^ 53 * 2 ^ e :=
          mul_lt_mul_of_pos_right (by exact_mod_cast hbits) (two_zpow_pos e)
      _ ≤ 2 ^ 53 * 2 ^ (971 : Int) :=
          mul_le_mul_of_nonneg_left (zpow_le_zpow_right₀ one_le_two he) (by norm_num)
      _ = 2 ^ 1024 := by rw [two_pow_mul_zpow, ← zpow_natCast]; rfl

/-- Packing keeps canonical parts that are in range and makes an infinity of
others. -/
private theorem value_repack {s : Sign} {m : Nat} {e : Int} {hm : 0 < m}
    (h : Canonical (.finite s m e hm)) :
    value (repack (.finite s m e hm)) =
      if (m : Rat) * 2 ^ e < 2 ^ 1024 then .finite (unit s * (m * 2 ^ e))
      else value (.infinity s) := by
  by_cases he : e ≤ 971
  · rw [if_pos ((mul_zpow_lt_iff h).2 he), repack_of_fits h he]
    rfl
  · rw [if_neg (fun hlt => he ((mul_zpow_lt_iff h).1 hlt)), repack_of_gt (by omega)]

/-- **Rounding computes the nearest double**, the exponent being at most that of
the last place. -/
theorem value_roundWithAccuracy_of_brackets (s : Sign) {n : Nat} {e : Int}
    {accuracy : Accuracy} {q : Rat} (hpos : 0 < q)
    (hbrackets : Brackets (.ofMantissaAndAccuracy n accuracy) (q / 2 ^ e))
    (hplace : Format.binary64.targetExponent (totalExponent n e) = lastPlace q)
    (he : e ≤ lastPlace q) :
    value (repack (roundWithAccuracy .binary64 s n e accuracy)) = nearest (unit s * q) := by
  have hnearest : nearest (unit s * q) =
      if roundedMagnitude q < 2 ^ 1024 then .finite (unit s * roundedMagnitude q)
      else value (.infinity s) := by
    cases s with
    | positive =>
        simp only [unit, one_mul]
        exact nearest_of_pos hpos
    | negative =>
        simp only [unit, neg_mul, one_mul]
        rw [nearest_of_neg (neg_neg_of_pos hpos), roundedMagnitude_neg]
        rfl
  rw [hnearest]
  rcases roundWithAccuracy_cases s hpos hbrackets hplace he with
    ⟨hzero, hmagnitude⟩ | ⟨m, e', hm, hfinite, hcanonical, hmagnitude⟩
  · rw [hzero, repack_zero, hmagnitude, if_pos (by positivity), mul_zero]
    rfl
  · rw [hfinite, value_repack hcanonical, hmagnitude]

/-- The same for a mantissa that is exact. -/
theorem value_roundWithAccuracy (s : Sign) {n : Nat} (hn : 0 < n) {e : Int}
    (he : e ≤ lastPlace ((n : Rat) * 2 ^ e)) :
    value (repack (roundWithAccuracy .binary64 s n e .exact)) =
      nearest (unit s * (n * 2 ^ e)) := by
  have hbrackets := brackets_exact n
  rw [← mul_div_cancel_right₀ (n : Rat) (two_zpow_pos e).ne'] at hbrackets
  exact value_roundWithAccuracy_of_brackets s
    (mul_pos (by exact_mod_cast hn) (two_zpow_pos e)) hbrackets (targetExponent_eq hn e) he

/-- The same for any exponent: one that is too large is made smaller first, with
zeros put behind the mantissa. -/
theorem value_round (s : Sign) {n : Nat} (hn : 0 < n) (e : Int) :
    value (repack (UnpackedFloat.round .binary64 s n e)) =
      nearest (unit s * (n * 2 ^ e)) := by
  have hround : UnpackedFloat.round .binary64 s n e =
      roundWithAccuracy .binary64 s (n <<< (e - lastPlace ((n : Rat) * 2 ^ e)).toNat)
        (e - ((e - lastPlace ((n : Rat) * 2 ^ e)).toNat : Int)) .exact := by
    rw [← targetExponent_eq hn]
    rfl
  rw [hround]
  generalize hk : (e - lastPlace ((n : Rat) * 2 ^ e)).toNat = k
  have hscale : ((n <<< k : Nat) : Rat) * 2 ^ (e - (k : Int)) = n * 2 ^ e := by
    rw [Nat.shiftLeft_eq, zpow_sub₀ two_ne_zero, zpow_natCast]
    push_cast
    field_simp
  have hpos : 0 < n <<< k := by
    rw [Nat.shiftLeft_eq]
    exact Nat.mul_pos hn (Nat.two_pow_pos k)
  rw [value_roundWithAccuracy s hpos (by rw [hscale]; omega), hscale]

/-- A whole number times a power of two, as sums and differences leave it. -/
theorem value_normalize (k e : Int) (s : Sign) :
    value (repack (UnpackedFloat.normalize .binary64 k e s)) =
      nearest ((k : Rat) * 2 ^ e) := by
  unfold UnpackedFloat.normalize
  rcases lt_trichotomy k 0 with hk | hk | hk
  · rw [Int.compare_eq_lt.2 hk]
    show value (repack (UnpackedFloat.round .binary64 .negative (-k).toNat e)) = _
    rw [value_round .negative (by omega)]
    have hmagnitude : ((-k).toNat : Int) = -k := Int.toNat_of_nonneg (by omega)
    have hcast : (((-k).toNat : Nat) : Rat) = -k := by exact_mod_cast hmagnitude
    rw [hcast]
    congr 1
    show -1 * (-(k : Rat) * 2 ^ e) = k * 2 ^ e
    ring
  · subst hk
    show value (repack (.zero s)) = _
    rw [repack_zero, Int.cast_zero, zero_mul, nearest_zero]
    rfl
  · rw [Int.compare_eq_gt.2 hk]
    show value (repack (UnpackedFloat.round .binary64 .positive k.toNat e)) = _
    rw [value_round .positive (by omega)]
    have hmagnitude : (k.toNat : Int) = k := Int.toNat_of_nonneg hk.le
    have hcast : ((k.toNat : Nat) : Rat) = k := by exact_mod_cast hmagnitude
    rw [hcast]
    exact congrArg nearest (one_mul _)

/-! ## Numbers that are doubles -/

/-- The last place kept of canonical parts is the one they have. -/
private theorem lastPlace_of_canonical {s : Sign} {m : Nat} {e : Int} {hm : 0 < m}
    (h : Canonical (.finite s m e hm)) : lastPlace ((m : Rat) * 2 ^ e) = e := by
  obtain ⟨hbits, hlow, hnormal⟩ := h
  have hlog : m.log2 < 53 := (Nat.log2_lt hm.ne').2 hbits
  have hwide : 2 ^ 52 ≤ m → 52 ≤ m.log2 := (Nat.le_log2 hm.ne').2
  rw [lastPlace_mul_zpow hm]
  omega

/-- **A double is nearest to itself.** -/
theorem nearest_of_value {u : UnpackedFloat} (hu : Canonical u) (hfits : Fits u) {q : Rat}
    (hq : value u = .finite q) : nearest q = .finite q := by
  cases u with
  | notANumber => exact absurd hq ExtendedRat.noConfusion
  | infinity s => cases s <;> exact absurd hq ExtendedRat.noConfusion
  | zero s =>
      have hzero : (0 : Rat) = q := ExtendedRat.finite.inj hq
      rw [← hzero, nearest_zero]
  | finite s m e hm =>
      have hpos : (0 : Rat) < m * 2 ^ e := mul_pos (by exact_mod_cast hm) (two_zpow_pos e)
      have hmagnitude : roundedMagnitude ((m : Rat) * 2 ^ e) = m * 2 ^ e := by
        unfold roundedMagnitude
        rw [lastPlace_of_canonical hu, abs_of_pos hpos,
          mul_div_cancel_right₀ _ (two_zpow_pos e).ne', roundEven_natCast]
      have hrange : (m : Rat) * 2 ^ e < 2 ^ 1024 := (mul_zpow_lt_iff hu).2 hfits
      have hmagnitudeNearest : nearest ((m : Rat) * 2 ^ e) = .finite (m * 2 ^ e) := by
        rw [nearest_of_pos hpos, hmagnitude, if_pos hrange]
      have hsigned : unit s * ((m : Rat) * 2 ^ e) = q := ExtendedRat.finite.inj hq
      rw [← hsigned]
      cases s with
      | positive => simpa [unit] using hmagnitudeNearest
      | negative =>
          have hneg : nearest (-((m : Rat) * 2 ^ e)) = .finite (-(m * 2 ^ e)) := by
            rw [nearest_neg, hmagnitudeNearest]
            rfl
          simpa [unit] using hneg

end PolyRow.Double
