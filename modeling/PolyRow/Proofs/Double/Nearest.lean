import Mathlib
import PolyRow.Proofs.Exact.ExtendedRat

/-!
# The nearest double

`nearest` is the rounding that the standard describes: the nearest multiple of
the last place that a double keeps of a number of that size, a tie going to the
even multiple, and an infinity where the multiple is out of range. It is a
function of the exact number alone. How mantissas are shifted to compute it is
said in `PolyRow.Proofs.Double.Rounding`.

## Main results

* `nearestEven_roundEven`: rounding to whole numbers, said of every other candidate.
* `nearest_neg`: a number and its negation are rounded alike.
* `nearest_eq_finite_iff`: the numbers that are rounded to finite doubles.
* `nearest_ne_zero`: what reaches the least place of all is not rounded to zero.
-/

namespace PolyRow.Double

/-! ## Whole numbers -/

/-- The whole number nearest to a number that is not negative; of two that are
equally near, the even one. -/
def roundEven (q : Rat) : Nat :=
  if q - ⌊q⌋₊ < 1 / 2 then ⌊q⌋₊
  else if q - ⌊q⌋₊ = 1 / 2 then ⌊q⌋₊ + ⌊q⌋₊ % 2
  else ⌊q⌋₊ + 1

@[simp] theorem roundEven_natCast (n : Nat) : roundEven n = n := by
  simp [roundEven]

theorem le_roundEven {q : Rat} {n : Nat} (h : n ≤ q) : n ≤ roundEven q := by
  have hfloor : n ≤ ⌊q⌋₊ := Nat.le_floor h
  unfold roundEven
  split_ifs <;> omega

theorem roundEven_le {q : Rat} {n : Nat} (hq : 0 ≤ q) (h : q < n) : roundEven q ≤ n := by
  have hfloor : ⌊q⌋₊ < n := (Nat.floor_lt hq).2 h
  unfold roundEven
  split_ifs <;> omega

/-- Below an even number stays what is nearer to the odd number before it; the tie
goes up. -/
theorem roundEven_lt_iff {q : Rat} {n : Nat} (hq : 0 ≤ q) (hn : n % 2 = 0) :
    roundEven q < n ↔ q < n - 1 / 2 := by
  have hlow : (⌊q⌋₊ : Rat) ≤ q := Nat.floor_le hq
  have hhigh : q < ⌊q⌋₊ + 1 := Nat.lt_floor_add_one q
  unfold roundEven
  generalize ⌊q⌋₊ = k at hlow hhigh ⊢
  split_ifs with hbelow htie
  · constructor
    · intro h
      have hle : ((k + 1 : Nat) : Rat) ≤ n := by exact_mod_cast h
      push_cast at hle
      linarith
    · intro h
      have hlt : (k : Rat) < n := by linarith
      exact_mod_cast hlt
  · constructor
    · intro h
      have hlt : ((k + 1 : Nat) : Rat) < n := by
        have hnat : k + 1 < n := by omega
        exact_mod_cast hnat
      push_cast at hlt
      linarith
    · intro h
      have hlt : ((k + 1 : Nat) : Rat) < n := by
        push_cast
        linarith
      have hnat : k + 1 < n := by exact_mod_cast hlt
      omega
  · have habove : k + 1 / 2 < q := lt_of_le_of_ne (by linarith) fun h => htie (by linarith)
    constructor
    · intro h
      have hle : ((k + 1 + 1 : Nat) : Rat) ≤ n := by exact_mod_cast h
      push_cast at hle
      linarith
    · intro h
      have hlt : ((k + 1 : Nat) : Rat) < n := by
        push_cast
        linarith
      exact_mod_cast hlt

/-- What it means to be the nearest whole number, said of every other candidate: none is
nearer, and if one is as near then the number is the even one. -/
structure NearestEven (x : Rat) (n : Int) : Prop where
  nearest (k : Int) : |x - n| ≤ |x - k|
  even (k : Int) : k ≠ n → |x - k| = |x - n| → Even n

/-- It is enough to be within one half, and at one half to be even. -/
theorem nearestEven_iff {x : Rat} {n : Int} :
    NearestEven x n ↔ |x - n| ≤ 1 / 2 ∧ (|x - n| = 1 / 2 → Even n) := by
  constructor
  · rintro ⟨hnearest, heven⟩
    have hup := hnearest (n + 1)
    have hdown := hnearest (n - 1)
    push_cast at hup hdown
    rcases le_total 0 (x - n) with hside | hside
    · rw [abs_of_nonneg hside] at hup ⊢
      have hhalf : x - n ≤ 1 / 2 := by
        rcases abs_cases (x - (n + 1)) with ⟨h, _⟩ | ⟨h, _⟩ <;> linarith
      refine ⟨hhalf, fun htie => heven (n + 1) (by omega) ?_⟩
      push_cast
      rw [abs_of_nonneg hside, abs_of_nonpos (by linarith)]
      linarith
    · rw [abs_of_nonpos hside] at hdown ⊢
      have hhalf : -(x - n) ≤ 1 / 2 := by
        rcases abs_cases (x - (n - 1)) with ⟨h, _⟩ | ⟨h, _⟩ <;> linarith
      refine ⟨hhalf, fun htie => heven (n - 1) (by omega) ?_⟩
      push_cast
      rw [abs_of_nonpos hside, abs_of_nonneg (by linarith)]
      linarith
  · rintro ⟨hhalf, heven⟩
    -- Any other whole number is at least one away from this one.
    have hfar {k : Int} (hk : k ≠ n) : 1 ≤ |x - k| + |x - n| := by
      have hone : (1 : Rat) ≤ |(k : Rat) - n| := by exact_mod_cast Int.one_le_abs (sub_ne_zero.2 hk)
      have htriangle : |(k : Rat) - n| ≤ |x - k| + |x - n| := by
        rw [abs_sub_comm x]
        simpa using abs_add_le ((k : Rat) - x) (x - n)
      exact hone.trans htriangle
    constructor
    · intro k
      by_cases hk : k = n
      · rw [hk]
      · linarith [hfar hk]
    · intro k hk heq
      exact heven (by linarith [hfar hk])

theorem nearestEven_roundEven {q : Rat} (hq : 0 ≤ q) : NearestEven q (roundEven q) := by
  have hlow : (⌊q⌋₊ : Rat) ≤ q := Nat.floor_le hq
  have hhigh : q < ⌊q⌋₊ + 1 := Nat.lt_floor_add_one q
  rw [nearestEven_iff, Int.cast_natCast]
  unfold roundEven
  generalize ⌊q⌋₊ = k at hlow hhigh ⊢
  split_ifs with hbelow htie
  · rw [abs_of_nonneg (by linarith)]
    exact ⟨hbelow.le, fun h => absurd h hbelow.ne⟩
  · rcases Nat.even_or_odd k with heven | hodd
    · rw [Nat.even_iff.1 heven, add_zero, htie, abs_of_pos one_half_pos]
      exact ⟨le_rfl, fun _ => by exact_mod_cast heven⟩
    · rw [Nat.odd_iff.1 hodd]
      push_cast
      rw [abs_of_nonpos (by linarith)]
      exact ⟨by linarith, fun _ => by exact_mod_cast hodd.add_one⟩
  · have habove : 1 / 2 < q - k := lt_of_le_of_ne (not_lt.1 hbelow) (Ne.symm htie)
    push_cast
    rw [abs_of_neg (by linarith)]
    exact ⟨by linarith, fun h => absurd h (by linarith)⟩

theorem NearestEven.neg {x : Rat} {n : Int} (h : NearestEven x n) : NearestEven (-x) (-n) := by
  rw [nearestEven_iff] at h ⊢
  have hdistance : |(-x) - ((-n : Int) : Rat)| = |x - n| := by
    push_cast
    rw [← neg_sub', abs_neg]
  rw [hdistance]
  exact ⟨h.1, fun htie => (h.2 htie).neg⟩

/-- **Rounding keeps the order.** Neighbours that share a number half way between them are
not both even. -/
theorem NearestEven.le {x y : Rat} {m n : Int} (hm : NearestEven x m) (hn : NearestEven y n)
    (h : x ≤ y) : m ≤ n := by
  rw [nearestEven_iff] at hm hn
  obtain ⟨hm, hmEven⟩ := hm
  obtain ⟨hn, hnEven⟩ := hn
  by_contra hlt
  have hstep : (n : Rat) + 1 ≤ m := by exact_mod_cast not_le.1 hlt
  have hmLow := (abs_le.1 hm).1
  have hnHigh := (abs_le.1 hn).2
  have hmTie : x - m = -(1 / 2) := by linarith
  have hnTie : y - n = 1 / 2 := by linarith
  have hnext : m = n + 1 := by
    have hcast : (m : Rat) = n + 1 := by linarith
    exact_mod_cast hcast
  have hupper : Even m := hmEven (by rw [hmTie, abs_neg, abs_of_pos one_half_pos])
  have hlower : Even n := hnEven (by rw [hnTie, abs_of_pos one_half_pos])
  rw [hnext, Int.even_add_one] at hupper
  exact hupper hlower

/-! ## The last place -/

/-- The exponent of the last binary place that a double keeps of a number. -/
def lastPlace (q : Rat) : Int := max (Int.log 2 |q| - 52) (-1074)

/-- The magnitude that a number is rounded to, with no limit to it. -/
def roundedMagnitude (q : Rat) : Rat := roundEven (|q| / 2 ^ lastPlace q) * 2 ^ lastPlace q

/-- **The double nearest to a number.** A magnitude out of range becomes the
infinity of the sign. -/
def nearest (q : Rat) : ExtendedRat :=
  if roundedMagnitude q < 2 ^ 1024 then
    .finite (if q < 0 then -roundedMagnitude q else roundedMagnitude q)
  else .ofSign q

theorem two_zpow_pos (e : Int) : (0 : Rat) < 2 ^ e := zpow_pos two_pos e

theorem two_pow_mul_zpow (k : Nat) (e : Int) : (2 : Rat) ^ k * 2 ^ e = 2 ^ (k + e) := by
  rw [zpow_add₀ two_ne_zero, zpow_natCast]

/-- In units of its last place a number has at most 53 bits. -/
theorem div_lastPlace_lt {q : Rat} (hq : 0 < q) : q / 2 ^ lastPlace q < 2 ^ 53 := by
  have hlog : q < 2 ^ (Int.log 2 q + 1) := Int.lt_zpow_succ_log_self one_lt_two q
  have hle : (2 : Rat) ^ (Int.log 2 q + 1) ≤ 2 ^ ((53 : Nat) + lastPlace q) := by
    apply zpow_le_zpow_right₀ one_le_two
    unfold lastPlace
    rw [abs_of_pos hq]
    omega
  rw [div_lt_iff₀ (two_zpow_pos _), two_pow_mul_zpow]
  exact lt_of_lt_of_le hlog hle

/-- It has exactly 53 of them, unless the last place is the least of all. -/
theorem le_div_lastPlace {q : Rat} (hq : 0 < q) (hnormal : lastPlace q ≠ -1074) :
    2 ^ 52 ≤ q / 2 ^ lastPlace q := by
  have hplace : lastPlace q = Int.log 2 q - 52 := by
    unfold lastPlace at hnormal ⊢
    rw [abs_of_pos hq] at hnormal ⊢
    omega
  have hlog : (2 : Rat) ^ Int.log 2 q ≤ q := Int.zpow_log_le_self one_lt_two hq
  have hexponent : ((52 : Nat) : Int) + lastPlace q = Int.log 2 q := by omega
  rw [le_div_iff₀ (two_zpow_pos _), two_pow_mul_zpow, hexponent]
  exact hlog

/-! ## Signs -/

theorem roundedMagnitude_neg (q : Rat) : roundedMagnitude (-q) = roundedMagnitude q := by
  unfold roundedMagnitude lastPlace
  rw [abs_neg]

theorem nearest_of_pos {q : Rat} (hq : 0 < q) :
    nearest q = if roundedMagnitude q < 2 ^ 1024 then .finite (roundedMagnitude q)
      else .infinity := by
  unfold nearest ExtendedRat.ofSign
  rw [if_neg (not_lt_of_gt hq), if_pos hq]

theorem nearest_of_neg {q : Rat} (hq : q < 0) :
    nearest q = if roundedMagnitude q < 2 ^ 1024 then .finite (-roundedMagnitude q)
      else .negInfinity := by
  unfold nearest ExtendedRat.ofSign
  rw [if_pos hq, if_neg (not_lt_of_gt hq), if_pos hq]

@[simp] theorem nearest_zero : nearest 0 = .finite 0 := by
  have hround : roundEven 0 = 0 := by exact_mod_cast roundEven_natCast 0
  simp [nearest, roundedMagnitude, hround]

theorem nearest_neg (q : Rat) : nearest (-q) = -nearest q := by
  rcases lt_trichotomy q 0 with hq | hq | hq
  · rw [nearest_of_neg hq, nearest_of_pos (neg_pos.2 hq), roundedMagnitude_neg]
    split_ifs
    · exact congrArg ExtendedRat.finite (neg_neg _).symm
    · rfl
  · subst hq
    rw [neg_zero, nearest_zero]
    rfl
  · rw [nearest_of_pos hq, nearest_of_neg (neg_neg_of_pos hq), roundedMagnitude_neg]
    split_ifs
    · rfl
    · rfl

/-- A number is rounded to a number or to an infinity. -/
theorem nearest_ne_undefined (q : Rat) : nearest q ≠ .undefined := by
  rcases lt_trichotomy q 0 with hq | hq | hq
  · rw [nearest_of_neg hq]
    split_ifs <;> exact ExtendedRat.noConfusion
  · rw [hq, nearest_zero]
    exact ExtendedRat.noConfusion
  · rw [nearest_of_pos hq]
    split_ifs <;> exact ExtendedRat.noConfusion

/-! ## Range

The last place of the greatest doubles is `2 ^ 971`. -/

/-- The powers of two at the end of the range, in units of the last place there. -/
private theorem exists_unit : ∃ t : Rat, 0 < t ∧ 2 ^ (971 : Int) = t ∧
    (2 : Rat) ^ 1023 = 2 ^ 52 * t ∧ (2 : Rat) ^ 1024 = 2 ^ 53 * t ∧
    (2 : Rat) ^ 970 = 1 / 2 * t := by
  have hhalf : (2 : Rat) ^ 970 = 1 / 2 * 2 ^ (971 : Int) := by
    have hsplit : (2 : Rat) ^ (971 : Int) = 2 * 2 ^ (970 : Int) := by
      rw [← zpow_one_add₀ two_ne_zero]
      rfl
    rw [hsplit, ← mul_assoc, one_div_mul_cancel two_ne_zero, one_mul, ← zpow_natCast]
    rfl
  refine ⟨_, two_zpow_pos 971, rfl, ?_, ?_, hhalf⟩
  · rw [two_pow_mul_zpow, ← zpow_natCast]
    rfl
  · rw [two_pow_mul_zpow, ← zpow_natCast]
    rfl

private theorem log_lt_iff {q : Rat} (hq : 0 < q) (k : Nat) : Int.log 2 q < k ↔ q < 2 ^ k := by
  rw [← Int.lt_zpow_iff_log_lt one_lt_two hq, zpow_natCast, Nat.cast_ofNat]

private theorem le_log_iff {q : Rat} (hq : 0 < q) (k : Nat) : k ≤ Int.log 2 q ↔ 2 ^ k ≤ q := by
  rw [← Int.zpow_le_iff_le_log one_lt_two hq, zpow_natCast, Nat.cast_ofNat]

private theorem roundedMagnitude_of_pos {q : Rat} (hq : 0 < q) :
    roundedMagnitude q = roundEven (q / 2 ^ lastPlace q) * 2 ^ lastPlace q := by
  unfold roundedMagnitude
  rw [abs_of_pos hq]

/-- Half of the range and less is rounded to at most half of the range. -/
private theorem roundedMagnitude_le {q : Rat} (hq : 0 < q) (h : q < 2 ^ 1023) :
    roundedMagnitude q ≤ 2 ^ 1023 := by
  have hlog : Int.log 2 q < (1023 : Nat) := (log_lt_iff hq 1023).2 h
  have hplace : (53 : Nat) + lastPlace q ≤ (1023 : Nat) := by
    unfold lastPlace
    rw [abs_of_pos hq]
    omega
  have hround : roundEven (q / 2 ^ lastPlace q) ≤ 2 ^ 53 :=
    roundEven_le (div_pos hq (two_zpow_pos _)).le (by exact_mod_cast div_lastPlace_lt hq)
  calc roundedMagnitude q = roundEven (q / 2 ^ lastPlace q) * 2 ^ lastPlace q :=
        roundedMagnitude_of_pos hq
    _ ≤ 2 ^ 53 * 2 ^ lastPlace q :=
        mul_le_mul_of_nonneg_right (by exact_mod_cast hround) (two_zpow_pos _).le
    _ = 2 ^ ((53 : Nat) + lastPlace q) := two_pow_mul_zpow 53 (lastPlace q)
    _ ≤ 2 ^ ((1023 : Nat) : Int) := zpow_le_zpow_right₀ one_le_two hplace
    _ = 2 ^ 1023 := zpow_natCast 2 1023

/-- In the upper half of the range the last place is known, and with it the
rounding. -/
private theorem roundedMagnitude_lt_iff_of_mem {q : Rat} (hq : 0 < q) (hlow : 2 ^ 1023 ≤ q)
    (hhigh : q < 2 ^ 1024) : roundedMagnitude q < 2 ^ 1024 ↔ q < 2 ^ 1024 - 2 ^ 970 := by
  have hlog : Int.log 2 q = 1023 := by
    have hle := (le_log_iff hq 1023).2 hlow
    have hlt := (log_lt_iff hq 1024).2 hhigh
    omega
  have hplace : lastPlace q = 971 := by
    unfold lastPlace
    rw [abs_of_pos hq, hlog]
    rfl
  obtain ⟨t, ht, hunit, _, hrange, hhalf⟩ := exists_unit
  have hround : roundEven (q / t) < 2 ^ 53 ↔ q / t < (2 ^ 53 : Nat) - 1 / 2 :=
    roundEven_lt_iff (div_pos hq ht).le rfl
  have hcast : (roundEven (q / t) : Rat) < 2 ^ 53 ↔ roundEven (q / t) < 2 ^ 53 := by
    exact_mod_cast Iff.rfl
  rw [roundedMagnitude_of_pos hq, hplace, hunit, hrange, hhalf, ← sub_mul,
    mul_lt_mul_iff_left₀ ht, ← div_lt_iff₀ ht, hcast, hround, Nat.cast_pow, Nat.cast_ofNat]

/-- Beyond the range the magnitude is beyond it, too. -/
private theorem le_roundedMagnitude {q : Rat} (hq : 0 < q) (h : 2 ^ 1024 ≤ q) :
    2 ^ 1024 ≤ roundedMagnitude q := by
  have hlog : (1024 : Nat) ≤ Int.log 2 q := (le_log_iff hq 1024).2 h
  have hplace : (1024 : Nat) ≤ (52 : Nat) + lastPlace q := by
    unfold lastPlace
    rw [abs_of_pos hq]
    omega
  have hround : 2 ^ 52 ≤ roundEven (q / 2 ^ lastPlace q) :=
    le_roundEven (by exact_mod_cast le_div_lastPlace hq (by omega))
  calc (2 : Rat) ^ 1024 = 2 ^ ((1024 : Nat) : Int) := (zpow_natCast 2 1024).symm
    _ ≤ 2 ^ ((52 : Nat) + lastPlace q) := zpow_le_zpow_right₀ one_le_two hplace
    _ = 2 ^ 52 * 2 ^ lastPlace q := (two_pow_mul_zpow 52 (lastPlace q)).symm
    _ ≤ roundEven (q / 2 ^ lastPlace q) * 2 ^ lastPlace q :=
        mul_le_mul_of_nonneg_right (by exact_mod_cast hround) (two_zpow_pos _).le
    _ = roundedMagnitude q := (roundedMagnitude_of_pos hq).symm

private theorem roundedMagnitude_lt_iff {q : Rat} (hq : 0 < q) :
    roundedMagnitude q < 2 ^ 1024 ↔ q < 2 ^ 1024 - 2 ^ 970 := by
  obtain ⟨t, ht, _, hmiddle, hrange, hhalf⟩ := exists_unit
  by_cases hlow : q < 2 ^ 1023
  · have hle := roundedMagnitude_le hq hlow
    rw [hmiddle] at hlow hle
    rw [hrange, hhalf]
    constructor <;> intro h <;> linarith only [h, hlow, hle, ht]
  · by_cases hhigh : q < 2 ^ 1024
    · exact roundedMagnitude_lt_iff_of_mem hq (not_lt.1 hlow) hhigh
    · have hle := le_roundedMagnitude hq (not_lt.1 hhigh)
      rw [not_lt, hrange] at hhigh
      rw [hrange] at hle
      rw [hrange, hhalf]
      constructor <;> intro h <;> linarith only [h, hhigh, hle, ht]

/-- **The numbers that are rounded to finite doubles**: those that are nearer to the
greatest double than to the power of two after it. -/
theorem nearest_eq_finite_iff {q : Rat} :
    (∃ r, nearest q = .finite r) ↔ |q| < 2 ^ 1024 - 2 ^ 970 := by
  rcases lt_trichotomy q 0 with hq | hq | hq
  · have hrange := roundedMagnitude_lt_iff (neg_pos.2 hq)
    rw [roundedMagnitude_neg] at hrange
    rw [nearest_of_neg hq, abs_of_neg hq, ← hrange]
    split_ifs with h
    · exact iff_of_true ⟨_, rfl⟩ h
    · exact iff_of_false (fun ⟨_, hr⟩ => nomatch hr) h
  · subst hq
    refine iff_of_true ⟨0, nearest_zero⟩ ?_
    obtain ⟨t, ht, _, _, hrange, hhalf⟩ := exists_unit
    rw [abs_zero, hrange, hhalf]
    linarith only [ht]
  · rw [nearest_of_pos hq, abs_of_pos hq, ← roundedMagnitude_lt_iff hq]
    split_ifs with h
    · exact iff_of_true ⟨_, rfl⟩ h
    · exact iff_of_false (fun ⟨_, hr⟩ => nomatch hr) h

/-! ## Zero -/

/-- A number that reaches the least place of all keeps at least one unit of its own
last place. -/
private theorem roundedMagnitude_pos {q : Rat} (h : 2 ^ (-1074 : Int) ≤ |q|) :
    0 < roundedMagnitude q := by
  have hpos : 0 < |q| := lt_of_lt_of_le (two_zpow_pos _) h
  have hplace : lastPlace |q| = lastPlace q := by
    unfold lastPlace
    rw [abs_abs]
  have hunit : ((1 : Nat) : Rat) ≤ |q| / 2 ^ lastPlace q := by
    rw [Nat.cast_one]
    by_cases hleast : lastPlace q = -1074
    · rwa [hleast, one_le_div (two_zpow_pos _)]
    · have hwide := le_div_lastPlace hpos (hplace.trans_ne hleast)
      rw [hplace] at hwide
      linarith
  have hround : 1 ≤ roundEven (|q| / 2 ^ lastPlace q) := le_roundEven hunit
  unfold roundedMagnitude
  exact mul_pos (by exact_mod_cast hround) (two_zpow_pos _)

/-- What reaches the least place of all is not rounded to zero. -/
theorem nearest_ne_zero {q : Rat} (h : 2 ^ (-1074 : Int) ≤ |q|) : nearest q ≠ .finite 0 := by
  have hpos := roundedMagnitude_pos h
  unfold nearest ExtendedRat.ofSign
  split_ifs
  · exact fun hzero => hpos.ne' (neg_eq_zero.1 (ExtendedRat.finite.inj hzero))
  · exact fun hzero => hpos.ne' (ExtendedRat.finite.inj hzero)
  all_goals exact ExtendedRat.noConfusion

end PolyRow.Double
