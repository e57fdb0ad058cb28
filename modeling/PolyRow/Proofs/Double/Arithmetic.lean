import Mathlib
import PolyRow.Proofs.Double.Rounding

/-!
# Arithmetic of doubles

A double stands for a number, the sign of a zero aside. Every operation on
doubles is the exact operation on the numbers they stand for, followed by one
rounding; comparisons, the magnitude and the negation need no rounding. A number
that is a double already is not changed by rounding.

The theory of rows over doubles rests on these equations and never looks at bits
again.

## Main results

* `number_add`, `number_sub`, `number_mul`: exact arithmetic and one rounding.
* `number_neg`, `number_abs`, `isFinite_iff`: what is done without rounding.
* `le_iff_number`, `beq_iff_number`: the order and the equality of doubles are
  those of the numbers.
* `number_zero_add`, `number_zero_sub`, `number_mul_one`, `number_mul_neg_one`:
  results that are doubles already.
-/

namespace PolyRow

namespace ExtendedRat

/-! ## Comparison with infinities -/

/-- How two numbers compare; what is undefined compares with nothing. -/
protected def compare : ExtendedRat → ExtendedRat → Option Ordering
  | .undefined, _ | _, .undefined => none
  | .infinity, .infinity | .negInfinity, .negInfinity => some .eq
  | .infinity, _ | _, .negInfinity => some .gt
  | .negInfinity, _ | _, .infinity => some .lt
  | .finite p, .finite q => some (cmp p q)

private theorem isLE_cmp {p q : Rat} : (cmp p q).isLE = true ↔ p ≤ q := by
  rcases lt_trichotomy p q with h | h | h
  · rw [(cmp_eq_lt_iff p q).2 h]
    exact iff_of_true rfl h.le
  · rw [(cmp_eq_eq_iff p q).2 h]
    exact iff_of_true rfl h.le
  · rw [(cmp_eq_gt_iff p q).2 h]
    exact iff_of_false Bool.false_ne_true (not_le_of_gt h)

theorem ofSign_zero : ofSign 0 = undefined := by
  simp [ofSign]

theorem undefined_mul (a : ExtendedRat) : undefined * a = undefined := by
  show ofSign (0 * a.sign) = undefined
  rw [zero_mul, ofSign_zero]

theorem mul_undefined (a : ExtendedRat) : a * undefined = undefined := by
  have hmul : a * undefined = ofSign (a.sign * 0) := by cases a <;> rfl
  rw [hmul, mul_zero, ofSign_zero]

protected theorem mul_one (a : ExtendedRat) : a * finite 1 = a := by
  cases a with
  | finite q => exact congrArg finite (mul_one q)
  | infinity =>
      show ofSign (1 * 1) = infinity
      norm_num [ofSign]
  | negInfinity =>
      show ofSign (-1 * 1) = negInfinity
      norm_num [ofSign]
  | undefined =>
      show ofSign (0 * 1) = undefined
      norm_num [ofSign]

theorem mul_neg_one (a : ExtendedRat) : a * finite (-1) = -a := by
  cases a with
  | finite q => exact congrArg finite (by ring : q * -1 = -q)
  | infinity =>
      show ofSign (1 * -1) = negInfinity
      norm_num [ofSign]
  | negInfinity =>
      show ofSign (-1 * -1) = infinity
      norm_num [ofSign]
  | undefined =>
      show ofSign (0 * -1) = undefined
      norm_num [ofSign]

theorem le_iff_compare {a b : ExtendedRat} :
    a ≤ b ↔ (a.compare b).any (·.isLE) = true := by
  rw [le_iff]
  cases a <;> cases b <;> simp [ExtendedRat.le, ExtendedRat.compare, isLE_cmp]

theorem beq_iff_compare {a b : ExtendedRat} :
    (a == b) = true ↔ a.compare b = some .eq := by
  show a.beq b = true ↔ _
  cases a <;> cases b <;> simp [ExtendedRat.beq, ExtendedRat.compare]

end ExtendedRat

namespace Double

open Float.Model (Format UnpackedFloat)
open Float.Model.UnpackedFloat

/-! ## The number of a double -/

/-- The number that a double stands for. -/
def number (x : Float) : ExtendedRat := value x.toModel.unpack

theorem canonical_toModel (x : Float) : Canonical x.toModel.unpack := canonical_unpack _

theorem fits_toModel (x : Float) : Fits x.toModel.unpack := fits_unpack _

@[simp] theorem number_zero : number 0 = .finite 0 := rfl

@[simp] theorem number_infinity : number ExtendedScalar.infinity = .infinity := rfl

theorem number_one : number 1 = .finite 1 := by
  show ExtendedRat.finite (1 * ((2 ^ 52 : Nat) * 2 ^ (-52 : Int))) = .finite 1
  norm_num

/-- A double is a number proper if it stands for a rational. -/
theorem isFinite_iff {x : Float} : Scalar.isFinite x = true ↔ ∃ q, number x = .finite q := by
  show x.toModel.unpack.isFinite = true ↔ ∃ q, value x.toModel.unpack = .finite q
  cases x.toModel.unpack with
  | notANumber => exact iff_of_false Bool.false_ne_true fun ⟨_, hq⟩ => nomatch hq
  | infinity s =>
      refine iff_of_false Bool.false_ne_true fun ⟨_, hq⟩ => ?_
      cases s <;> exact nomatch hq
  | zero s => exact iff_of_true rfl ⟨0, rfl⟩
  | finite s m e hm => exact iff_of_true rfl ⟨_, rfl⟩

/-- It is undefined if it stands for nothing. -/
theorem isNaN_iff {x : Float} : x.isNaN = true ↔ number x = .undefined := by
  show x.toModel.unpack.isNaN = true ↔ value x.toModel.unpack = .undefined
  cases x.toModel.unpack with
  | notANumber => exact iff_of_true rfl rfl
  | infinity s =>
      refine iff_of_false Bool.false_ne_true fun hvalue => ?_
      cases s <;> exact nomatch hvalue
  | zero s => exact iff_of_false Bool.false_ne_true ExtendedRat.noConfusion
  | finite s m e hm => exact iff_of_false Bool.false_ne_true ExtendedRat.noConfusion

theorem isNaN_eq_false {x : Float} (h : Scalar.isFinite x = true) : x.isNaN = false := by
  obtain ⟨q, hq⟩ := isFinite_iff.1 h
  rw [← Bool.not_eq_true, isNaN_iff, hq]
  exact ExtendedRat.noConfusion

/-! ## Rounding of numbers -/

/-- The double nearest to a number; infinities and what is undefined are kept. -/
def rounded : ExtendedRat → ExtendedRat
  | .finite q => nearest q
  | a => a

theorem rounded_value {u : UnpackedFloat} (hu : Canonical u) (hfits : Fits u) :
    rounded (value u) = value u := by
  cases hvalue : value u with
  | finite q => exact nearest_of_value hu hfits hvalue
  | infinity => rfl
  | negInfinity => rfl
  | undefined => rfl

/-- Parts that come through packing unchanged need no rounding. -/
theorem value_repack_eq_rounded {u : UnpackedFloat} {a : ExtendedRat} (hu : Canonical u)
    (hfits : Fits u) (ha : value u = a) : value (repack u) = rounded a := by
  rw [repack_of_fits hu hfits, ← ha, rounded_value hu hfits]

@[simp] theorem rounded_number (x : Float) : rounded (number x) = number x :=
  rounded_value (canonical_toModel x) (fits_toModel x)

theorem rounded_neg (a : ExtendedRat) : rounded (-a) = -rounded a := by
  cases a with
  | finite q => exact nearest_neg q
  | infinity => rfl
  | negInfinity => rfl
  | undefined => rfl

/-! ## Negation and magnitude -/

private theorem unit_neg (s : Sign) : unit (-s) = -unit s := by
  cases s with
  | positive => rfl
  | negative => exact (neg_neg 1).symm

theorem unit_mul (s t : Sign) : unit (s * t) = unit s * unit t := by
  have hnegative : unit (.negative * .negative) = unit .negative * unit .negative := by
    show (1 : Rat) = -1 * -1
    norm_num
  cases s with
  | positive => cases t <;> exact (one_mul _).symm
  | negative =>
      cases t with
      | positive => exact (mul_one _).symm
      | negative => exact hnegative

private theorem value_neg (u : UnpackedFloat) : value u.neg = -value u := by
  cases u with
  | notANumber => rfl
  | infinity s => cases s <;> rfl
  | zero s => exact congrArg ExtendedRat.finite neg_zero.symm
  | finite s m e hm =>
      show ExtendedRat.finite (unit (-s) * (m * 2 ^ e)) = .finite (-(unit s * (m * 2 ^ e)))
      rw [unit_neg, neg_mul]

private theorem value_abs (u : UnpackedFloat) : value u.abs = (value u).abs := by
  cases u with
  | notANumber => rfl
  | infinity s => cases s <;> rfl
  | zero s => exact congrArg ExtendedRat.finite abs_zero.symm
  | finite s m e hm =>
      have hmagnitude : 0 ≤ (m : Rat) * 2 ^ e := by positivity
      have hunit : |unit s| = 1 := by cases s <;> simp [unit]
      show ExtendedRat.finite (1 * (m * 2 ^ e)) = .finite |unit s * (m * 2 ^ e)|
      rw [abs_mul, hunit, abs_of_nonneg hmagnitude]

theorem canonical_neg {u : UnpackedFloat} (hu : Canonical u) : Canonical u.neg := by
  cases u <;> exact hu

theorem fits_neg {u : UnpackedFloat} (hu : Fits u) : Fits u.neg := by
  cases u <;> exact hu

theorem canonical_abs {u : UnpackedFloat} (hu : Canonical u) : Canonical u.abs := by
  cases u <;> exact hu

theorem fits_abs {u : UnpackedFloat} (hu : Fits u) : Fits u.abs := by
  cases u <;> exact hu

theorem number_neg (x : Float) : number (-x) = -number x := by
  show value (repack x.toModel.unpack.neg) = -value x.toModel.unpack
  rw [repack_of_fits (canonical_neg (canonical_toModel x)) (fits_neg (fits_toModel x)), value_neg]

theorem number_abs (x : Float) : number (Scalar.abs x) = Scalar.abs (number x) := by
  show value (repack x.toModel.unpack.abs) = (value x.toModel.unpack).abs
  rw [repack_of_fits (canonical_abs (canonical_toModel x)) (fits_abs (fits_toModel x)), value_abs]

/-! ## Sums and differences -/

/-- Putting zeros behind a mantissa keeps what it stands for. -/
private theorem value_decreaseExponent (m : Nat) {e t : Int} (h : t ≤ e) :
    ((decreaseExponent m e t).1 : Rat) * 2 ^ t = m * 2 ^ e := by
  have hshift : ((e - t).toNat : Int) = e - t := Int.toNat_of_nonneg (by omega)
  show ((m <<< (e - t).toNat : Nat) : Rat) * 2 ^ t = m * 2 ^ e
  rw [Nat.shiftLeft_eq, Nat.cast_mul, Nat.cast_pow, Nat.cast_ofNat, ← zpow_natCast, hshift,
    mul_assoc, ← zpow_add₀ two_ne_zero, sub_add_cancel]

private theorem value_add {u w : UnpackedFloat} (hu : Canonical u) (hfu : Fits u)
    (hw : Canonical w) (hfw : Fits w) :
    value (repack (UnpackedFloat.add .binary64 u w)) = rounded (value u + value w) := by
  -- Where one of the two is no proper number, or is zero, nothing has to be rounded.
  have hexact {x : UnpackedFloat} (hx : Canonical x) (hfx : Fits x)
      (hvalue : value x = value u + value w) :
      value (repack x) = rounded (value u + value w) :=
    value_repack_eq_rounded hx hfx hvalue
  cases u with
  | notANumber => cases w <;> exact hexact trivial trivial rfl
  | infinity s =>
      cases w with
      | notANumber => cases s <;> exact hexact trivial trivial rfl
      | infinity t => cases s <;> cases t <;> exact hexact trivial trivial rfl
      | zero t => cases s <;> exact hexact trivial trivial rfl
      | finite t n f hn => cases s <;> exact hexact trivial trivial rfl
  | zero s =>
      cases w with
      | notANumber => exact hexact trivial trivial rfl
      | infinity t => cases t <;> exact hexact trivial trivial rfl
      | zero t =>
          have hzero : ExtendedRat.finite 0 = .finite (0 + 0) := by rw [add_zero]
          cases s <;> cases t <;> exact hexact trivial trivial hzero
      | finite t n f hn => exact hexact hw hfw (congrArg ExtendedRat.finite (zero_add _).symm)
  | finite s m e hm =>
      cases w with
      | notANumber => exact hexact trivial trivial rfl
      | infinity t => cases t <;> exact hexact trivial trivial rfl
      | zero t => exact hexact hu hfu (congrArg ExtendedRat.finite (add_zero _).symm)
      | finite t n f hn =>
          -- Both mantissas are brought to the smaller exponent and added there.
          have hleft := value_decreaseExponent m (min_le_left e f)
          have hright := value_decreaseExponent n (min_le_right e f)
          show value (repack (UnpackedFloat.normalize .binary64
              (s.apply (decreaseExponent m e (min e f)).1 +
                t.apply (decreaseExponent n f (min e f)).1) (min e f) .positive)) =
            nearest (unit s * (m * 2 ^ e) + unit t * (n * 2 ^ f))
          rw [value_normalize, Int.cast_add, cast_apply, cast_apply, ← hleft, ← hright]
          congr 1
          ring

private theorem sub_eq_add_opposite (u w : UnpackedFloat) :
    UnpackedFloat.sub .binary64 u w = UnpackedFloat.add .binary64 u w.neg := by
  cases u with
  | notANumber => cases w <;> rfl
  | infinity s =>
      cases w with
      | notANumber => rfl
      | infinity t => cases s <;> cases t <;> rfl
      | zero t => rfl
      | finite t n f hn => rfl
  | zero s => cases w <;> rfl
  | finite s m e hm =>
      cases w with
      | notANumber => rfl
      | infinity t => rfl
      | zero t => rfl
      | finite t n f hn =>
          have hsign (k : Nat) : (-t).apply (k : Int) = -t.apply k := by
            cases t with
            | positive => rfl
            | negative => exact (neg_neg _).symm
          show UnpackedFloat.normalize _ (_ - t.apply _) _ _ =
            UnpackedFloat.normalize _ (_ + (-t).apply _) _ _
          rw [hsign]
          rfl

/-- **A sum of doubles is the exact sum, rounded once.** -/
theorem number_add (x y : Float) : number (x + y) = rounded (number x + number y) :=
  value_add (canonical_toModel x) (fits_toModel x) (canonical_toModel y) (fits_toModel y)

theorem number_sub (x y : Float) : number (x - y) = rounded (number x - number y) := by
  show value (repack (UnpackedFloat.sub .binary64 x.toModel.unpack y.toModel.unpack)) =
    rounded (value x.toModel.unpack + -value y.toModel.unpack)
  rw [sub_eq_add_opposite, value_add (canonical_toModel x) (fits_toModel x)
    (canonical_neg (canonical_toModel y)) (fits_neg (fits_toModel y)), value_neg]

/-- A sum of finite doubles may overflow, but is not undefined. -/
theorem isNaN_add {x y : Float} (hx : Scalar.isFinite x = true) (hy : Scalar.isFinite y = true) :
    (x + y).isNaN = false := by
  obtain ⟨p, hp⟩ := isFinite_iff.1 hx
  obtain ⟨q, hq⟩ := isFinite_iff.1 hy
  rw [← Bool.not_eq_true, isNaN_iff, number_add, hp, hq]
  exact nearest_ne_undefined (p + q)

/-- A number less itself is zero. What is not finite has no difference with itself. -/
theorem rounded_sub_self (a : ExtendedRat) :
    rounded (a - a) = if Scalar.isFinite a = true then .finite 0 else .undefined := by
  cases a with
  | finite q =>
      show nearest (q + -q) = .finite 0
      rw [add_neg_cancel, nearest_zero]
  | infinity => rfl
  | negInfinity => rfl
  | undefined => rfl

/-- Adding to zero changes nothing but the sign of a zero. -/
theorem number_zero_add (x : Float) : number (0 + x) = number x := by
  have hzero : number 0 + number x = number x := by
    rw [number_zero]
    cases number x with
    | finite q => exact congrArg ExtendedRat.finite (zero_add q)
    | infinity => rfl
    | negInfinity => rfl
    | undefined => rfl
  rw [number_add, hzero, rounded_number]

/-- The difference from zero is the negation. -/
theorem number_zero_sub (x : Float) : number (0 - x) = -number x := by
  have hzero : number 0 - number x = -number x := by
    rw [number_zero]
    cases number x with
    | finite q => exact congrArg ExtendedRat.finite (zero_add (-q))
    | infinity => rfl
    | negInfinity => rfl
    | undefined => rfl
  rw [number_sub, hzero, rounded_neg, rounded_number]

/-! ## Products -/

private theorem ofSign_unit_mul (s : Sign) {q : Rat} (hq : 0 < q) :
    ExtendedRat.ofSign (unit s * q) = value (.infinity s) := by
  unfold ExtendedRat.ofSign
  cases s with
  | positive =>
      have hpos : 0 < unit .positive * q := by simpa [unit] using hq
      rw [if_pos hpos]
      rfl
  | negative =>
      have hneg : unit .negative * q < 0 := by simpa [unit] using hq
      rw [if_neg (not_lt_of_gt hneg), if_pos hneg]
      rfl

theorem value_infinity_mul (s t : Sign) {q : Rat} (hq : 0 < q) :
    value (.infinity (s * t)) = ExtendedRat.ofSign (unit s * (unit t * q)) := by
  rw [← mul_assoc, ← unit_mul, ofSign_unit_mul (s * t) hq]

private theorem infinity_mul (s : Sign) (a : ExtendedRat) :
    value (.infinity s) * a = ExtendedRat.ofSign (unit s * a.sign) := by
  cases s <;> rfl

private theorem mul_infinity (a : ExtendedRat) (s : Sign) :
    a * value (.infinity s) = ExtendedRat.ofSign (a.sign * unit s) := by
  cases s <;> cases a <;> rfl

/-- The product of two mantissas has an exponent that rounding can start from. -/
private theorem le_lastPlace_mul {s t : Sign} {m n : Nat} {e f : Int} {hm : 0 < m} {hn : 0 < n}
    (hu : Canonical (.finite s m e hm)) (hw : Canonical (.finite t n f hn)) :
    e + f ≤ lastPlace (((m * n : Nat) : Rat) * 2 ^ (e + f)) := by
  have hpos : 0 < m * n := Nat.mul_pos hm hn
  rw [lastPlace_mul_zpow hpos]
  by_cases hwide : 2 ^ 52 ≤ m * n
  · have hlog : 52 ≤ (m * n).log2 := (Nat.le_log2 hpos.ne').2 hwide
    omega
  · -- Neither mantissa is of full width, so both exponents are the least.
    have hleft : m ≤ m * n := Nat.le_mul_of_pos_right m hn
    have hright : n ≤ m * n := Nat.le_mul_of_pos_left n hm
    have he : e = -1074 := hu.2.2.resolve_left (by omega)
    have hf : f = -1074 := hw.2.2.resolve_left (by omega)
    omega

private theorem value_mul {u w : UnpackedFloat} (hu : Canonical u) (hw : Canonical w) :
    value (repack (UnpackedFloat.mul .binary64 u w)) = rounded (value u * value w) := by
  have hinfinity (s : Sign) {a : ExtendedRat} (ha : value (.infinity s) = a) :
      value (repack (.infinity s)) = rounded a := value_repack_eq_rounded trivial trivial ha
  have hzero (s : Sign) {q : Rat} (hq : q = 0) :
      value (repack (.zero s)) = rounded (.finite q) :=
    value_repack_eq_rounded trivial trivial (congrArg ExtendedRat.finite hq.symm)
  have hnone {a : ExtendedRat} (ha : a = .undefined) : value (repack .notANumber) = rounded a :=
    value_repack_eq_rounded trivial trivial ha.symm
  have hpos {m : Nat} (hm : 0 < m) (e : Int) : (0 : Rat) < m * 2 ^ e :=
    mul_pos (by exact_mod_cast hm) (zpow_pos two_pos e)
  cases u with
  | notANumber => cases w <;> exact hnone (ExtendedRat.undefined_mul _)
  | infinity s =>
      cases w with
      | notANumber => exact hnone (ExtendedRat.mul_undefined _)
      | infinity t =>
          have hproduct := value_infinity_mul s t one_pos
          rw [mul_one] at hproduct
          refine hinfinity (s * t) ?_
          rw [infinity_mul, hproduct]
          cases t <;> rfl
      | zero t =>
          refine hnone ?_
          rw [infinity_mul]
          show ExtendedRat.ofSign (unit s * 0) = .undefined
          rw [mul_zero, ExtendedRat.ofSign_zero]
      | finite t n f hn =>
          refine hinfinity (s * t) ?_
          rw [infinity_mul]
          exact value_infinity_mul s t (hpos hn f)
  | zero s =>
      cases w with
      | notANumber => exact hnone (ExtendedRat.mul_undefined _)
      | infinity t =>
          refine hnone ?_
          rw [mul_infinity]
          show ExtendedRat.ofSign (0 * unit t) = .undefined
          rw [zero_mul, ExtendedRat.ofSign_zero]
      | zero t => exact hzero (s * t) (mul_zero _)
      | finite t n f hn => exact hzero (s * t) (zero_mul _)
  | finite s m e hm =>
      cases w with
      | notANumber => exact hnone (ExtendedRat.mul_undefined _)
      | infinity t =>
          have hproduct := value_infinity_mul s t (hpos hm e)
          rw [mul_comm (unit t), ← mul_assoc] at hproduct
          refine hinfinity (s * t) ?_
          rw [mul_infinity]
          exact hproduct
      | zero t => exact hzero (s * t) (mul_zero _)
      | finite t n f hn =>
          show value (repack (roundWithAccuracy .binary64 (s * t) (m * n) (e + f) .exact)) =
            nearest (unit s * (m * 2 ^ e) * (unit t * (n * 2 ^ f)))
          rw [value_roundWithAccuracy (s * t) (Nat.mul_pos hm hn) (le_lastPlace_mul hu hw),
            unit_mul, Nat.cast_mul, zpow_add₀ two_ne_zero]
          congr 1
          ring

/-- **A product of doubles is the exact product, rounded once.** -/
theorem number_mul (x y : Float) : number (x * y) = rounded (number x * number y) :=
  value_mul (canonical_toModel x) (canonical_toModel y)

/-- The product with one is a double already. -/
theorem number_mul_one (x : Float) : number (x * 1) = number x := by
  rw [number_mul, number_one, ExtendedRat.mul_one, rounded_number]

/-- The product with minus one is the negation. -/
theorem number_mul_neg_one (x : Float) : number (x * -1) = -number x := by
  have hone : number (-1) = .finite (-1) := by
    rw [number_neg, number_one]
    rfl
  rw [number_mul, hone, ExtendedRat.mul_neg_one, rounded_neg, rounded_number]

theorem isFinite_mul_neg_one {x : Float} (hx : Scalar.isFinite x = true) :
    Scalar.isFinite (x * -1) = true := by
  obtain ⟨q, hq⟩ := isFinite_iff.1 hx
  refine isFinite_iff.2 ⟨-q, ?_⟩
  rw [number_mul_neg_one, hq]
  rfl

/-! ## Comparison -/

/-- Of canonical magnitudes the one with the greater exponent is the greater. -/
private theorem mul_zpow_lt_of_lt {s t : Sign} {m n : Nat} {e f : Int} {hm : 0 < m} {hn : 0 < n}
    (hu : Canonical (.finite s m e hm)) (hw : Canonical (.finite t n f hn)) (h : e < f) :
    (m : Rat) * 2 ^ e < n * 2 ^ f := by
  obtain ⟨hbits, hlow, _⟩ := hu
  have hwide : 2 ^ 52 ≤ n := hw.2.2.resolve_right (by omega)
  have hstep : (2 : Rat) * 2 ^ e ≤ 2 ^ f := by
    rw [← zpow_one_add₀ two_ne_zero]
    exact zpow_le_zpow_right₀ one_le_two (by omega)
  calc (m : Rat) * 2 ^ e < 2 ^ 53 * 2 ^ e :=
        mul_lt_mul_of_pos_right (by exact_mod_cast hbits) (zpow_pos two_pos e)
    _ = 2 ^ 52 * (2 * 2 ^ e) := by ring
    _ ≤ 2 ^ 52 * 2 ^ f := mul_le_mul_of_nonneg_left hstep (by positivity)
    _ ≤ n * 2 ^ f :=
        mul_le_mul_of_nonneg_right (by exact_mod_cast hwide) (zpow_pos two_pos f).le

/-- Canonical magnitudes compare like their exponents, and like their mantissas
where the exponents are equal. -/
private theorem compare_then_compare {s t : Sign} {m n : Nat} {e f : Int} {hm : 0 < m}
    {hn : 0 < n} (hu : Canonical (.finite s m e hm)) (hw : Canonical (.finite t n f hn)) :
    (compare e f).then (compare m n) = cmp ((m : Rat) * 2 ^ e) (n * 2 ^ f) := by
  rcases lt_trichotomy e f with h | h | h
  · rw [compare_lt_iff_lt.2 h, (cmp_eq_lt_iff _ _).2 (mul_zpow_lt_of_lt hu hw h)]
    rfl
  · subst h
    rw [compare_eq_iff_eq.2 rfl, cmp_mul_pos_right (zpow_pos two_pos e)]
    rcases lt_trichotomy m n with h | h | h
    · rw [compare_lt_iff_lt.2 h, (cmp_eq_lt_iff _ _).2 (by exact_mod_cast h)]
      rfl
    · rw [compare_eq_iff_eq.2 h, (cmp_eq_eq_iff _ _).2 (by exact_mod_cast h)]
      rfl
    · rw [compare_gt_iff_gt.2 h, (cmp_eq_gt_iff _ _).2 (by exact_mod_cast h)]
      rfl
  · rw [compare_gt_iff_gt.2 h, (cmp_eq_gt_iff _ _).2 (mul_zpow_lt_of_lt hw hu h)]
    rfl

private theorem compare_eq {u w : UnpackedFloat} (hu : Canonical u) (hw : Canonical w) :
    u.compare w = (value u).compare (value w) := by
  have hpos {m : Nat} (hm : 0 < m) (e : Int) : (0 : Rat) < m * 2 ^ e :=
    mul_pos (by exact_mod_cast hm) (zpow_pos two_pos e)
  cases u with
  | notANumber => cases w <;> rfl
  | infinity s =>
      cases w with
      | notANumber => cases s <;> rfl
      | infinity t => cases s <;> cases t <;> rfl
      | zero t => cases s <;> rfl
      | finite t n f hn => cases s <;> rfl
  | zero s =>
      cases w with
      | notANumber => rfl
      | infinity t => cases t <;> rfl
      | zero t => exact congrArg some ((cmp_eq_eq_iff _ _).2 rfl).symm
      | finite t n f hn =>
          cases t with
          | positive =>
              have hlt : (0 : Rat) < 1 * (n * 2 ^ f) := by linarith [hpos hn f]
              exact congrArg some ((cmp_eq_lt_iff _ _).2 hlt).symm
          | negative =>
              have hgt : -1 * ((n : Rat) * 2 ^ f) < 0 := by linarith [hpos hn f]
              exact congrArg some ((cmp_eq_gt_iff _ _).2 hgt).symm
  | finite s m e hm =>
      cases w with
      | notANumber => rfl
      | infinity t => cases t <;> rfl
      | zero t =>
          cases s with
          | positive =>
              have hgt : (0 : Rat) < 1 * (m * 2 ^ e) := by linarith [hpos hm e]
              exact congrArg some ((cmp_eq_gt_iff _ _).2 hgt).symm
          | negative =>
              have hlt : -1 * ((m : Rat) * 2 ^ e) < 0 := by linarith [hpos hm e]
              exact congrArg some ((cmp_eq_lt_iff _ _).2 hlt).symm
      | finite t n f hn =>
          have hmagnitudes := compare_then_compare hu hw
          cases s with
          | positive =>
              cases t with
              | positive =>
                  have hscale := cmp_mul_pos_left one_pos ((m : Rat) * 2 ^ e) (n * 2 ^ f)
                  exact congrArg some (hmagnitudes.trans hscale.symm)
              | negative =>
                  have hgt : -1 * ((n : Rat) * 2 ^ f) < 1 * (m * 2 ^ e) := by
                    linarith [hpos hm e, hpos hn f]
                  exact congrArg some ((cmp_eq_gt_iff _ _).2 hgt).symm
          | negative =>
              cases t with
              | positive =>
                  have hlt : -1 * ((m : Rat) * 2 ^ e) < 1 * (n * 2 ^ f) := by
                    linarith [hpos hm e, hpos hn f]
                  exact congrArg some ((cmp_eq_lt_iff _ _).2 hlt).symm
              | negative =>
                  have hminus : (-1 : Rat) < 0 := by norm_num
                  have hscale := cmp_mul_neg_left hminus ((m : Rat) * 2 ^ e) (n * 2 ^ f)
                  have hswap := cmp_swap ((m : Rat) * 2 ^ e) (n * 2 ^ f)
                  rw [← hmagnitudes, ← hscale] at hswap
                  exact congrArg some hswap

/-- **The order of doubles is that of the numbers.** -/
theorem le_iff_number {x y : Float} : x ≤ y ↔ number x ≤ number y := by
  rw [ExtendedRat.le_iff_compare]
  unfold number
  rw [← compare_eq (canonical_toModel x) (canonical_toModel y)]
  exact decide_eq_true_iff

theorem lt_iff_of_number {x y : Float} {p q : Rat} (hx : number x = .finite p)
    (hy : number y = .finite q) : x < y ↔ p < q := by
  have hcompare : x < y ↔ x.toModel.unpack.compare y.toModel.unpack = some .lt :=
    decide_eq_true_iff.trans beq_iff_eq
  rw [hcompare, compare_eq (canonical_toModel x) (canonical_toModel y)]
  show (number x).compare (number y) = some .lt ↔ p < q
  rw [hx, hy]
  show some (cmp p q) = some .lt ↔ p < q
  rw [Option.some_inj, cmp_eq_lt_iff]

theorem beq_iff_number {x y : Float} : (x == y) = true ↔ (number x == number y) = true := by
  rw [ExtendedRat.beq_iff_compare]
  unfold number
  rw [← compare_eq (canonical_toModel x) (canonical_toModel y)]
  show (x.toModel.unpack.compare y.toModel.unpack == some Ordering.eq) = true ↔ _
  exact beq_iff_eq

/-- A double equals zero if it stands for zero. -/
theorem beq_zero_iff_number {x : Float} : (x == 0) = true ↔ number x = .finite 0 := by
  rw [beq_iff_number, number_zero]
  show (number x).beq (.finite 0) = true ↔ _
  cases number x <;> simp [ExtendedRat.beq]

/-- Finite doubles that stand for one number are equal. -/
theorem beq_of_number_eq {x y : Float} (hy : Scalar.isFinite y = true)
    (h : number x = number y) : (x == y) = true := by
  obtain ⟨q, hq⟩ := isFinite_iff.1 hy
  rw [beq_iff_number, h, hq, ExtendedRat.beq_iff_compare]
  exact congrArg some ((cmp_eq_eq_iff q q).2 rfl)

/-- Added to zero, a finite double is equal to what it was. -/
theorem zero_add_beq {x : Float} (hx : Scalar.isFinite x = true) : (0 + x == x) = true :=
  beq_of_number_eq hx (number_zero_add x)

end Double

/-- Among finite coefficients every one that is asked for is finite, stored or not. -/
theorem Expr.isFinite_coefficient {e : Expr Float}
    (h : ∀ t ∈ e.terms.entries, Scalar.isFinite t.2 = true) (m : Monomial) :
    Scalar.isFinite (e.coefficient m) = true := by
  unfold coefficient
  cases hget : e.get? m with
  | none => exact Double.isFinite_iff.2 ⟨0, rfl⟩
  | some c => exact h (m, c) (Terms.get?_eq_some_iff.1 hget)

end PolyRow
