import Mathlib
import PolyRow.Proofs.Exact.Value

/-!
# Exact arithmetic with infinities

A row marks a side without a bound by an infinity, so the exact reading of rows
needs more than the rationals. `ExtendedRat` is the arithmetic of doubles with
the rounding taken away: its finite numbers are all rationals, and the infinities
and the undefined result behave as they do there. It has one zero, which counts as
positive where a number is divided by it.

## Main results

* `exactCopy_finite`: the finite numbers are a copy of the rationals.
* `neg_add`, `neg_le_neg_iff`: negation in sums and in the order.
* `le_trans`: the order, in which an undefined side is comparable to nothing.
* `sub_finite_le_iff`, `le_sub_finite_iff`: a finite number moves across a
  relation.
-/

namespace PolyRow

/-- A rational number, an infinity, or no number at all. -/
inductive ExtendedRat where
  | finite (q : Rat)
  | infinity
  | negInfinity
  | undefined
deriving DecidableEq

namespace ExtendedRat

/-! ## Operations -/

/-- A rational of the sign of the number. -/
def sign : ExtendedRat → Rat
  | .finite q => q
  | .infinity => 1
  | .negInfinity => -1
  | .undefined => 0

/-- The infinity of a sign, if there is a sign. -/
def ofSign (s : Rat) : ExtendedRat :=
  if 0 < s then .infinity else if s < 0 then .negInfinity else .undefined

protected def neg : ExtendedRat → ExtendedRat
  | .finite q => .finite (-q)
  | .infinity => .negInfinity
  | .negInfinity => .infinity
  | .undefined => .undefined

protected def add : ExtendedRat → ExtendedRat → ExtendedRat
  | .undefined, _ | _, .undefined => .undefined
  | .infinity, .negInfinity | .negInfinity, .infinity => .undefined
  | .infinity, _ | _, .infinity => .infinity
  | .negInfinity, _ | _, .negInfinity => .negInfinity
  | .finite p, .finite q => .finite (p + q)

protected def mul : ExtendedRat → ExtendedRat → ExtendedRat
  | .finite p, .finite q => .finite (p * q)
  | a, b => ofSign (a.sign * b.sign)

protected def div : ExtendedRat → ExtendedRat → ExtendedRat
  | .finite p, .finite q => if q = 0 then ofSign p else .finite (p / q)
  | .finite _, .infinity | .finite _, .negInfinity => .finite 0
  | a, .finite q => ofSign (if q = 0 then a.sign else a.sign * q)
  | _, _ => .undefined

/-- Equality of numbers; what is undefined equals nothing. -/
protected def beq (a b : ExtendedRat) : Bool := a != .undefined && decide (a = b)

/-- The order of numbers; what is undefined is comparable to nothing. -/
protected def le : ExtendedRat → ExtendedRat → Bool
  | .undefined, _ | _, .undefined => false
  | .negInfinity, _ | _, .infinity => true
  | .finite p, .finite q => decide (p ≤ q)
  | _, _ => false

protected def abs : ExtendedRat → ExtendedRat
  | .finite q => .finite |q|
  | .infinity | .negInfinity => .infinity
  | .undefined => .undefined

protected def isFinite : ExtendedRat → Bool
  | .finite _ => true
  | _ => false

instance : ExtendedScalar ExtendedRat where
  zero := .finite 0
  one := .finite 1
  add := ExtendedRat.add
  sub a b := a.add b.neg
  neg := ExtendedRat.neg
  mul := ExtendedRat.mul
  div := ExtendedRat.div
  beq := ExtendedRat.beq
  le a b := a.le b = true
  decidableLE a b := inferInstanceAs (Decidable (a.le b = true))
  abs := ExtendedRat.abs
  isFinite := ExtendedRat.isFinite
  infinity := .infinity

/-! ## Finite numbers -/

theorem exactCopy_finite : ExactCopy finite where
  zero := rfl
  add _ _ := rfl
  mul _ _ := rfl

theorem isFinite_iff {a : ExtendedRat} : Scalar.isFinite a = true ↔ ∃ q, a = .finite q := by
  constructor
  · intro h
    cases a with
    | finite q => exact ⟨q, rfl⟩
    | infinity => exact absurd h Bool.false_ne_true
    | negInfinity => exact absurd h Bool.false_ne_true
    | undefined => exact absurd h Bool.false_ne_true
  · rintro ⟨q, rfl⟩
    rfl

/-! ## Negation -/

protected theorem neg_neg (a : ExtendedRat) : - -a = a := by
  cases a with
  | finite q => exact congrArg finite (neg_neg q)
  | infinity => rfl
  | negInfinity => rfl
  | undefined => rfl

protected theorem add_comm (a b : ExtendedRat) : a + b = b + a := by
  cases a <;> cases b <;> first | rfl | exact congrArg finite (add_comm _ _)

protected theorem mul_comm (a b : ExtendedRat) : a * b = b * a := by
  cases a <;> cases b <;>
    first
    | exact congrArg finite (mul_comm _ _)
    | exact congrArg ofSign (mul_comm _ _)

protected theorem neg_add (a b : ExtendedRat) : -(a + b) = -a + -b := by
  cases a <;> cases b <;> first | rfl | exact congrArg finite (neg_add _ _)

protected theorem neg_sub (a b : ExtendedRat) : -(a - b) = b - a := by
  have hleft : -(a - b) = -(a + -b) := rfl
  have hright : b - a = b + -a := rfl
  rw [hleft, hright, ExtendedRat.neg_add, ExtendedRat.neg_neg, ExtendedRat.add_comm]

protected theorem abs_neg (a : ExtendedRat) : Scalar.abs (-a) = Scalar.abs a := by
  cases a with
  | finite q => exact congrArg finite (abs_neg q)
  | infinity => rfl
  | negInfinity => rfl
  | undefined => rfl

/-! ## Order -/

theorem le_iff {a b : ExtendedRat} : a ≤ b ↔ a.le b = true := Iff.rfl

theorem finite_le_finite {p q : Rat} : finite p ≤ finite q ↔ p ≤ q := by
  simp [le_iff, ExtendedRat.le]

theorem negInfinity_le_finite (q : Rat) : negInfinity ≤ finite q := rfl

theorem finite_le_infinity (q : Rat) : finite q ≤ infinity := rfl

/-- Every number lies between the infinities and is at most itself. -/
theorem negInfinity_le_iff {a : ExtendedRat} : negInfinity ≤ a ↔ a ≠ undefined := by
  rw [le_iff]
  cases a <;> simp [ExtendedRat.le]

theorem le_infinity_iff {a : ExtendedRat} : a ≤ infinity ↔ a ≠ undefined := by
  rw [le_iff]
  cases a <;> simp [ExtendedRat.le]

theorem le_self_iff {a : ExtendedRat} : a ≤ a ↔ a ≠ undefined := by
  rw [le_iff]
  cases a <;> simp [ExtendedRat.le]

theorem le_trans {a b c : ExtendedRat} (hab : a ≤ b) (hbc : b ≤ c) : a ≤ c := by
  rw [le_iff] at hab hbc ⊢
  cases a <;> cases b <;> cases c <;> simp_all [ExtendedRat.le]
  exact hab.trans hbc

theorem ne_undefined_of_le {a b : ExtendedRat} (h : a ≤ b) : a ≠ undefined ∧ b ≠ undefined := by
  rw [le_iff] at h
  cases a <;> cases b <;> simp_all [ExtendedRat.le]

/-- Zero is the only number whose magnitude is at most zero. -/
theorem abs_le_zero_iff {a : ExtendedRat} : Scalar.abs a ≤ finite 0 ↔ a = finite 0 := by
  cases a with
  | finite q =>
      show finite |q| ≤ finite 0 ↔ finite q = finite 0
      rw [finite_le_finite, abs_nonpos_iff, finite.injEq]
  | infinity => exact iff_of_false Bool.false_ne_true ExtendedRat.noConfusion
  | negInfinity => exact iff_of_false Bool.false_ne_true ExtendedRat.noConfusion
  | undefined => exact iff_of_false Bool.false_ne_true ExtendedRat.noConfusion

/-- Negation turns the order around. -/
protected theorem neg_le_neg_iff {a b : ExtendedRat} : -a ≤ -b ↔ b ≤ a := by
  have hfinite {p q : Rat} : finite (-p) ≤ finite (-q) ↔ finite q ≤ finite p := by
    rw [finite_le_finite, finite_le_finite, neg_le_neg_iff]
  cases a <;> cases b <;> first | exact Iff.rfl | exact hfinite

/-- A finite number subtracted below a relation moves across it. -/
theorem sub_finite_le_iff {a : ExtendedRat} {k s : Rat} :
    a - finite k ≤ finite s ↔ a ≤ finite (k + s) := by
  cases a with
  | finite q =>
      show finite (q + -k) ≤ finite s ↔ finite q ≤ finite (k + s)
      rw [finite_le_finite, finite_le_finite]
      constructor <;> intro h <;> linarith
  | infinity => exact Iff.rfl
  | negInfinity => exact Iff.rfl
  | undefined => exact Iff.rfl

/-- A finite number subtracted above a relation moves across it. -/
theorem le_sub_finite_iff {a : ExtendedRat} {k s : Rat} :
    finite s ≤ a - finite k ↔ finite (k + s) ≤ a := by
  cases a with
  | finite q =>
      show finite s ≤ finite (q + -k) ↔ finite (k + s) ≤ finite q
      rw [finite_le_finite, finite_le_finite]
      constructor <;> intro h <;> linarith
  | infinity => exact Iff.rfl
  | negInfinity => exact Iff.rfl
  | undefined => exact Iff.rfl

end ExtendedRat

end PolyRow
