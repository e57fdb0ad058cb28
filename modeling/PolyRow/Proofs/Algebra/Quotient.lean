import Mathlib
import PolyRow.Proofs.Algebra.Agreement
import PolyRow.Proofs.Double.Division

/-!
# Quotients by a number

An expression is divided by multiplying it with the reciprocal of the divisor. Over
doubles the reciprocal of a nonzero divisor may lie beyond the range, and then it is an
infinity: a coefficient that is not zero becomes infinite, and a stored zero becomes
undefined. The guard against division by zero does not notice such divisors. All others
send zeros to zeros and make nothing undefined.

## Main results

* `Double.isNaN_mul_iff`: a finite double times one that is not undefined.
* `Expr.isNaN_div?_iff`: which coefficients of a quotient are undefined.
* `Expr.exists_isNaN_div?`: a zero that becomes undefined.
-/

namespace PolyRow

namespace Double

/-- A product with a finite double is undefined if zero meets an infinity. -/
theorem isNaN_mul_iff {x z : Float} (hx : Scalar.isFinite x = true) (hz : z.isNaN = false) :
    (x * z).isNaN = true ↔ (x == 0) = true ∧ Scalar.isFinite z = false := by
  obtain ⟨p, hp⟩ := isFinite_iff.1 hx
  rw [← Bool.not_eq_true, isNaN_iff] at hz
  rw [isNaN_iff, number_mul, beq_zero_iff_number, ← Bool.not_eq_true, isFinite_iff, hp]
  have hsign {s : Rat} : rounded (.ofSign s) = .undefined ↔ s = 0 := by
    rcases lt_trichotomy s 0 with hs | hs | hs
    · simp [ExtendedRat.ofSign, rounded, hs, hs.ne, not_lt_of_gt hs]
    · simp [ExtendedRat.ofSign, rounded, hs]
    · simp [ExtendedRat.ofSign, rounded, hs, hs.ne']
  cases hzNumber : number z with
  | finite q =>
      refine iff_of_false (nearest_ne_undefined (p * q)) fun h => ?_
      exact h.2 ⟨q, rfl⟩
  | infinity =>
      show rounded (.ofSign (p * 1)) = .undefined ↔ _
      rw [hsign]
      simp
  | negInfinity =>
      show rounded (.ofSign (p * -1)) = .undefined ↔ _
      rw [hsign]
      simp
  | undefined => exact absurd hzNumber hz

/-- Zero times a finite double is zero, of either sign. -/
theorem mul_beq_zero {x z : Float} (hx : (x == 0) = true) (hz : Scalar.isFinite z = true) :
    (x * z == 0) = true := by
  obtain ⟨q, hq⟩ := isFinite_iff.1 hz
  rw [beq_zero_iff_number] at hx ⊢
  have hproduct : (ExtendedRat.finite 0 * .finite q : ExtendedRat) = .finite 0 :=
    congrArg ExtendedRat.finite (zero_mul q)
  rw [number_mul, hx, hq, hproduct]
  exact nearest_zero

end Double

namespace Expr

/-- **A quotient invents undefined coefficients for tiny divisors alone.** A finite
divisor other than zero is accepted, and the quotient has the monomials of the
expression. A coefficient that was finite is undefined in the quotient exactly if it is
a zero and the divisor is at most `2 ^ -1024` in magnitude; otherwise a zero stays a
zero. -/
theorem isNaN_div?_iff {e : Expr Float} {d : Float}
    (he : ∀ t ∈ e.terms.entries, Scalar.isFinite t.2 = true) (hd : Scalar.isFinite d = true)
    (hzero : (d == 0) = false) :
    ∃ (q : Rat) (r : Expr Float), Double.number d = .finite q ∧ e.div? (.scalar d) = .ok r ∧
      r.terms.keys = e.terms.keys ∧
      ∀ m c, e.get? m = some c → ∃ c', r.get? m = some c' ∧
        (c'.isNaN = true ↔ (c == 0) = true ∧ |q| ≤ 2 ^ (-1024 : Int)) ∧
        ((c == 0) = true → c'.isNaN = false → (c' == 0) = true) := by
  obtain ⟨q, hq⟩ := Double.isFinite_iff.1 hd
  have hne : q ≠ 0 := by
    rw [← Bool.not_eq_true, Double.beq_zero_iff_number, hq] at hzero
    exact fun h => hzero (congrArg ExtendedRat.finite h)
  have haccepted : e.div? (.scalar d) = .ok (e.scale (1 / d)) := by
    show (if d == 0 then _ else _) = _
    rw [hzero]
    rfl
  refine ⟨q, e.scale (1 / d), hq, haccepted, keys_scale e _, fun m c hc => ?_⟩
  have hfinite : Scalar.isFinite c = true := he (m, c) (Terms.get?_eq_some_iff.1 hc)
  have hscaled : (e.scale (1 / d)).get? m = some (c * (1 / d)) := by
    rw [get?_scale, hc]
    rfl
  have hnan := Double.isNaN_mul_iff hfinite (Double.isNaN_one_div hq hne)
  have hreciprocal : Scalar.isFinite (1 / d) = false ↔ |q| ≤ 2 ^ (-1024 : Int) := by
    rw [← Bool.not_eq_true, Double.isFinite_one_div_iff hq hne, not_lt]
  refine ⟨c * (1 / d), hscaled, by rw [hnan, hreciprocal], fun hc hdefined => ?_⟩
  refine Double.mul_beq_zero hc ?_
  rw [← Bool.not_eq_true, hnan, not_and, Bool.not_eq_false] at hdefined
  exact hdefined hc

/-- The least double above zero. -/
def least : Float := Float.ofBits 1

/-- `0 * x + y`, as it is stored after `x` has cancelled. -/
def withCancelled : Expr Float where
  terms := { entries := [(.single ⟨"x"⟩, 0.0), (.single ⟨"y"⟩, 1.0)], sorted := by decide }

/-- What becomes of the zero of `x` depends on the divisor alone. -/
theorem isNaN_div?_iff_withCancelled :
    ∃ (q : Rat) (r : Expr Float), Double.number least = .finite q ∧
      withCancelled.div? (.scalar least) = .ok r ∧ r.terms.keys = withCancelled.terms.keys ∧
      ∃ c, r.get? (.single ⟨"x"⟩) = some c ∧ (c.isNaN = true ↔ |q| ≤ 2 ^ (-1024 : Int)) := by
  have hfinite : ∀ t ∈ withCancelled.terms.entries, Scalar.isFinite t.2 = true := by decide
  have hzero : ((0.0 : Float) == 0) = true := by decide
  obtain ⟨q, r, hq, hr, hkeys, hcoefficients⟩ :=
    isNaN_div?_iff hfinite (by decide : Scalar.isFinite least = true) (by decide)
  obtain ⟨c, hc, hnan, _⟩ := hcoefficients (.single ⟨"x"⟩) 0.0 (by decide)
  exact ⟨q, r, hq, hr, hkeys, c, hc, hnan.trans (and_iff_right hzero)⟩

/-- **A zero that becomes undefined**: the coefficient that has cancelled, divided by the
least double above zero. -/
theorem exists_isNaN_div? :
    (∀ t ∈ withCancelled.terms.entries, Scalar.isFinite t.2 = true) ∧
    Scalar.isFinite least = true ∧ (least == 0) = false ∧
    ∃ r, withCancelled.div? (.scalar least) = .ok r ∧
      withCancelled.get? (.single ⟨"x"⟩) = some 0.0 ∧
      ∃ c, r.get? (.single ⟨"x"⟩) = some c ∧ c.isNaN = true := by
  refine ⟨by decide, by decide, by decide, _, rfl, by decide, _, rfl, ?_⟩
  decide

end Expr

end PolyRow
