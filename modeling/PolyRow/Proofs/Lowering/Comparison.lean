import Mathlib
import PolyRow.Proofs.Bounds.Independence
import PolyRow.Proofs.Double.Zero
import PolyRow.Proofs.Lowering.Partition

/-!
# Rows of comparisons

A comparison moves the constant of the difference of its sides into its bounds and
leaves no constant behind, so its row has nothing left to shift by: the bounds reach
the row with every bit they had. One number is on both sides of an equation and an
infinity on the far side of an inequality, so the sides of the row are never crossed;
they are refused only if that number is undefined, which finite coefficients exclude.

## Main results

* `Lowered.constant_of_compare`: the terms of a comparison are lowered without a
  constant.
* `Bounds.isValid_boundsFor`: bounds made of one number are valid unless it is
  undefined.
* `ConstraintRow.ofExpr_compare`: the row of a comparison, or its error.
* `ConstraintRow.ofExpr_compare_unrounded`: all of this in one statement.
-/

namespace PolyRow

/-! ## No constant to shift by -/

/-- Nothing is added to the constant of a lowered comparison. -/
theorem Lowered.constant_of_compare {κ : Type} [Scalar κ] {a : Expr κ} {b : Operand κ}
    {s : ComparisonSense} {config : LowerConfig κ} {l : Lowered κ}
    (h : ofExpr (a.compare b s) config = .ok l) : l.constant = 0 := by
  obtain ⟨_, rfl⟩ := ofExpr_eq_ok_iff.1 h
  have hconstant := constant_ofTerms ((a.compare b s).kept config)
  rw [Expr.get?_kept_compare_one] at hconstant
  exact hconstant

namespace Bounds

/-- A shift by zero changes no bit of the bounds. -/
theorem shifted_zero (b : Bounds Float) : b.shifted 0 = b := by
  obtain ⟨l, u⟩ := b
  show (⟨l - 0, u - 0⟩ : Bounds Float) = ⟨l, u⟩
  rw [Double.sub_zero_eq, Double.sub_zero_eq]

/-- **Bounds made of one number are valid unless it is undefined.** -/
theorem isValid_boundsFor (s : ComparisonSense) (t : Float) :
    (ofOptions (s.boundsFor t).1 (s.boundsFor t).2).isValid = !t.isNaN := by
  have hnumber : t.isNaN = false ↔ Double.number t ≠ .undefined := by
    rw [← Bool.not_eq_true, Double.isNaN_iff]
  rw [Bool.eq_iff_iff, Bool.not_eq_true', hnumber]
  show decide (_ ≤ _) = true ↔ _
  rw [decide_eq_true_iff, Double.le_iff_number]
  cases s with
  | lessEqual =>
      show Double.number (-ExtendedScalar.infinity) ≤ Double.number t ↔ _
      rw [Double.number_neg, Double.number_infinity]
      exact ExtendedRat.negInfinity_le_iff
  | greaterEqual =>
      show Double.number t ≤ Double.number ExtendedScalar.infinity ↔ _
      rw [Double.number_infinity]
      exact ExtendedRat.le_infinity_iff
  | equal => exact ExtendedRat.le_self_iff

end Bounds

/-! ## The constant of a difference -/

namespace Double

/-- The negation of what is undefined is undefined. -/
theorem isNaN_zero_sub (x : Float) : (0 - x).isNaN = x.isNaN := by
  rw [Bool.eq_iff_iff, isNaN_iff, isNaN_iff, number_zero_sub]
  cases number x <;> simp [Neg.neg, ExtendedRat.neg]

end Double

/-- Finite coefficients have a defined difference, be it infinite. -/
theorem Expr.isNaN_constant_minus {a : Expr Float} {b : Operand Float}
    (ha : ∀ t ∈ a.terms.entries, Scalar.isFinite t.2 = true)
    (hb : ∀ t ∈ b.toExpr.terms.entries, Scalar.isFinite t.2 = true) :
    (a.minus b).constant.isNaN = false := by
  have hleft {c : Float} (hc : a.get? 1 = some c) : Scalar.isFinite c = true :=
    ha (1, c) (Terms.get?_eq_some_iff.1 hc)
  have hright {d : Float} (hd : b.toExpr.get? 1 = some d) : Scalar.isFinite (d * -1) = true :=
    Double.isFinite_mul_neg_one (hb (1, d) (Terms.get?_eq_some_iff.1 hd))
  unfold constant coefficient
  rw [get?_minus]
  cases hc : a.get? 1 with
  | none =>
      cases hd : b.toExpr.get? 1 with
      | none => decide
      | some d => exact Double.isNaN_add (by decide) (hright hd)
  | some c =>
      cases hd : b.toExpr.get? 1 with
      | none => exact Double.isNaN_eq_false (hleft hc)
      | some d => exact Double.isNaN_add (hleft hc) (hright hd)

/-! ## Rows -/

namespace ConstraintRow

variable {a : Expr Float} {b : Operand Float} {s : ComparisonSense} {config : LowerConfig Float}

/-- **The row of a comparison has the very bounds of the comparison.** There is no row
only if they are undefined. -/
theorem ofExpr_compare {l : Lowered Float}
    (h : Lowered.ofExpr (a.compare b s) config = .ok l) :
    ofExpr (a.compare b s) config =
      if (a.minus b).constant.isNaN then
        .error (.invalidBounds
          (Bounds.ofOptions (a.compare b s).lower (a.compare b s).upper).lower
          (Bounds.ofOptions (a.compare b s).lower (a.compare b s).upper).upper)
      else
        .ok { terms := l, bounds := .ofOptions (a.compare b s).lower (a.compare b s).upper } := by
  have hconstant := Lowered.constant_of_compare h
  have hbounds : boundsOf (a.compare b s) l =
      .ofOptions (a.compare b s).lower (a.compare b s).upper := by
    unfold boundsOf
    rw [hconstant]
    exact Bounds.shifted_zero _
  have hvalid : (boundsOf (a.compare b s) l).isValid = !(a.minus b).constant.isNaN := by
    rw [hbounds, ← Double.isNaN_zero_sub]
    exact Bounds.isValid_boundsFor s (0 - (a.minus b).constant)
  have hterms : ({ l with constant := (0 : Float) } : Lowered Float) = l := by
    obtain ⟨c, linear, bilinear, higher⟩ := l
    obtain rfl : c = 0 := hconstant
    rfl
  unfold ofExpr
  rw [h]
  show (if (boundsOf (a.compare b s) l).isValid then
    Except.ok (ConstraintRow.mk { l with constant := (0 : Float) } (boundsOf (a.compare b s) l))
      else _) = _
  rw [hvalid, hterms, hbounds]
  cases (a.minus b).constant.isNaN <;> rfl

/-- Comparisons of expressions with finite coefficients are never refused for their
bounds. -/
theorem ofExpr_compare_ne_invalidBounds
    (ha : ∀ t ∈ a.terms.entries, Scalar.isFinite t.2 = true)
    (hb : ∀ t ∈ b.toExpr.terms.entries, Scalar.isFinite t.2 = true) (lower upper : Float) :
    ofExpr (a.compare b s) config ≠ .error (.invalidBounds lower upper) := by
  intro herror
  obtain ⟨l, hl, _⟩ := boundsOf_invalid_of_ofExpr herror
  have hrow := ofExpr_compare hl
  rw [Expr.isNaN_constant_minus ha hb, herror] at hrow
  exact nomatch hrow

/-- **The bounds of a comparison reach its row unrounded.** A comparison has the terms of
the difference of its sides but the constant, and the sense selects the sides that are
bounded by what the constant takes from zero, which is no negative zero. If the terms can
be lowered, no constant is among them, and there is no row exactly when the constant is
undefined; else the row has the bounds of the comparison, bit for bit, and an infinity
where there is none. So finite coefficients are never refused for their bounds. -/
theorem ofExpr_compare_unrounded (a : Expr Float) (b : Operand Float) (s : ComparisonSense)
    (config : LowerConfig Float) :
    (∀ m, (a.compare b s).get? m = if m = 1 then none else (a.minus b).get? m) ∧
    ((a.compare b s).lower =
        (if s = .lessEqual then none else some (0 - (a.minus b).constant)) ∧
      (a.compare b s).upper =
        (if s = .greaterEqual then none else some (0 - (a.minus b).constant)) ∧
      0 - (a.minus b).constant ≠ -0) ∧
    (∀ l, Lowered.ofExpr (a.compare b s) config = .ok l →
      l.constant = 0 ∧
      ofExpr (a.compare b s) config =
        if (a.minus b).constant.isNaN then
          .error (.invalidBounds
            ((a.compare b s).lower.getD (-ExtendedScalar.infinity))
            ((a.compare b s).upper.getD ExtendedScalar.infinity))
        else
          .ok {
            terms := l
            bounds := {
              lower := (a.compare b s).lower.getD (-ExtendedScalar.infinity)
              upper := (a.compare b s).upper.getD ExtendedScalar.infinity } }) ∧
    ((∀ t ∈ a.terms.entries, Scalar.isFinite t.2 = true) →
      (∀ t ∈ b.toExpr.terms.entries, Scalar.isFinite t.2 = true) →
      ∀ lower upper, ofExpr (a.compare b s) config ≠ .error (.invalidBounds lower upper)) := by
  obtain ⟨hlower, hupper⟩ := Expr.sides_compare a b s
  refine ⟨fun m => (a.minus b).terms.get?_erase 1 m,
    ⟨hlower, hupper, Double.zero_sub_ne_negZero _⟩, ?_, ?_⟩
  · intro l hl
    exact ⟨Lowered.constant_of_compare hl, ofExpr_compare hl⟩
  · exact ofExpr_compare_ne_invalidBounds

/-- `2 * x + 3`. -/
def twiceAndThree : Expr Float where
  terms := { entries := [(1, 3.0), (.single ⟨"x"⟩, 2.0)], sorted := by decide }

/-- `x + 1`. -/
def onceAndOne : Expr Float where
  terms := { entries := [(1, 1.0), (.single ⟨"x"⟩, 1.0)], sorted := by decide }

/-- `x` plus infinity. -/
def beyondAll : Expr Float where
  terms := { entries := [(1, ExtendedScalar.infinity), (.single ⟨"x"⟩, 1.0)], sorted := by decide }

private theorem exists_lowered_compare :
    (∃ l, Lowered.ofExpr (twiceAndThree.compare (.expr onceAndOne) .greaterEqual) {} = .ok l) ∧
      ∃ l, Lowered.ofExpr (beyondAll.compare (.expr beyondAll) .equal) {} = .ok l := by
  unfold Expr.compare
  rw [Expr.minus_expr_eq_foldl, Expr.minus_expr_eq_foldl]
  exact ⟨⟨_, rfl⟩, _, rfl⟩

private theorem constant_minus_eq :
    (twiceAndThree.minus (.expr onceAndOne)).constant = 2.0 ∧
      (beyondAll.minus (.expr beyondAll)).constant.isNaN = true := by
  unfold Expr.constant Expr.coefficient
  rw [Expr.get?_minus, Expr.get?_minus]
  decide

/-- The row of `2 * x + 3 ≥ x + 1` is bounded by the very `-2` from below; infinity less
infinity leaves no row. -/
theorem ofExpr_compare_unrounded_twiceAndThree :
    (∃ l, Lowered.ofExpr (twiceAndThree.compare (.expr onceAndOne) .greaterEqual) {} = .ok l ∧
      l.constant = 0 ∧
      ofExpr (twiceAndThree.compare (.expr onceAndOne) .greaterEqual) {} =
        .ok { terms := l, bounds := { lower := -2.0, upper := ExtendedScalar.infinity } }) ∧
    ((∀ t ∈ twiceAndThree.terms.entries, Scalar.isFinite t.2 = true) ∧
      (∀ t ∈ onceAndOne.terms.entries, Scalar.isFinite t.2 = true) ∧
      ∀ lower upper, ofExpr (twiceAndThree.compare (.expr onceAndOne) .greaterEqual) {} ≠
        .error (.invalidBounds lower upper)) ∧
    ∃ l, Lowered.ofExpr (beyondAll.compare (.expr beyondAll) .equal) {} = .ok l ∧
      ∃ lower upper, ofExpr (beyondAll.compare (.expr beyondAll) .equal) {} =
        .error (.invalidBounds lower upper) := by
  obtain ⟨⟨l, hl⟩, l', hl'⟩ := exists_lowered_compare
  obtain ⟨hconstant, hundefined⟩ := constant_minus_eq
  obtain ⟨-, ⟨hlower, hupper, -⟩, hrow, hnever⟩ :=
    ofExpr_compare_unrounded twiceAndThree (.expr onceAndOne) .greaterEqual {}
  obtain ⟨-, -, hnone, -⟩ := ofExpr_compare_unrounded beyondAll (.expr beyondAll) .equal {}
  obtain ⟨hzero, hok⟩ := hrow l hl
  obtain ⟨-, herror⟩ := hnone l' hl'
  have hthreshold : (0 : Float) - 2.0 = -2.0 := by decide
  rw [hconstant, hthreshold] at hlower
  rw [hlower, hupper, hconstant] at hok
  rw [hundefined] at herror
  have hleft : ∀ t ∈ twiceAndThree.terms.entries, Scalar.isFinite t.2 = true := by decide
  have hright : ∀ t ∈ onceAndOne.terms.entries, Scalar.isFinite t.2 = true := by decide
  exact ⟨⟨l, hl, hzero, hok⟩, ⟨hleft, hright, hnever hleft hright⟩, l', hl', _, _, herror⟩

end ConstraintRow

end PolyRow
