import Mathlib
import PolyRow.Proofs.Lowering.Partition

/-!
# Bounds that overflow

A constant that is left in an expression moves into the bounds of its row. Over
doubles the difference may lie beyond the range, and then a bound that was set
comes out infinite. Nothing refuses such a row: infinite sides are neither
undefined nor crossed.

## Main results

* `Double.isFinite_sub_iff`: when the difference with a finite double is finite.
* `ConstraintRow.isFinite_bounds_iff`, `ConstraintRow.isFinite_bounds_compare_iff`:
  which sides of a row are finite.
* `ConstraintRow.finite_side_iff_in_range`: a finite bound is lost by overflow alone.
* `ConstraintRow.exists_free_row_of_finite_bound`: it can be lost.
-/

namespace PolyRow

namespace Double

/-- The numbers that finite doubles stand for lie within the range. -/
theorem abs_lt_of_number_eq {x : Float} {q : Rat} (h : number x = .finite q) :
    |q| < 2 ^ 1024 - 2 ^ 970 := by
  have hrounded := rounded_number x
  rw [h] at hrounded
  exact nearest_eq_finite_iff.1 ⟨q, hrounded⟩

/-- **A difference with a finite double is finite** if the other one is finite, too,
and the exact difference lies within the range. -/
theorem isFinite_sub_iff {x y : Float} {k : Rat} (hy : number y = .finite k) :
    Scalar.isFinite (x - y) = true ↔
      ∃ q, number x = .finite q ∧ |q - k| < 2 ^ 1024 - 2 ^ 970 := by
  rw [isFinite_iff, number_sub, hy]
  cases number x with
  | finite q =>
      show (∃ r, nearest (q + -k) = .finite r) ↔ _
      rw [nearest_eq_finite_iff, ← sub_eq_add_neg]
      constructor
      · intro h
        exact ⟨q, rfl, h⟩
      · rintro ⟨p, hp, h⟩
        rw [ExtendedRat.finite.inj hp]
        exact h
  | infinity => exact iff_of_false (fun ⟨_, h⟩ => nomatch h) fun ⟨_, h, _⟩ => nomatch h
  | negInfinity => exact iff_of_false (fun ⟨_, h⟩ => nomatch h) fun ⟨_, h, _⟩ => nomatch h
  | undefined => exact iff_of_false (fun ⟨_, h⟩ => nomatch h) fun ⟨_, h, _⟩ => nomatch h

end Double

namespace ConstraintRow

variable {config : LowerConfig Float} {row : ConstraintRow Float}

/-- **Which sides of a row are finite.** The constant that is kept is finite, and a
side is finite exactly when the expression has a finite bound there whose distance
from the constant lies within the range of doubles. -/
theorem isFinite_bounds_iff {e : Expr Float} (h : ofExpr e config = .ok row) :
    ∃ k : Rat, Double.number (e.kept config).constant = .finite k ∧
      (Scalar.isFinite row.bounds.lower = true ↔
        ∃ b ∈ e.lower, ∃ q, Double.number b = .finite q ∧ |q - k| < 2 ^ 1024 - 2 ^ 970) ∧
      (Scalar.isFinite row.bounds.upper = true ↔
        ∃ b ∈ e.upper, ∃ q, Double.number b = .finite q ∧ |q - k| < 2 ^ 1024 - 2 ^ 970) := by
  obtain ⟨l, hl, _, rfl⟩ := ofExpr_eq_ok_iff.1 h
  obtain ⟨k, hk⟩ := Double.isFinite_iff.1 (Lowered.isFinite_constant_kept hl)
  have hconstant : Double.number l.constant = .finite k := (Lowered.number_constant hl).trans hk
  refine ⟨k, hk, ?_, ?_⟩
  · show Scalar.isFinite (e.lower.getD (-ExtendedScalar.infinity) - l.constant) = true ↔ _
    rw [Double.isFinite_sub_iff hconstant]
    cases e.lower with
    | none =>
        rw [Option.getD_none, Double.number_neg, Double.number_infinity]
        exact iff_of_false (fun ⟨_, hq, _⟩ => nomatch hq) fun ⟨_, hb, _⟩ => nomatch hb
    | some b => simp
  · show Scalar.isFinite (e.upper.getD ExtendedScalar.infinity - l.constant) = true ↔ _
    rw [Double.isFinite_sub_iff hconstant]
    cases e.upper with
    | none =>
        rw [Option.getD_none, Double.number_infinity]
        exact iff_of_false (fun ⟨_, hq, _⟩ => nomatch hq) fun ⟨_, hb, _⟩ => nomatch hb
    | some b => simp

/-- **Which sides of a comparison are finite**: those that the sense selects, if the
constant of the difference is finite. -/
theorem isFinite_bounds_compare_iff {a : Expr Float} {b : Operand Float} {s : ComparisonSense}
    (h : ofExpr (a.compare b s) config = .ok row) :
    (Scalar.isFinite row.bounds.lower = true ↔
      s ≠ .lessEqual ∧ Scalar.isFinite (a.minus b).constant = true) ∧
    (Scalar.isFinite row.bounds.upper = true ↔
      s ≠ .greaterEqual ∧ Scalar.isFinite (a.minus b).constant = true) := by
  obtain ⟨k, hk, hlower, hupper⟩ := isFinite_bounds_iff h
  have hzero : (0 : Rat) = k := by
    unfold Expr.constant Expr.coefficient at hk
    rw [Expr.get?_kept_compare_one] at hk
    exact ExtendedRat.finite.inj hk
  subst hzero
  -- No constant is left, so a side is finite if the bound is.
  have hside : (∃ q, Double.number (0 - (a.minus b).constant) = .finite q ∧
      |q - 0| < 2 ^ 1024 - 2 ^ 970) ↔ Scalar.isFinite (a.minus b).constant = true := by
    rw [Double.isFinite_iff]
    constructor
    · rintro ⟨q, hq, _⟩
      rw [Double.number_zero_sub] at hq
      refine ⟨-q, ?_⟩
      rw [← ExtendedRat.neg_neg (Double.number _), hq]
      rfl
    · rintro ⟨q, hq⟩
      have hnegation : Double.number (0 - (a.minus b).constant) = .finite (-q) := by
        rw [Double.number_zero_sub, hq]
        rfl
      refine ⟨-q, hnegation, ?_⟩
      rw [sub_zero]
      exact Double.abs_lt_of_number_eq hnegation
  have hbounds : (a.compare b s).lower = (s.boundsFor (0 - (a.minus b).constant)).1 ∧
      (a.compare b s).upper = (s.boundsFor (0 - (a.minus b).constant)).2 := ⟨rfl, rfl⟩
  rw [hlower, hupper, hbounds.1, hbounds.2, ← hside]
  cases s <;> simp [ComparisonSense.boundsFor]

/-- **A finite bound is lost by overflow alone.** A side of a row is finite exactly
when the expression has a finite bound there whose distance from the constant that
is kept lies within the range of doubles; if the expression is a comparison, when
the sense selects the side and the constant of the difference is finite. -/
theorem finite_side_iff_in_range {e : Expr Float} (h : ofExpr e config = .ok row) :
    (∃ k : Rat, Double.number (e.kept config).constant = .finite k ∧
      (Scalar.isFinite row.bounds.lower = true ↔
        ∃ b ∈ e.lower, ∃ q, Double.number b = .finite q ∧ |q - k| < 2 ^ 1024 - 2 ^ 970) ∧
      (Scalar.isFinite row.bounds.upper = true ↔
        ∃ b ∈ e.upper, ∃ q, Double.number b = .finite q ∧ |q - k| < 2 ^ 1024 - 2 ^ 970)) ∧
    ∀ (a : Expr Float) (b : Operand Float) (s : ComparisonSense), e = a.compare b s →
      (Scalar.isFinite row.bounds.lower = true ↔
        s ≠ .lessEqual ∧ Scalar.isFinite (a.minus b).constant = true) ∧
      (Scalar.isFinite row.bounds.upper = true ↔
        s ≠ .greaterEqual ∧ Scalar.isFinite (a.minus b).constant = true) := by
  refine ⟨isFinite_bounds_iff h, ?_⟩
  intro a b s he
  subst he
  exact isFinite_bounds_compare_iff h

/-! ## Finite bounds that are lost -/

/-- The double nearest to `1e308`. -/
def large : Float := Float.ofBits 0x7FE1CCF385EBC8A0

/-- `x - 1e308`, at most `1e308`. -/
def nearTheEnd : Expr Float where
  terms := { entries := [(1, -large), (.single ⟨"x"⟩, 1.0)], sorted := by decide }
  upper := some large

/-- `x + 1e308`. -/
def aboveTheEnd : Expr Float where
  terms := { entries := [(1, large), (.single ⟨"x"⟩, 1.0)], sorted := by decide }

/-- `-1e308`. -/
def belowTheEnd : Expr Float where
  terms := { entries := [(1, -large)], sorted := by decide }

private theorem exists_row_nearTheEnd :
    ∃ row, ofExpr nearTheEnd {} = .ok row ∧ row.bounds.isFree = true :=
  ⟨_, rfl, rfl⟩

private theorem exists_row_compare :
    ∃ row, ofExpr (aboveTheEnd.compare (.expr belowTheEnd) .greaterEqual) {} = .ok row ∧
      row.bounds.isFree = true := by
  unfold Expr.compare
  rw [Expr.minus_expr_eq_foldl]
  exact ⟨_, rfl, rfl⟩

theorem finite_side_iff_in_range_atTheEnd :
    (∃ row, ofExpr nearTheEnd {} = .ok row ∧
      ∃ k : Rat, Double.number (nearTheEnd.kept {}).constant = .finite k ∧
        (Scalar.isFinite row.bounds.upper = true ↔
          ∃ b ∈ nearTheEnd.upper, ∃ q, Double.number b = .finite q ∧
            |q - k| < 2 ^ 1024 - 2 ^ 970)) ∧
    ∃ row, ofExpr (aboveTheEnd.compare (.expr belowTheEnd) .greaterEqual) {} = .ok row ∧
      (Scalar.isFinite row.bounds.lower = true ↔
        ComparisonSense.greaterEqual ≠ .lessEqual ∧
          Scalar.isFinite (aboveTheEnd.minus (.expr belowTheEnd)).constant = true) := by
  obtain ⟨row, hrow, _⟩ := exists_row_nearTheEnd
  obtain ⟨row', hrow', _⟩ := exists_row_compare
  obtain ⟨⟨k, hk, _, hupper⟩, _⟩ := finite_side_iff_in_range hrow
  obtain ⟨_, hcompare⟩ := finite_side_iff_in_range hrow'
  exact ⟨⟨row, hrow, k, hk, hupper⟩, row', hrow', (hcompare _ _ _ rfl).1⟩

/-- Though all coefficients are finite and a finite bound is set, by hand or by a
comparison, the row may be free. -/
theorem exists_free_row_of_finite_bound :
    ((∀ t ∈ nearTheEnd.terms.entries, Scalar.isFinite t.2 = true) ∧
      nearTheEnd.upper = some large ∧ Scalar.isFinite large = true ∧
      ∃ row, ofExpr nearTheEnd {} = .ok row ∧ row.bounds.isFree = true) ∧
    (∀ t ∈ aboveTheEnd.terms.entries, Scalar.isFinite t.2 = true) ∧
    (∀ t ∈ belowTheEnd.terms.entries, Scalar.isFinite t.2 = true) ∧
    ∃ row, ofExpr (aboveTheEnd.compare (.expr belowTheEnd) .greaterEqual) {} = .ok row ∧
      row.bounds.isFree = true := by
  refine ⟨⟨by decide, rfl, by decide, exists_row_nearTheEnd⟩, by decide, by decide, ?_⟩
  exact exists_row_compare

end ConstraintRow

end PolyRow
