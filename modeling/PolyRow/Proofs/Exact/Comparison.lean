import Mathlib
import PolyRow.Expr.Comparison
import PolyRow.Proofs.Exact.Value

/-!
# Comparisons as constraints

A comparison of two operands becomes one bounded expression. Over exact rationals
the relation between the two values and the bounds on the value of that
expression are the same condition on the point: the difference of the two sides
is split into its constant, which moves across the relation into a bound, and
the rest.

## Main results

* `Expr.coefficient_minus`: a difference has the difference of the coefficients.
* `Expr.value_compare`: the value of a comparison is the difference of the sides
  without its constant.
* `Expr.relates_iff_admits`: the relation and the bounds.
* `Expr.compare_equivalent`: the same through evaluation, with the constants of
  both sides in the bounds alone.
-/

namespace PolyRow

/-- The relation that a sense stands for. -/
def ComparisonSense.Relates (s : ComparisonSense) (p q : Rat) : Prop :=
  match s with
  | .lessEqual => p ≤ q
  | .greaterEqual => p ≥ q
  | .equal => p = q

namespace Expr

/-- A value lies within the bounds that are set. -/
def Admits {κ : Type} [LE κ] (e : Expr κ) (t : κ) : Prop :=
  (∀ l ∈ e.lower, l ≤ t) ∧ (∀ u ∈ e.upper, t ≤ u)

/-! ## Coefficients -/

theorem coefficient_add (a b : Expr Rat) (m : Monomial) :
    (a.add b).coefficient m = a.coefficient m + b.coefficient m := by
  unfold coefficient
  rw [get?_add]
  cases a.get? m <;> cases b.get? m <;> simp [Terms.addFound]

theorem coefficient_scale (e : Expr Rat) (c : Rat) (m : Monomial) :
    (e.scale c).coefficient m = e.coefficient m * c := by
  unfold coefficient
  rw [get?_scale]
  cases e.get? m <;> simp

theorem coefficient_minus (e : Expr Rat) (o : Operand Rat) (m : Monomial) :
    (e.minus o).coefficient m = e.coefficient m - o.toExpr.coefficient m := by
  unfold minus
  rw [coefficient_add, coefficient_scale]
  ring

/-! ## The bounded difference -/

theorem get?_minus {κ : Type} [Scalar κ] (e : Expr κ) (o : Operand κ) (m : Monomial) :
    (e.minus o).get? m = Terms.addFound (e.get? m) ((o.toExpr.get? m).map (· * -1)) := by
  unfold minus
  rw [get?_add, get?_scale]

/-- A difference accumulates the negated terms of the second side on the first. -/
theorem minus_expr_eq_foldl {κ : Type} [Scalar κ] (e f : Expr κ) :
    e.minus (.expr f) = { terms := e.terms.accumulateAll (f.scale (-1)).terms.entries } :=
  congrArg (fun t => ({ terms := t } : Expr κ)) (Terms.add_eq_foldl _ _)

/-- A comparison stores no constant term. -/
theorem get?_compare_one {κ : Type} [Scalar κ] (e : Expr κ) (o : Operand κ)
    (s : ComparisonSense) : (e.compare o s).get? 1 = none := by
  show ((e.minus o).terms.erase 1).get? 1 = none
  rw [Terms.get?_erase, if_pos rfl]

/-- The terms of a comparison are those of the difference of both sides taken
without their constants. -/
theorem terms_compare {κ : Type} [Scalar κ] (e : Expr κ) (o : Operand κ)
    (s : ComparisonSense) :
    (e.compare o s).terms =
      (e.withoutConstant.minus (.expr o.toExpr.withoutConstant)).terms := by
  show (e.terms.add (o.toExpr.terms.map (· * -1))).erase 1 =
    (e.terms.erase 1).add ((o.toExpr.terms.erase 1).map (· * -1))
  refine Terms.ext_get? fun m => ?_
  rw [Terms.get?_erase, Terms.get?_add, Terms.get?_add, Terms.get?_map, Terms.get?_map,
    Terms.get?_erase, Terms.get?_erase]
  by_cases hm : m = 1
  · rw [if_pos hm, if_pos hm, if_pos hm]
    rfl
  · rw [if_neg hm, if_neg hm, if_neg hm]

/-- The bounds of a comparison are the constants of both sides, moved across. -/
theorem bounds_compare (e : Expr Rat) (o : Operand Rat) (s : ComparisonSense) :
    ((e.compare o s).lower, (e.compare o s).upper) =
      s.boundsFor (o.toExpr.constant - e.constant) := by
  have hconstant : 0 - (e.minus o).constant = o.toExpr.constant - e.constant := by
    unfold constant
    rw [coefficient_minus]
    ring
  rw [← hconstant]
  rfl

theorem value_compare (v : Variable → Rat) (e : Expr Rat) (o : Operand Rat)
    (s : ComparisonSense) :
    (e.compare o s).value v =
      (e.value v - e.constant) - (o.toExpr.value v - o.toExpr.constant) := by
  have herase := Terms.value_erase v (e.minus o).terms 1
  have hdifference : (e.minus o).terms.value v = e.value v - o.toExpr.value v :=
    value_minus v e o
  have hconstant : ((e.minus o).terms.get? 1).getD 0 = e.constant - o.toExpr.constant :=
    coefficient_minus e o 1
  rw [Monomial.value_one, hdifference, hconstant] at herase
  calc (e.compare o s).value v
      = e.value v - o.toExpr.value v - (e.constant - o.toExpr.constant) * 1 := herase
    _ = (e.value v - e.constant) - (o.toExpr.value v - o.toExpr.constant) := by ring

theorem covers_compare {κ : Type} [Scalar κ] {f : Variable → Option κ} {u : Variable → κ}
    {e : Expr κ} {o : Operand κ} (he : e.Covers f u) (ho : o.toExpr.Covers f u)
    (s : ComparisonSense) : (e.compare o s).Covers f u := by
  intro m hm
  have hkey : m ∈ (e.minus o).terms.keys := by
    obtain ⟨t, ht, heq⟩ := List.mem_map.1 hm
    exact List.mem_map.2 ⟨t, List.mem_of_mem_filter ht, heq⟩
  exact covers_minus he ho m hkey

/-- **The relation and the bounds are one condition.** A constant taken from both
sides of a relation does not change it. -/
theorem relates_iff_admits (v : Variable → Rat) (e : Expr Rat) (o : Operand Rat)
    (s : ComparisonSense) :
    s.Relates (e.value v) (o.toExpr.value v) ↔
      (e.compare o s).Admits ((e.compare o s).value v) := by
  have hbounds := bounds_compare e o s
  unfold Admits
  rw [value_compare]
  cases s with
  | lessEqual =>
      obtain ⟨hlower, hupper⟩ := Prod.mk.inj hbounds
      simp only [hlower, hupper, ComparisonSense.Relates, Option.mem_def, Option.some.injEq,
        forall_eq', reduceCtorEq, false_implies, implies_true, true_and]
      constructor <;> intro h <;> linarith
  | greaterEqual =>
      obtain ⟨hlower, hupper⟩ := Prod.mk.inj hbounds
      simp only [hlower, hupper, ComparisonSense.Relates, Option.mem_def, Option.some.injEq,
        forall_eq', reduceCtorEq, false_implies, implies_true, and_true]
      constructor <;> intro h <;> linarith
  | equal =>
      obtain ⟨hlower, hupper⟩ := Prod.mk.inj hbounds
      simp only [hlower, hupper, ComparisonSense.Relates, Option.mem_def, Option.some.injEq,
        forall_eq']
      constructor
      · intro h
        constructor <;> linarith
      · rintro ⟨hge, hle⟩
        linarith

/-- **A comparison is an equivalent constraint.** The constants of both sides are
in its bounds and nowhere else, and under every assignment that covers both sides
the relation between their values holds exactly when the value of the comparison
lies within its bounds. -/
theorem compare_equivalent (a : Expr Rat) (b : Operand Rat) (s : ComparisonSense) :
    (a.compare b s).get? 1 = none ∧
    (a.compare b s).terms =
      (a.withoutConstant.minus (.expr b.toExpr.withoutConstant)).terms ∧
    ((a.compare b s).lower, (a.compare b s).upper) =
      s.boundsFor (b.toExpr.constant - a.constant) ∧
    ∀ (v : Variable → Rat) (f : Variable → Option Rat),
      (∀ x ∈ a.variableList, f x = some (v x)) →
      (∀ x ∈ b.toExpr.variableList, f x = some (v x)) →
      ∃ p q r, a.evaluate f = .ok p ∧ b.toExpr.evaluate f = .ok q ∧
        (a.compare b s).evaluate f = .ok r ∧
        (s.Relates p q ↔ (a.compare b s).Admits r) := by
  refine ⟨get?_compare_one a b s, terms_compare a b s, bounds_compare a b s, ?_⟩
  intro v f ha hb
  have hleft : a.Covers f v := covers_iff.2 ha
  have hright : b.toExpr.Covers f v := covers_iff.2 hb
  exact ⟨a.value v, b.toExpr.value v, (a.compare b s).value v,
    evaluate_eq_value v hleft, evaluate_eq_value v hright,
    evaluate_eq_value v (covers_compare hleft hright s), relates_iff_admits v a b s⟩

/-- `x + 2`, to be compared with `x * y - 5`. -/
def leftSide : Expr Rat := (var ⟨"x"⟩).plus (.scalar 2)

def rightSide : Expr Rat :=
  ((var ⟨"x"⟩).times (.variable ⟨"y"⟩)).plus (.scalar (-5))

/-- The values of `x` and `y`, and of nothing else. -/
def fourAndTwo (z : Variable) : Option Rat :=
  if z = ⟨"x"⟩ then some 4 else if z = ⟨"y"⟩ then some 2 else none

theorem compare_equivalent_leftSide_rightSide :
    (∀ z ∈ leftSide.variableList, fourAndTwo z = some ((fourAndTwo z).getD 0)) ∧
    (∀ z ∈ rightSide.variableList, fourAndTwo z = some ((fourAndTwo z).getD 0)) ∧
    ∃ p q r, leftSide.evaluate fourAndTwo = .ok p ∧
      rightSide.evaluate fourAndTwo = .ok q ∧
      (leftSide.compare (.expr rightSide) .greaterEqual).evaluate fourAndTwo = .ok r ∧
      (ComparisonSense.greaterEqual.Relates p q ↔
        (leftSide.compare (.expr rightSide) .greaterEqual).Admits r) := by
  have hleftList : leftSide.variableList = [⟨"x"⟩] := by cbv
  have hrightList : rightSide.variableList = [⟨"x"⟩, ⟨"y"⟩] := by cbv
  have hleft : ∀ z ∈ leftSide.variableList,
      fourAndTwo z = some ((fourAndTwo z).getD 0) := by rw [hleftList]; decide
  have hright : ∀ z ∈ rightSide.variableList,
      fourAndTwo z = some ((fourAndTwo z).getD 0) := by rw [hrightList]; decide
  obtain ⟨_, _, _, hequivalent⟩ :=
    compare_equivalent leftSide (.expr rightSide) .greaterEqual
  exact ⟨hleft, hright, hequivalent _ fourAndTwo hleft hright⟩

end Expr

end PolyRow
