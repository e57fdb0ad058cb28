import Mathlib
import PolyRow.Proofs.Exact.Comparison

/-!
# Expressions as polynomials

An exact expression is a polynomial in the variables, written in a normal form
that may store zero coefficients. The polynomial has the same coefficients and
the same values, and a polynomial over the rationals is determined by its values.
So two expressions with equal values have equal coefficients, and every law of
the algebra follows from the same law of numbers: nothing has to be said about
how terms are sorted, merged or left behind.

## Main results

* `Monomial.exponents_injective`: a monomial is its exponents.
* `Expr.eval_toMvPolynomial`, `Expr.coeff_toMvPolynomial`: the polynomial of an
  expression has its values and its coefficients.
* `Expr.coefficient_eq_of_value_eq`: equal values, equal coefficients.
* `Expr.ring_laws`: expressions form a commutative ring up to zero entries.
-/

namespace PolyRow

open MvPolynomial

/-! ## Monomials -/

namespace Monomial

/-- How often each variable is a factor. -/
noncomputable def exponents (m : Monomial) : Variable →₀ ℕ :=
  Multiset.toFinsupp (m.factors : Multiset Variable)

theorem exponents_apply (m : Monomial) (x : Variable) : m.exponents x = m.factors.count x :=
  Multiset.coe_count x m.factors

/-- **A monomial is its exponents**: factors that occur equally often come in the
same order. -/
theorem exponents_injective : Function.Injective exponents := by
  intro m n h
  have hperm : m.factors.Perm n.factors := by
    rw [List.perm_iff_count]
    intro x
    rw [← exponents_apply, ← exponents_apply, h]
  rw [← ofList_factors m, ← ofList_factors n, ofList_eq_of_perm hperm]

/-- The product of the factors as a polynomial. -/
theorem prod_map_X (m : Monomial) :
    (m.factors.map X).prod = (monomial m.exponents 1 : MvPolynomial Variable ℚ) := by
  unfold exponents
  induction m.factors with
  | nil => simp
  | cons x rest ih =>
      have hcons : ((x :: rest : List Variable) : Multiset Variable) = {x} + ↑rest := rfl
      rw [List.map_cons, List.prod_cons, ih, hcons, map_add, Multiset.toFinsupp_singleton,
        X, monomial_mul, one_mul]

end Monomial

namespace Expr

/-! ## The polynomial of an expression -/

/-- The polynomial of a list of terms. -/
noncomputable def polynomialOf (es : List (Monomial × Rat)) : MvPolynomial Variable ℚ :=
  (es.map fun t => monomial t.1.exponents t.2).sum

/-- The polynomial that an expression stands for; bounds play no part. -/
noncomputable def toMvPolynomial (e : Expr Rat) : MvPolynomial Variable ℚ :=
  polynomialOf e.terms.entries

private theorem eval_polynomialOf (v : Variable → Rat) (es : List (Monomial × Rat)) :
    eval v (polynomialOf es) = Terms.entriesValue v es := by
  unfold polynomialOf
  induction es with
  | nil => simp
  | cons t rest ih =>
      have hterm : eval v (monomial t.1.exponents t.2) = t.2 * t.1.value v := by
        rw [← mul_one t.2, ← C_mul_monomial, ← Monomial.prod_map_X, map_mul, eval_C, map_list_prod,
          List.map_map, mul_one]
        have hvalues : (eval v : MvPolynomial Variable ℚ → ℚ) ∘ X = v := funext fun x => eval_X x
        rw [hvalues]
        rfl
      rw [List.map_cons, List.sum_cons, map_add, ih, hterm, Terms.entriesValue_cons]

theorem eval_toMvPolynomial (v : Variable → Rat) (e : Expr Rat) :
    eval v e.toMvPolynomial = e.value v :=
  eval_polynomialOf v e.terms.entries

private theorem coeff_polynomialOf (m : Monomial) (es : List (Monomial × Rat)) :
    coeff m.exponents (polynomialOf es) = (Terms.coefficientsOf es m).sum := by
  unfold polynomialOf
  induction es with
  | nil => simp [Terms.coefficientsOf]
  | cons t rest ih =>
      rw [List.map_cons, List.sum_cons, coeff_add, coeff_monomial, ih, Terms.coefficientsOf_cons]
      by_cases hm : t.1 = m
      · rw [if_pos hm, if_pos (congrArg Monomial.exponents hm), List.sum_cons]
      · rw [if_neg hm, if_neg fun h => hm (Monomial.exponents_injective h), zero_add]

theorem coeff_toMvPolynomial (e : Expr Rat) (m : Monomial) :
    coeff m.exponents e.toMvPolynomial = e.coefficient m := by
  have hentries : Terms.coefficientsOf e.terms.entries m = (e.get? m).toList :=
    Terms.coefficientsOf_eq_toList e.terms.sorted m
  unfold toMvPolynomial coefficient
  rw [coeff_polynomialOf, hentries]
  cases e.get? m <;> simp

/-- **Equal values, equal coefficients.** -/
theorem coefficient_eq_of_value_eq {a b : Expr Rat} (h : ∀ v, a.value v = b.value v)
    (m : Monomial) : a.coefficient m = b.coefficient m := by
  have hpolynomial : a.toMvPolynomial = b.toMvPolynomial := by
    refine MvPolynomial.funext fun v => ?_
    rw [eval_toMvPolynomial, eval_toMvPolynomial, h]
  rw [← coeff_toMvPolynomial, ← coeff_toMvPolynomial, hpolynomial]

/-! ## The laws of a commutative ring -/

section Laws

variable (a b c : Expr Rat) (m : Monomial)

theorem coefficient_plus_assoc :
    ((a.plus (.expr b)).plus (.expr c)).coefficient m =
      (a.plus (.expr (b.plus (.expr c)))).coefficient m := by
  refine coefficient_eq_of_value_eq (fun v => ?_) m
  simp only [value_plus, Operand.toExpr]
  ring

theorem coefficient_plus_comm :
    (a.plus (.expr b)).coefficient m = (b.plus (.expr a)).coefficient m := by
  refine coefficient_eq_of_value_eq (fun v => ?_) m
  simp only [value_plus, Operand.toExpr]
  ring

theorem coefficient_times_comm :
    (a.times (.expr b)).coefficient m = (b.times (.expr a)).coefficient m := by
  refine coefficient_eq_of_value_eq (fun v => ?_) m
  simp only [value_times, Operand.toExpr]
  ring

theorem coefficient_times_assoc :
    ((a.times (.expr b)).times (.expr c)).coefficient m =
      (a.times (.expr (b.times (.expr c)))).coefficient m := by
  refine coefficient_eq_of_value_eq (fun v => ?_) m
  simp only [value_times, Operand.toExpr]
  ring

theorem coefficient_plus_times :
    ((a.plus (.expr b)).times (.expr c)).coefficient m =
      ((a.times (.expr c)).plus (.expr (b.times (.expr c)))).coefficient m := by
  refine coefficient_eq_of_value_eq (fun v => ?_) m
  simp only [value_plus, value_times, Operand.toExpr]
  ring

theorem coefficient_times_one :
    (a.times (.expr (const 1))).coefficient m = a.coefficient m := by
  refine coefficient_eq_of_value_eq (fun v => ?_) m
  simp only [value_times, Operand.toExpr, value_const]
  ring

/-- Everything cancels; the entries stay. -/
theorem coefficient_minus_self : (a.minus (.expr a)).coefficient m = 0 := by
  rw [coefficient_minus]
  exact sub_self _

/-- What an expression was multiplied with is divided out again. -/
theorem coefficient_div?_times {k : Rat} (hk : k ≠ 0) :
    ∃ q, (a.times (.scalar k)).div? (.scalar k) = .ok q ∧ q.coefficient m = a.coefficient m := by
  have hquotient : (a.times (.scalar k)).div? (.scalar k) = .ok ((a.scale k).scale (1 / k)) := by
    show (if k == 0 then _ else _) = _
    rw [if_neg (by simpa using hk)]
    rfl
  refine ⟨_, hquotient, ?_⟩
  rw [coefficient_scale, coefficient_scale]
  field_simp

/-- **Expressions form a commutative ring up to zero entries.** The coefficients
on both sides of every law agree at every monomial, an absent one counting as
zero, whatever is stored on either side; and a nonzero number can be divided out
again. -/
theorem ring_laws :
    ((a.plus (.expr b)).plus (.expr c)).coefficient m =
      (a.plus (.expr (b.plus (.expr c)))).coefficient m ∧
    (a.plus (.expr b)).coefficient m = (b.plus (.expr a)).coefficient m ∧
    (a.times (.expr b)).coefficient m = (b.times (.expr a)).coefficient m ∧
    ((a.times (.expr b)).times (.expr c)).coefficient m =
      (a.times (.expr (b.times (.expr c)))).coefficient m ∧
    ((a.plus (.expr b)).times (.expr c)).coefficient m =
      ((a.times (.expr c)).plus (.expr (b.times (.expr c)))).coefficient m ∧
    (a.times (.expr (const 1))).coefficient m = a.coefficient m ∧
    (a.minus (.expr a)).coefficient m = 0 ∧
    ∀ k : Rat, k ≠ 0 →
      ∃ q, (a.times (.scalar k)).div? (.scalar k) = .ok q ∧
        q.coefficient m = a.coefficient m := by
  refine ⟨coefficient_plus_assoc a b c m, coefficient_plus_comm a b m,
    coefficient_times_comm a b m, coefficient_times_assoc a b c m,
    coefficient_plus_times a b c m, coefficient_times_one a m, coefficient_minus_self a m, ?_⟩
  intro k hk
  exact coefficient_div?_times a m hk

end Laws

/-- `x - y` and `x + y`, whose product stores a zero for `x * y`. -/
def differenceOfTwo : Expr Rat := (var ⟨"x"⟩).minus (.variable ⟨"y"⟩)

def sumOfTwo : Expr Rat := (var ⟨"x"⟩).plus (.variable ⟨"y"⟩)

/-- The product commutes although a zero is stored in it, and three is divided out
of a multiple again. -/
theorem ring_laws_differenceOfTwo_sumOfTwo :
    (3 : Rat) ≠ 0 ∧
    (differenceOfTwo.times (.expr sumOfTwo)).get? (.ofList [⟨"x"⟩, ⟨"y"⟩]) = some 0 ∧
    (differenceOfTwo.times (.expr sumOfTwo)).coefficient (.ofList [⟨"x"⟩, ⟨"y"⟩]) =
      (sumOfTwo.times (.expr differenceOfTwo)).coefficient (.ofList [⟨"x"⟩, ⟨"y"⟩]) ∧
    ∃ q, (differenceOfTwo.times (.scalar 3)).div? (.scalar 3) = .ok q ∧
      q.coefficient (.single ⟨"y"⟩) = differenceOfTwo.coefficient (.single ⟨"y"⟩) := by
  obtain ⟨_, _, hcomm, _⟩ :=
    ring_laws differenceOfTwo sumOfTwo .empty (.ofList [⟨"x"⟩, ⟨"y"⟩])
  obtain ⟨_, _, _, _, _, _, _, hquotient⟩ :=
    ring_laws differenceOfTwo sumOfTwo .empty (.single ⟨"y"⟩)
  exact ⟨by decide, by cbv, hcomm, hquotient 3 (by decide)⟩

end Expr

end PolyRow
