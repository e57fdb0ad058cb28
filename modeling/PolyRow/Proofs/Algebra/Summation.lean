import Mathlib
import PolyRow.Proofs.Algebra.Agreement
import PolyRow.Proofs.Double.Zero

/-!
# Sums of operands

A sum is taken one operand at a time: an expression is merged into what there is so far,
and a number is added to the constant entry in place. All of it is one loop of
accumulations, over the terms of the first operand, then those of the second, and so on.
That a number in place does the same as its promoted term, down to the bit, holds because
no coefficient of the sum so far is a negative zero: only there would it matter that
promoting turns a negative zero into a positive one.

## Main results

* `Terms.NoNegZero.accumulateAll`: the invariant of the sum so far.
* `Expr.plus_ofTable`, `Expr.foldl_plus_ofTable`: one addition and a run of them, as
  accumulations.
* `Expr.sum_eq_ofTerms`: a sum is built from the terms of its operands.
-/

namespace PolyRow

namespace Terms

/-- No coefficient is a negative zero. -/
def NoNegZero (t : Terms Float) : Prop := ∀ m, t.get? m ≠ some (-0)

theorem noNegZero_empty : NoNegZero .empty := fun _ h => nomatch h

theorem NoNegZero.getD_ne {t : Terms Float} (ht : t.NoNegZero) (m : Monomial) :
    (t.get? m).getD 0 ≠ -0 := by
  cases hm : t.get? m with
  | none => exact (by decide : (0 : Float) ≠ -0)
  | some c => exact fun hc => ht m (hm.trans (congrArg some hc))

theorem NoNegZero.accumulate {t : Terms Float} (ht : t.NoNegZero) (m : Monomial) (c : Float) :
    (t.accumulate m c).NoNegZero := by
  intro n hn
  rw [get?_accumulate] at hn
  split_ifs at hn
  · exact ht.getD_ne m (Double.add_eq_negZero (Option.some.inj hn)).1
  · exact ht n hn

/-- **Accumulating keeps negative zeros away**, whatever is accumulated. -/
theorem NoNegZero.accumulateAll {t : Terms Float} (ht : t.NoNegZero)
    (es : List (Monomial × Float)) : (t.accumulateAll es).NoNegZero := by
  induction es generalizing t with
  | nil => exact ht
  | cons e rest ih => exact ih (ht.accumulate e.1 e.2)

/-- Then a coefficient may be added to zero before it is accumulated. -/
theorem NoNegZero.accumulate_zero_add {t : Terms Float} (ht : t.NoNegZero) (m : Monomial)
    (c : Float) : t.accumulate m (0 + c) = t.accumulate m c := by
  have hsum : (t.get? m).getD 0 + (0 + c) = (t.get? m).getD 0 + c := by
    rw [Double.zero_add_eq]
    split_ifs with hc
    · rw [hc, Double.add_zero_eq (ht.getD_ne m), Double.add_negZero_eq]
    · rfl
  refine ext_get? fun n => ?_
  rw [get?_accumulate, get?_accumulate]
  exact if_congr Iff.rfl (congrArg some hsum) rfl

theorem accumulateAll_append {κ : Type} [Scalar κ] (t : Terms κ) (es fs : List (Monomial × κ)) :
    t.accumulateAll (es ++ fs) = (t.accumulateAll es).accumulateAll fs :=
  List.foldl_append

end Terms

/-- The terms of the operand as an expression, in order. -/
def Operand.termList {κ : Type} [Scalar κ] (o : Operand κ) : List (Monomial × κ) :=
  o.toExpr.terms.entries

namespace Expr

open Terms (NoNegZero)

/-- One addition accumulates the terms of the operand. -/
theorem plus_ofTable {t : Terms Float} (ht : t.NoNegZero) (o : Operand Float) :
    plus { terms := t } o = { terms := t.accumulateAll o.termList } := by
  have hmerged (a : Expr Float) :
      add { terms := t } a = { terms := t.accumulateAll a.terms.entries } :=
    Expr.ext (Terms.add_eq_foldl t a.terms) rfl rfl
  match o with
  | .expr a => exact hmerged a
  | .variable x => exact hmerged (var x)
  | .scalar c =>
      have hpromoted : (Operand.scalar c).termList = [(1, 0 + c)] := entries_const c
      have hplace : t.accumulate 1 c = t.accumulate 1 (0 + c) :=
        (ht.accumulate_zero_add 1 c).symm
      rw [hpromoted]
      exact Expr.ext hplace rfl rfl

/-- A run of additions accumulates the terms of all operands. The induction is on the
operands, from any sum so far that has no negative zero. -/
theorem foldl_plus_ofTable {t : Terms Float} (ht : t.NoNegZero) (items : List (Operand Float)) :
    items.foldl plus { terms := t } =
      { terms := t.accumulateAll (items.flatMap Operand.termList) } := by
  induction items generalizing t with
  | nil => rfl
  | cons o rest ih =>
      rw [List.foldl_cons, plus_ofTable ht, ih (ht.accumulateAll _), List.flatMap_cons,
        Terms.accumulateAll_append]

theorem sum_eq_ofTerms_flatMap (items : List (Operand Float)) :
    sum items = ofTerms (items.flatMap Operand.termList) := by
  have hrun : items.foldl plus { terms := .empty } =
      { terms := Terms.empty.accumulateAll (items.flatMap Operand.termList) } :=
    foldl_plus_ofTable Terms.noNegZero_empty items
  rw [← Terms.ofList_eq_foldl] at hrun
  exact hrun

/-- Promoting the operands first changes no term. -/
theorem linearSum_eq_ofTerms_flatMap (items : List (Operand Float)) :
    linearSum (items.map Operand.toExpr) = ofTerms (items.flatMap Operand.termList) := by
  have hlists : ((items.map Operand.toExpr).map Operand.expr).flatMap Operand.termList =
      items.flatMap Operand.termList := by
    rw [List.flatMap_map, List.flatMap_map]
    rfl
  rw [← hlists]
  exact sum_eq_ofTerms_flatMap _

theorem mem_keys_sum (items : List (Operand Float)) (m : Monomial) :
    m ∈ (sum items).terms.keys ↔ ∃ o ∈ items, m ∈ o.toExpr.terms.keys := by
  rw [sum_eq_ofTerms_flatMap]
  show m ∈ (Terms.ofList (items.flatMap Operand.termList)).keys ↔ _
  rw [Terms.mem_keys_ofList, List.map_flatMap, List.mem_flatMap]
  rfl

theorem keys_sum_append (items others : List (Operand Float)) :
    (sum (items ++ others)).terms.keys = ((sum items).plus (.expr (sum others))).terms.keys := by
  refine Terms.keys_ext fun m => ?_
  have hplus : m ∈ ((sum items).plus (.expr (sum others))).terms.keys ↔
      m ∈ (sum items).terms.keys ∨ m ∈ (sum others).terms.keys := mem_keys_plus _ _ m
  rw [hplus, mem_keys_sum, mem_keys_sum, mem_keys_sum]
  simp only [List.mem_append, or_and_right, exists_or]

/-- **A sum is built from the terms of its operands.** Adding up operands, or the
expressions that they are promoted to, gives the polynomial of all their terms in order,
bit for bit and without bounds. So it has the monomials of all operands, and two lists
taken together have the monomials of the sum of their sums. -/
theorem sum_eq_ofTerms (items : List (Operand Float)) :
    sum items = ofTerms (items.flatMap Operand.termList) ∧
    linearSum (items.map Operand.toExpr) = ofTerms (items.flatMap Operand.termList) ∧
    (sum items).lower = none ∧ (sum items).upper = none ∧
    (∀ m, m ∈ (sum items).terms.keys ↔ ∃ o ∈ items, m ∈ o.toExpr.terms.keys) ∧
    ∀ others, (sum (items ++ others)).terms.keys =
      ((sum items).plus (.expr (sum others))).terms.keys := by
  have hsum := sum_eq_ofTerms_flatMap items
  refine ⟨hsum, linearSum_eq_ofTerms_flatMap items, ?_, ?_, mem_keys_sum items,
    keys_sum_append items⟩
  · rw [hsum]
    rfl
  · rw [hsum]
    rfl

end Expr

end PolyRow
