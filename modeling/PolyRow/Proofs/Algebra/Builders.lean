import Mathlib
import PolyRow.Expr.Comparison
import PolyRow.Proofs.Double.Zero
import PolyRow.Proofs.Terms.Accumulation

/-!
# Builders that leave out zeros

Linear and quadratic polynomials are built from lists out of which the zeros are taken
first. Merging the full list and leaving out zeros afterwards is not the same: terms that
cancel are stored by the builders and pruned by the other way. But the difference is in
stored zeros alone. A monomial that receives nothing but zeros has a zero in the full
polynomial and none in the built one; any other has the same coefficient in both, since a
sum from zero does not notice the zeros among its summands.

## Main results

* `Expr.keepsNonzero_filter`: a list with its zeros left out, against the full one.
* `Expr.quadraticForm_eq_of_exchanged`: the order in a pair of variables plays no part.
* `Expr.builders_keep_nonzero`: both builders in one statement.
-/

namespace PolyRow

/-- Leaving out zeros leaves them out for each monomial. -/
theorem Terms.coefficientsOf_filter_ne_zero (es : List (Monomial × Float)) (m : Monomial) :
    coefficientsOf (es.filter fun e => e.2 != 0) m =
      (coefficientsOf es m).filter (· != 0) := by
  unfold coefficientsOf
  rw [List.filter_map, List.filter_filter, List.filter_filter]
  simp only [Function.comp_def, Bool.and_comm]

namespace Expr

/-- What a polynomial has of a list of terms if it leaves out their zeros: the monomials
that receive a nonzero coefficient, with all that the full polynomial has there. -/
structure KeepsNonzero (sparse : Expr Float) (es : List (Monomial × Float)) : Prop where
  keys : ∀ m, m ∈ sparse.terms.keys ↔ ∃ e ∈ es, e.1 = m ∧ (e.2 == 0) = false
  coefficients : ∀ m ∈ sparse.terms.keys, sparse.get? m = (ofTerms es).get? m
  zeros : ∀ m, m ∉ sparse.terms.keys → ∀ c, (ofTerms es).get? m = some c → (c == 0) = true
  pruned : sparse.pruned = (ofTerms es).pruned

section Filter

variable (es : List (Monomial × Float)) (m : Monomial)

/-- The list without the zeros. -/
private abbrev sparse : Expr Float := ofTerms (es.filter fun e => e.2 != 0)

private theorem mem_keys_sparse :
    m ∈ (sparse es).terms.keys ↔ ∃ e ∈ es, e.1 = m ∧ (e.2 == 0) = false := by
  have hkeys : m ∈ (sparse es).terms.keys ↔ m ∈ (es.filter fun e => e.2 != 0).map Prod.fst :=
    Terms.mem_keys_ofList _ m
  rw [hkeys, List.mem_map]
  simp only [List.mem_filter, bne, Bool.not_eq_true', and_assoc, and_comm (a := _ = false)]

/-- At a monomial that is left with a coefficient, both polynomials have the same sum. -/
private theorem get?_sparse_of_mem (h : m ∈ (sparse es).terms.keys) :
    (sparse es).get? m = (ofTerms es).get? m := by
  have hsparse : (sparse es).get? m =
      Terms.sum? ((Terms.coefficientsOf es m).filter (· != 0)) := by
    rw [← Terms.coefficientsOf_filter_ne_zero]
    exact Terms.get?_ofList _ m
  have hfull : (ofTerms es).get? m = Terms.sum? (Terms.coefficientsOf es m) :=
    Terms.get?_ofList es m
  have hsum := Double.foldl_add_filter (by decide : (0 : Float) ≠ -0) (Terms.coefficientsOf es m)
  rw [Terms.mem_keys_iff] at h
  have hsome : ((sparse es).get? m).isSome := h
  rw [hsparse] at hsome
  rw [hsparse, hfull]
  generalize Terms.coefficientsOf es m = cs at hsum hsome ⊢
  -- A sum that is there has a summand, and then the full list has one as well.
  cases hkept : cs.filter (· != 0) with
  | nil =>
      rw [hkept] at hsome
      exact absurd hsome Bool.false_ne_true
  | cons c rest =>
      cases cs with
      | nil => exact nomatch hkept
      | cons d others =>
          rw [hkept] at hsum
          exact congrArg some hsum

/-- At any other monomial there were zeros at most. -/
private theorem beq_zero_of_notMem (h : m ∉ (sparse es).terms.keys) {c : Float}
    (hc : (ofTerms es).get? m = some c) : (c == 0) = true := by
  have hfull : Terms.sum? (Terms.coefficientsOf es m) = some c :=
    (Terms.get?_ofList es m).symm.trans hc
  have hkept : (Terms.coefficientsOf es m).filter (· != 0) = [] := by
    rw [← Terms.coefficientsOf_filter_ne_zero]
    unfold Terms.coefficientsOf
    rw [List.map_eq_nil_iff, List.filter_eq_nil_iff]
    intro e he hm
    obtain ⟨hlisted, hnonzero⟩ := List.mem_filter.1 he
    have hdistinct : (e.2 == 0) = false := by simpa [bne] using hnonzero
    exact h ((mem_keys_sparse es m).2 ⟨e, hlisted, of_decide_eq_true hm, hdistinct⟩)
  have hsum := Double.foldl_add_filter (by decide : (0 : Float) ≠ -0) (Terms.coefficientsOf es m)
  rw [hkept] at hsum
  cases hcs : Terms.coefficientsOf es m with
  | nil =>
      rw [hcs] at hfull
      exact nomatch hfull
  | cons d rest =>
      rw [hcs] at hfull hsum
      have hzero : 0 = c := hsum.trans (Option.some.inj hfull)
      rw [← hzero]
      rfl

end Filter

/-- **A list with its zeros left out, against the full list.** -/
theorem keepsNonzero_filter (es : List (Monomial × Float)) :
    KeepsNonzero (ofTerms (es.filter fun e => e.2 != 0)) es := by
  refine ⟨mem_keys_sparse es, get?_sparse_of_mem es, fun m hm c => beq_zero_of_notMem es m hm, ?_⟩
  refine Expr.ext (Terms.ext_get? fun m => ?_) rfl rfl
  have hpruned (e : Expr Float) : e.pruned.terms.get? m = (e.get? m).filter (· != 0) :=
    Terms.get?_filter _ _ m
  rw [hpruned, hpruned]
  by_cases hm : m ∈ (sparse es).terms.keys
  · rw [get?_sparse_of_mem es m hm]
  · have hnone : (sparse es).get? m = none := by
      rw [Terms.mem_keys_iff, Bool.not_eq_true, Option.isSome_eq_false_iff,
        Option.isNone_iff_eq_none] at hm
      exact hm
    rw [hnone]
    cases hfull : (ofTerms es).get? m with
    | none => rfl
    | some c =>
        have hzero : (c == 0) = true := beq_zero_of_notMem es m hm hfull
        have hdropped : ((some c).filter fun x => x != 0) = none :=
          Option.filter_some_neg (p := fun x => x != 0) (congrArg Bool.not hzero)
        rw [hdropped]
        rfl

/-! ## The builders -/

/-- The terms of a linear polynomial, zeros included. -/
def linearList (ts : List (Variable × Float)) : List (Monomial × Float) :=
  ts.map fun t => (.single t.1, t.2)

/-- The terms of a quadratic polynomial, zeros included. -/
def quadraticList (ts : List ((Variable × Variable) × Float)) : List (Monomial × Float) :=
  ts.map fun t => (.ofList [t.1.1, t.1.2], t.2)

/-- In any of the triples the two variables may have been exchanged. -/
def Exchanged (ts us : List ((Variable × Variable) × Float)) : Prop :=
  List.Forall₂ (fun t u => (u.1 = t.1 ∨ u.1 = t.1.swap) ∧ u.2 = t.2) ts us

theorem linearTerms_eq (ts : List (Variable × Float)) :
    linearTerms ts = ofTerms ((linearList ts).filter fun e => e.2 != 0) := by
  unfold linearTerms linearList
  rw [List.filter_map]
  rfl

theorem quadraticForm_eq (ts : List ((Variable × Variable) × Float)) :
    quadraticForm ts = ofTerms ((quadraticList ts).filter fun e => e.2 != 0) := by
  unfold quadraticForm quadraticList
  rw [List.filter_map]
  rfl

theorem quadraticForm_eq_of_exchanged {ts us : List ((Variable × Variable) × Float)}
    (h : Exchanged ts us) : quadraticForm us = quadraticForm ts := by
  have hlists : quadraticList us = quadraticList ts := by
    induction h with
    | nil => rfl
    | @cons t u ts us htu _ ih =>
        have hproduct : Monomial.ofList [u.1.1, u.1.2] = .ofList [t.1.1, t.1.2] := by
          rcases htu.1 with heq | heq
          · rw [heq]
          · rw [heq]
            exact Monomial.ofList_eq_of_perm (.swap _ _ _)
        show (Monomial.ofList [u.1.1, u.1.2], u.2) :: quadraticList us =
          (Monomial.ofList [t.1.1, t.1.2], t.2) :: quadraticList ts
        rw [hproduct, htu.2, ih]
  rw [quadraticForm_eq, quadraticForm_eq, hlists]

/-- **Builders leave out zeros and change nothing else.** Of the variables, or pairs of
variables in order, they store those that receive a nonzero coefficient, an undefined one
included. There they have the coefficient of the full list, bit for bit; elsewhere the
full list has zero. So both are the same when pruned, and exchanging the variables of any
pairs makes no difference. -/
theorem builders_keep_nonzero (ts : List (Variable × Float))
    (qs : List ((Variable × Variable) × Float)) :
    KeepsNonzero (linearTerms ts) (linearList ts) ∧
    KeepsNonzero (quadraticForm qs) (quadraticList qs) ∧
    ∀ us, Exchanged qs us → quadraticForm us = quadraticForm qs := by
  rw [linearTerms_eq, quadraticForm_eq]
  refine ⟨keepsNonzero_filter _, keepsNonzero_filter _, fun us h => ?_⟩
  rw [quadraticForm_eq_of_exchanged h, quadraticForm_eq]

/-- `0 * x - x + x - 0 * y + 2 * z`. -/
def cancellingLinear : List (Variable × Float) :=
  [(⟨"x"⟩, 0.0), (⟨"x"⟩, -1.0), (⟨"x"⟩, 1.0), (⟨"y"⟩, -0.0), (⟨"z"⟩, 2.0)]

/-- `3 * y * x - 0 * x * y`. -/
def quadraticOutOfOrder : List ((Variable × Variable) × Float) :=
  [((⟨"y"⟩, ⟨"x"⟩), 3.0), ((⟨"x"⟩, ⟨"y"⟩), -0.0)]

/-- The same with the variables of the first term exchanged. -/
def quadraticInOrder : List ((Variable × Variable) × Float) :=
  [((⟨"x"⟩, ⟨"y"⟩), 3.0), ((⟨"x"⟩, ⟨"y"⟩), -0.0)]

theorem builders_keep_nonzero_cancelling :
    Monomial.single ⟨"x"⟩ ∈ (linearTerms cancellingLinear).terms.keys ∧
    Monomial.single ⟨"y"⟩ ∉ (linearTerms cancellingLinear).terms.keys ∧
    (linearTerms cancellingLinear).pruned = (ofTerms (linearList cancellingLinear)).pruned ∧
    Exchanged quadraticOutOfOrder quadraticInOrder ∧
    quadraticForm quadraticInOrder = quadraticForm quadraticOutOfOrder := by
  obtain ⟨hlinear, _, hexchanged⟩ := builders_keep_nonzero cancellingLinear quadraticOutOfOrder
  have hpairs : Exchanged quadraticOutOfOrder quadraticInOrder :=
    .cons ⟨.inr rfl, rfl⟩ (.cons ⟨.inl rfl, rfl⟩ .nil)
  refine ⟨?_, ?_, hlinear.pruned, hpairs, hexchanged _ hpairs⟩
  · rw [hlinear.keys]
    decide
  · rw [hlinear.keys]
    decide

end Expr

end PolyRow
