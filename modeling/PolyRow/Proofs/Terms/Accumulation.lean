import PolyRow.Terms.Lookup

/-!
# Tables built entry by entry

`Terms.ofList` sorts a list of terms and sums its runs, and `Terms.add` merges
two tables in one pass. Both are the same table as the plain loop, which takes
the terms one after another and accumulates each at its monomial. The loop is
the form in which a property that holds of one accumulation is carried to every
table, so the theory of tables rests on these two equations and not on the
sorting and merging behind them.

They hold for any scalar, doubles included: for every monomial the same
additions are made in the same order.

## Main results

* `ofList_eq_foldl`: a list of terms, one accumulation after another.
* `add_eq_foldl`: the entries of the second table accumulated on the first.
* `ofList_products_eq_foldl`: the products of two tables, by two nested loops.
-/

namespace PolyRow.Terms

variable {κ : Type} [Scalar κ]

/-- Accumulates the terms of a list one after another. -/
def accumulateAll (t : Terms κ) (es : List (Monomial × κ)) : Terms κ :=
  es.foldl (fun u e => u.accumulate e.1 e.2) t

@[simp] theorem accumulateAll_nil (t : Terms κ) : t.accumulateAll [] = t := rfl

@[simp] theorem accumulateAll_cons (t : Terms κ) (e : Monomial × κ)
    (es : List (Monomial × κ)) :
    t.accumulateAll (e :: es) = (t.accumulate e.1 e.2).accumulateAll es := rfl

omit [Scalar κ] in
theorem coefficientsOf_cons (e : Monomial × κ) (es : List (Monomial × κ)) (m : Monomial) :
    coefficientsOf (e :: es) m =
      if e.1 = m then e.2 :: coefficientsOf es m else coefficientsOf es m := by
  by_cases hm : e.1 = m <;> simp [coefficientsOf, hm]

omit [Scalar κ] in
theorem coefficientsOf_append (es fs : List (Monomial × κ)) (m : Monomial) :
    coefficientsOf (es ++ fs) m = coefficientsOf es m ++ coefficientsOf fs m := by
  simp [coefficientsOf]

omit [Scalar κ] in
/-- Whether entries are selected by their monomials is decided once for each monomial. -/
theorem coefficientsOf_filter (p : Monomial → Bool) (es : List (Monomial × κ)) (m : Monomial) :
    coefficientsOf (es.filter fun e => p e.1) m = if p m then coefficientsOf es m else [] := by
  unfold coefficientsOf
  rw [List.filter_filter]
  by_cases hp : p m = true
  · rw [if_pos hp]
    refine congrArg _ (List.filter_congr fun e _ => ?_)
    by_cases hm : e.1 = m <;> simp [hm, hp]
  · rw [if_neg hp, List.map_eq_nil_iff, List.filter_eq_nil_iff]
    intro e _ he
    have hboth := Bool.and_eq_true_iff.1 he
    exact hp (of_decide_eq_true hboth.1 ▸ hboth.2)

/-- **What a loop of accumulations finds.** A monomial that is not listed keeps
what it had; a listed one has its coefficients added in their order to what it
had, or to zero. -/
theorem get?_accumulateAll (t : Terms κ) (es : List (Monomial × κ)) (m : Monomial) :
    (t.accumulateAll es).get? m =
      if coefficientsOf es m = [] then t.get? m
      else some ((coefficientsOf es m).foldl (· + ·) ((t.get? m).getD 0)) := by
  induction es generalizing t with
  | nil => simp [coefficientsOf]
  | cons e rest ih =>
      rw [accumulateAll_cons, ih, get?_accumulate, coefficientsOf_cons]
      by_cases hm : e.1 = m
      · rw [if_pos hm, if_pos hm.symm, hm]
        cases coefficientsOf rest m <;> simp
      · rw [if_neg hm, if_neg (Ne.symm hm)]

/-- The table of a list of terms is the loop from nothing. -/
theorem ofList_eq_foldl (es : List (Monomial × κ)) : ofList es = empty.accumulateAll es := by
  refine ext_get? fun m => ?_
  rw [get?_ofList, get?_accumulateAll, get?_empty]
  cases coefficientsOf es m <;> simp [sum?]

omit [Scalar κ] in
/-- A strictly increasing list has at most one coefficient for a monomial. -/
theorem coefficientsOf_eq_toList {es : List (Monomial × κ)}
    (hes : es.Pairwise fun s t => s.1 < t.1) (m : Monomial) :
    coefficientsOf es m = (es.lookup m).toList := by
  induction es with
  | nil => rfl
  | cons e rest ih =>
      rw [List.pairwise_cons] at hes
      rw [coefficientsOf_cons, List.lookup_cons, ih hes.2]
      by_cases hm : e.1 = m
      · have hnone : rest.lookup m = none :=
          lookup_eq_none_of_lt fun f hf => hm ▸ hes.1 f hf
        rw [hnone, if_pos hm, hm]
        simp
      · rw [if_neg hm, beq_false_of_ne (Ne.symm hm)]

omit [Scalar κ] in
/-- The entry of the empty product is the only constant one. -/
theorem filter_isConstant (t : Terms κ) :
    (t.entries.filter fun e => e.1.isConstant) = (t.get? 1).toList.map (Prod.mk 1) := by
  have hfilter : (t.entries.filter fun e => e.1.isConstant) =
      t.entries.filter fun e => decide (e.1 = 1) := by
    refine List.filter_congr fun e _ => ?_
    rw [Bool.eq_iff_iff, decide_eq_true_iff, Monomial.isConstant_iff]
  have hfound : coefficientsOf t.entries 1 = (t.get? 1).toList :=
    coefficientsOf_eq_toList t.sorted 1
  have hentries : ∀ e ∈ t.entries.filter fun e => decide (e.1 = 1), (1, e.2) = e := by
    intro e he
    rw [← of_decide_eq_true (List.mem_filter.1 he).2]
  rw [hfilter, ← hfound, coefficientsOf, List.map_map]
  exact ((List.map_congr_left hentries).trans (List.map_id _)).symm

/-- The sum of two tables is the loop over the second one. -/
theorem add_eq_foldl (s t : Terms κ) : s.add t = s.accumulateAll t.entries := by
  refine ext_get? fun m => ?_
  have hentries : coefficientsOf t.entries m = (t.get? m).toList :=
    coefficientsOf_eq_toList t.sorted m
  rw [get?_add, get?_accumulateAll, hentries]
  cases s.get? m <;> cases t.get? m <;> simp [addFound]

/-- The products of two tables are collected by a loop over the first one with a
loop over the second one inside. -/
theorem ofList_products_eq_foldl (s t : Terms κ) :
    ofList (s.products t) =
      s.entries.foldl (fun u l =>
        t.entries.foldl (fun u r => u.accumulate (l.1 * r.1) (l.2 * r.2)) u) empty := by
  rw [ofList_eq_foldl, accumulateAll, products, List.foldl_flatMap]
  simp only [List.foldl_map]

end PolyRow.Terms
