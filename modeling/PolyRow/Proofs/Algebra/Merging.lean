import Mathlib
import PolyRow.Expr.Basic
import PolyRow.Proofs.Double.Zero
import PolyRow.Proofs.Terms.Accumulation

/-!
# Merging of terms

A polynomial is given by a list of terms in any order, each with its factors in any
order. Terms are merged if their factors are rearrangements of one another: then they
have one monomial, and its coefficient is the sum of theirs, from zero and in the order
of the list. What the list has for other monomials in between plays no part.

So the list may be rearranged in two ways without a bit of the result being changed:
the factors inside a term, and terms of different monomials among each other. Terms of
one monomial have to keep their order, since sums of doubles depend on it.

## Main results

* `Expr.get?_ofFactors`: what is found for a monomial.
* `Expr.ofFactors_eq_of_permuted`, `Expr.ofFactors_eq_of_reorders`: lists that give the
  same polynomial.
* `Expr.ofFactors_merges`: all of this in one statement.
-/

namespace PolyRow

namespace Expr

section Lists

variable {κ : Type}

/-- The coefficients that a list has for rearrangements of some factors, in its order. -/
def coefficientsGiven (ts : List (List Variable × κ)) (xs : List Variable) : List κ :=
  (ts.filter fun t => t.1.Perm xs).map Prod.snd

/-- The places at which a list has rearrangements of some factors, in order. -/
def placesGiven (ts : List (List Variable × κ)) (xs : List Variable) : List (Fin ts.length) :=
  (List.finRange ts.length).filter fun i => (ts.get i).1.Perm xs

/-- Factors are rearranged inside the terms, which stay where they are. -/
def Permuted (ts us : List (List Variable × κ)) : Prop :=
  List.Forall₂ (fun t u => t.1.Perm u.1 ∧ t.2 = u.2) ts us

/-- Terms change places, but not with terms of the same monomial. -/
def Reorders (ts us : List (List Variable × κ)) : Prop :=
  ∃ place : Fin ts.length ≃ Fin us.length,
    (∀ i, us.get (place i) = ts.get i) ∧
    ∀ i j, (ts.get i).1.Perm (ts.get j).1 → i < j → place i < place j

variable {ts us : List (List Variable × κ)}

theorem coefficientsGiven_eq_nil_iff {xs : List Variable} :
    coefficientsGiven ts xs = [] ↔ ¬ ∃ t ∈ ts, t.1.Perm xs := by
  unfold coefficientsGiven
  simp only [List.map_eq_nil_iff, List.filter_eq_nil_iff, decide_eq_true_eq, not_exists, not_and]

theorem mem_placesGiven {xs : List Variable} {i : Fin ts.length} :
    i ∈ placesGiven ts xs ↔ (ts.get i).1.Perm xs := by
  unfold placesGiven
  rw [List.mem_filter, decide_eq_true_iff]
  exact and_iff_right (List.mem_finRange i)

theorem pairwise_placesGiven (ts : List (List Variable × κ)) (xs : List Variable) :
    (placesGiven ts xs).Pairwise (· < ·) :=
  (List.pairwise_lt_finRange ts.length).filter _

theorem coefficientsGiven_eq_map (ts : List (List Variable × κ)) (xs : List Variable) :
    coefficientsGiven ts xs = (placesGiven ts xs).map fun i => (ts.get i).2 := by
  have hts : (List.finRange ts.length).map ts.get = ts := List.map_get_finRange ts
  unfold coefficientsGiven placesGiven
  conv_lhs => rw [← hts]
  rw [List.filter_map, List.map_map]
  rfl

/-- The factors of a term matter up to their order. -/
theorem coefficientsGiven_of_permuted (h : Permuted ts us) (xs : List Variable) :
    coefficientsGiven us xs = coefficientsGiven ts xs := by
  unfold coefficientsGiven
  induction h with
  | nil => rfl
  | @cons t u ts us htu _ ih =>
      obtain ⟨hperm, hcoefficient⟩ := htu
      have hxs : decide (u.1.Perm xs) = decide (t.1.Perm xs) :=
        decide_eq_decide.2 ⟨hperm.trans, hperm.symm.trans⟩
      rw [List.filter_cons, List.filter_cons, hxs]
      split
      · rw [List.map_cons, List.map_cons, ih, hcoefficient]
      · exact ih

/-- The places of one monomial move with its terms and stay in order, so they are met in
the order in which they were met before. -/
theorem placesGiven_of_reorders {place : Fin ts.length ≃ Fin us.length}
    (hterm : ∀ i, us.get (place i) = ts.get i)
    (hstable : ∀ i j, (ts.get i).1.Perm (ts.get j).1 → i < j → place i < place j)
    (xs : List Variable) : placesGiven us xs = (placesGiven ts xs).map place := by
  have hmoved : ((placesGiven ts xs).map place).Pairwise (· < ·) := by
    refine List.pairwise_map.2 ((pairwise_placesGiven ts xs).imp_of_mem ?_)
    intro i j hi hj hlt
    exact hstable i j ((mem_placesGiven.1 hi).trans (mem_placesGiven.1 hj).symm) hlt
  have hmem (j : Fin us.length) :
      j ∈ placesGiven us xs ↔ j ∈ (placesGiven ts xs).map place := by
    obtain ⟨i, rfl⟩ := place.surjective j
    rw [mem_placesGiven, hterm, List.mem_map]
    constructor
    · intro hi
      exact ⟨i, mem_placesGiven.2 hi, rfl⟩
    · rintro ⟨k, hk, heq⟩
      rw [← place.injective heq]
      exact mem_placesGiven.1 hk
  have hperm : (placesGiven us xs).Perm ((placesGiven ts xs).map place) :=
    (List.perm_ext_iff_of_nodup (pairwise_placesGiven us xs).nodup hmoved.nodup).2 hmem
  exact hperm.eq_of_pairwise (fun _ _ _ _ hij hji => absurd hji hij.asymm)
    (pairwise_placesGiven us xs) hmoved

theorem coefficientsGiven_of_reorders (h : Reorders ts us) (xs : List Variable) :
    coefficientsGiven us xs = coefficientsGiven ts xs := by
  obtain ⟨place, hterm, hstable⟩ := h
  rw [coefficientsGiven_eq_map, coefficientsGiven_eq_map, placesGiven_of_reorders hterm hstable,
    List.map_map]
  exact List.map_congr_left fun i _ => congrArg Prod.snd (hterm i)

end Lists

variable {κ : Type} [Scalar κ] {ts us : List (List Variable × κ)}

/-- The polynomial with the given terms, each with its factors in any order. -/
def ofFactors (ts : List (List Variable × κ)) : Expr κ :=
  ofTerms (ts.map fun t => (.ofList t.1, t.2))

/-- **A monomial has the terms that rearrange its factors**, summed from zero in the
order of the list. -/
theorem get?_ofFactors (ts : List (List Variable × κ)) (m : Monomial) :
    (ofFactors ts).get? m = Terms.sum? (coefficientsGiven ts m.factors) := by
  have hlisted : Terms.coefficientsOf (ts.map fun t => (Monomial.ofList t.1, t.2)) m =
      coefficientsGiven ts m.factors := by
    unfold Terms.coefficientsOf coefficientsGiven
    rw [List.filter_map, List.map_map]
    simp only [Function.comp_def, Monomial.ofList_eq_iff]
  rw [← hlisted]
  exact Terms.get?_ofList _ m

/-- Lists with the same coefficients for each monomial give the same polynomial. -/
theorem ofFactors_congr
    (h : ∀ xs, coefficientsGiven us xs = coefficientsGiven ts xs) :
    ofFactors us = ofFactors ts := by
  have hterms : (ofFactors us).terms = (ofFactors ts).terms :=
    Terms.ext_get? fun m =>
      (get?_ofFactors us m).trans (by rw [h, ← get?_ofFactors]; rfl)
  exact Expr.ext hterms rfl rfl

theorem ofFactors_eq_of_permuted (h : Permuted ts us) : ofFactors us = ofFactors ts :=
  ofFactors_congr (coefficientsGiven_of_permuted h)

theorem ofFactors_eq_of_reorders (h : Reorders ts us) : ofFactors us = ofFactors ts :=
  ofFactors_congr (coefficientsGiven_of_reorders h)

/-- **Exactly the rearrangements are merged.** A monomial is stored if and only if some
term rearranges its factors. Its coefficient is the sum of all such terms, from zero and
in their order, and therefore no negative zero. Rearranging factors inside terms, or
terms of different monomials among each other, changes no bit. -/
theorem ofFactors_merges (ts : List (List Variable × Float)) :
    (∀ m : Monomial,
      ((ofFactors ts).get? m).isSome = true ↔ ∃ t ∈ ts, t.1.Perm m.factors) ∧
    (∀ m c, (ofFactors ts).get? m = some c →
      c = (coefficientsGiven ts m.factors).foldl (· + ·) 0 ∧ c ≠ -0) ∧
    (∀ us, Permuted ts us → ofFactors us = ofFactors ts) ∧
    ∀ us, Reorders ts us → ofFactors us = ofFactors ts := by
  refine ⟨fun m => ?_, fun m c hc => ?_, fun us => ofFactors_eq_of_permuted,
    fun us => ofFactors_eq_of_reorders⟩
  · rw [get?_ofFactors, ← not_iff_not, ← coefficientsGiven_eq_nil_iff]
    cases coefficientsGiven ts m.factors <;> simp [Terms.sum?]
  · rw [get?_ofFactors] at hc
    cases hgiven : coefficientsGiven ts m.factors with
    | nil =>
        rw [hgiven] at hc
        exact absurd hc.symm (Option.some_ne_none c)
    | cons d rest =>
        rw [hgiven] at hc
        have hsum : (d :: rest).foldl (· + ·) 0 = c := Option.some.inj hc
        exact ⟨hsum.symm, hsum ▸ Double.foldl_add_ne_negZero (by decide) (d :: rest)⟩

/-- `2.5 * z * y + x + 0.5 * y * z`. -/
def scattered : List (List Variable × Float) :=
  [([⟨"z"⟩, ⟨"y"⟩], 2.5), ([⟨"x"⟩], 1.0), ([⟨"y"⟩, ⟨"z"⟩], 0.5)]

/-- The same with the factors of the first term exchanged. -/
def scatteredInOrder : List (List Variable × Float) :=
  [([⟨"y"⟩, ⟨"z"⟩], 2.5), ([⟨"x"⟩], 1.0), ([⟨"y"⟩, ⟨"z"⟩], 0.5)]

/-- The same with the term of `x` first. -/
def gathered : List (List Variable × Float) :=
  [([⟨"x"⟩], 1.0), ([⟨"z"⟩, ⟨"y"⟩], 2.5), ([⟨"y"⟩, ⟨"z"⟩], 0.5)]

/-- `y * z`. -/
def productOfYAndZ : Monomial := ⟨[⟨"y"⟩, ⟨"z"⟩], by decide⟩

theorem ofFactors_merges_scattered :
    (ofFactors scattered).get? productOfYAndZ = some 3.0 ∧
    3.0 = (coefficientsGiven scattered productOfYAndZ.factors).foldl (· + ·) 0 ∧
    Permuted scattered scatteredInOrder ∧ ofFactors scatteredInOrder = ofFactors scattered ∧
    Reorders scattered gathered ∧ ofFactors gathered = ofFactors scattered := by
  obtain ⟨_, hfound, hpermuted, hreordered⟩ := ofFactors_merges scattered
  have hget : (ofFactors scattered).get? productOfYAndZ = some 3.0 := by
    rw [get?_ofFactors]
    decide
  have hinside : Permuted scattered scatteredInOrder :=
    .cons ⟨.swap _ _ _, rfl⟩ (.cons ⟨.refl _, rfl⟩ (.cons ⟨.refl _, rfl⟩ .nil))
  have hamong : Reorders scattered gathered :=
    ⟨(Equiv.swap 0 1 : Fin 3 ≃ Fin 3), by decide, by decide⟩
  exact ⟨hget, (hfound _ _ hget).1, hinside, hpermuted _ hinside, hamong, hreordered _ hamong⟩

end Expr

end PolyRow
