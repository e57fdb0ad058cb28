import PolyRow.Proofs.Algebra.Degree
import PolyRow.Proofs.Lowering.Partition
import PolyRow.Proofs.Lowering.Refusal

/-!
# The degree of a lowered expression

A lowered expression reads its degree off the parts: the highest part that is not empty
decides, and only within the last part monomials are looked at. As the parts hold exactly
the terms that were kept, this is the greatest degree of a monomial among them, and the
number of terms in the parts is that of the monomials other than the empty product.

## Main results

* `Lowered.Partitions.degree_eq`, `Lowered.Partitions.termCount_eq`: what the parts say of
  the terms that are kept.
* `Lowered.degree_le_degreeLimit`: nothing above the highest degree accepted comes through.
* `Expr.tracks_degree`: degree and variables through arithmetic and lowering.
-/

namespace PolyRow

variable {κ : Type}

/-! ## What stands in the parts -/

namespace Lowered.Partitions

variable {l : Lowered κ} {e : Expr κ}

/-- A part that is made of the terms of some degrees is empty if there is no monomial of
these degrees. -/
private theorem filter_degree_eq_nil_iff {p : Nat → Bool} :
    (e.terms.entries.filter fun t => p t.1.degree) = [] ↔
      ∀ m ∈ e.terms.keys, p m.degree = false := by
  rw [List.filter_eq_nil_iff, Terms.keys, List.forall_mem_map]
  simp only [Bool.not_eq_true]

theorem linear_eq_nil_iff (h : l.Partitions e) :
    l.linear = [] ↔ ∀ m ∈ e.terms.keys, m.degree ≠ 1 := by
  rw [← List.map_eq_nil_iff, h.linear, filter_degree_eq_nil_iff (p := fun d => decide (d = 1))]
  simp only [decide_eq_false_iff_not, ne_eq]

theorem bilinear_eq_nil_iff (h : l.Partitions e) :
    l.bilinear = [] ↔ ∀ m ∈ e.terms.keys, m.degree ≠ 2 := by
  rw [← List.map_eq_nil_iff, h.bilinear, filter_degree_eq_nil_iff (p := fun d => decide (d = 2))]
  simp only [decide_eq_false_iff_not, ne_eq]

theorem higher_eq_nil_iff (h : l.Partitions e) :
    l.higher = [] ↔ ∀ m ∈ e.terms.keys, m.degree ≤ 2 := by
  rw [h.higher, filter_degree_eq_nil_iff (p := fun d => decide (2 < d))]
  simp only [decide_eq_false_iff_not, not_lt]

/-- **The degree of the parts is that of the expression.** -/
theorem degree_eq (h : l.Partitions e) : l.degree = e.degree := by
  have hlinear := h.linear_eq_nil_iff
  have hbilinear := h.bilinear_eq_nil_iff
  have hhigher := h.higher_eq_nil_iff
  unfold degree
  simp only [List.isEmpty_iff]
  by_cases hcubes : l.higher = []
  · rw [if_pos hcubes]
    have hle : ∀ m ∈ e.terms.keys, m.degree ≤ 2 := hhigher.1 hcubes
    by_cases hproducts : l.bilinear = []
    · rw [if_pos hproducts]
      have hle : ∀ m ∈ e.terms.keys, m.degree ≤ 1 := fun m hm => by
        have hne := hbilinear.1 hproducts m hm
        have htwo := hle m hm
        omega
      by_cases hvariables : l.linear = []
      · rw [if_pos hvariables]
        refine (Nat.le_zero.1 (Expr.degree_le_iff.2 fun m hm => ?_)).symm
        have hne := hlinear.1 hvariables m hm
        have hone := hle m hm
        omega
      · rw [if_neg hvariables]
        rw [hlinear] at hvariables
        push Not at hvariables
        obtain ⟨m, hm, hdegree⟩ := hvariables
        rw [Expr.degree_eq_of_mem hm (hdegree ▸ hle), hdegree]
    · rw [if_neg hproducts]
      rw [hbilinear] at hproducts
      push Not at hproducts
      obtain ⟨m, hm, hdegree⟩ := hproducts
      rw [Expr.degree_eq_of_mem hm (hdegree ▸ hle), hdegree]
  · rw [if_neg hcubes]
    rw [hhigher] at hcubes
    push Not at hcubes
    obtain ⟨k, hk, hcube⟩ := hcubes
    have hmem {m : Monomial} (hm : m ∈ e.terms.keys) (hd : 2 < m.degree) :
        ∃ t ∈ l.higher, t.1 = m := by
      obtain ⟨t, ht, rfl⟩ := List.mem_map.1 hm
      rw [h.higher]
      exact ⟨t, List.mem_filter.2 ⟨ht, decide_eq_true hd⟩, rfl⟩
    refine eq_of_forall_ge_iff fun n => ?_
    rw [foldl_max_le_iff, List.forall_mem_map, Expr.degree_le_iff, and_iff_right (Nat.zero_le n)]
    constructor
    · -- What is not among the higher terms is below one of them.
      intro hall m hm
      obtain ⟨t, ht, rfl⟩ := hmem hk hcube
      have hleast := hall t ht
      by_cases hd : 2 < m.degree
      · obtain ⟨u, hu, rfl⟩ := hmem hm hd
        exact hall u hu
      · omega
    · intro hall t ht
      rw [h.higher] at ht
      exact hall t.1 (List.mem_map_of_mem (List.mem_of_mem_filter ht))

/-- Every term but a constant one has degree one, two, or more than two. -/
private theorem length_filter_degree (ts : List (Monomial × κ)) :
    (ts.filter fun t => decide (t.1.degree = 1)).length +
        (ts.filter fun t => decide (t.1.degree = 2)).length +
        (ts.filter fun t => decide (2 < t.1.degree)).length =
      (ts.filter fun t => decide (t.1 ≠ 1)).length := by
  simp only [← List.countP_eq_length_filter]
  induction ts with
  | nil => rfl
  | cons t rest ih =>
      have hone : decide (t.1 ≠ 1) = decide (t.1.degree ≠ 0) := by
        rw [decide_eq_decide, ne_eq, ne_eq, Monomial.degree_eq_zero_iff]
      simp only [List.countP_cons, hone, decide_eq_true_eq]
      split_ifs <;> omega

/-- **The parts have a term for every monomial but the empty product.** -/
theorem termCount_eq (h : l.Partitions e) :
    l.termCount = (e.terms.keys.filter fun m => decide (m ≠ 1)).length := by
  have hlinear := congrArg List.length h.linear
  have hbilinear := congrArg List.length h.bilinear
  rw [List.length_map] at hlinear hbilinear
  rw [termCount, hlinear, hbilinear, h.higher, length_filter_degree, Terms.keys, List.filter_map,
    List.length_map]
  rfl

end Lowered.Partitions

variable [Scalar κ]

/-! ## Lowering -/

namespace LowerConfig

theorem drops_of_none {config : LowerConfig κ} (h : config.simplifyLevel = .none) (c : κ) :
    config.drops c = false := by
  unfold drops
  rw [h]

end LowerConfig

theorem Expr.terms_kept_of_none (e : Expr κ) {config : LowerConfig κ}
    (h : config.simplifyLevel = .none) : (e.kept config).terms = e.terms := by
  refine Terms.ext (List.filter_eq_self.2 fun t _ => ?_)
  rw [LowerConfig.drops_of_none h]
  rfl

namespace Lowered

variable {e : Expr κ} {config : LowerConfig κ} {l : Lowered κ}

theorem degree_kept_le (h : ofExpr e config = .ok l) :
    (e.kept config).degree ≤ config.degreeLimit := by
  refine Expr.degree_le_iff.2 (List.forall_mem_map.2 fun t ht => ?_)
  obtain ⟨ht, hkept⟩ := List.mem_filter.1 ht
  by_contra hhigh
  exact not_offends_of_ofExpr h t ht (.inr ⟨(Bool.not_eq_true' _).mp hkept, not_le.1 hhigh⟩)

/-- Nothing above the highest degree accepted comes through. -/
theorem degree_le_degreeLimit (h : ofExpr e config = .ok l) : l.degree ≤ config.degreeLimit := by
  rw [(partitions_of_ofExpr h).degree_eq]
  exact degree_kept_le h

end Lowered

/-! ## Degree and variables throughout -/

namespace Expr

/-- **Degree and variables are tracked exactly**, through arithmetic and through lowering,
over doubles as over any other scalars. Let `a` be an expression and `o` an operand, for
example another expression.

* Sum and difference have the greater of the two degrees and the variables of both, also
  where terms cancel.
* The product has the sum of the degrees and the variables of both, and if one of the two
  is empty it is empty.
* Multiples, the negation and quotients, which exist for every number other than zero, keep
  the degree, the number of terms and the variables.
* If lowering without simplification succeeds, the parts have the degree of the expression,
  which is within the highest degree accepted, they are linear if it is at most one, and
  they have a term for every monomial other than the empty product. -/
theorem tracks_degree (a : Expr κ) (o : Operand κ) :
    ((a.plus o).Joins a o.toExpr ∧ (a.minus o).Joins a o.toExpr) ∧
    ((a.isEmpty = false → o.toExpr.isEmpty = false →
        (a.times o).degree = a.degree + o.toExpr.degree ∧
          ∀ x, x ∈ (a.times o).variableList ↔ x ∈ a.variableList ∨ x ∈ o.toExpr.variableList) ∧
      (a.isEmpty = true ∨ o.toExpr.isEmpty = true → (a.times o).isEmpty = true)) ∧
    ((∀ c, (a.scale c).SameSupport a) ∧ a.neg.SameSupport a ∧
      (∀ c, (c == 0) = false → ∃ r, a.div? (.scalar c) = .ok r) ∧
      ∀ r, a.div? o = .ok r → r.SameSupport a) ∧
    ∀ (config : LowerConfig κ) (l : Lowered κ), config.simplifyLevel = .none →
      Lowered.ofExpr a config = .ok l →
        l.degree = a.degree ∧ a.degree ≤ config.degreeLimit ∧
        (l.isLinear = true ↔ a.degree ≤ 1) ∧
        l.termCount = (a.terms.keys.filter fun m => decide (m ≠ 1)).length := by
  refine ⟨⟨joins_plus a o, joins_minus a o⟩, ⟨fun ha ho => ?_, isEmpty_times_iff.2⟩,
    ⟨sameSupport_scale a, sameSupport_neg a, fun c hc => ?_, fun _ => sameSupport_of_div?⟩,
    fun config l hnone h => ?_⟩
  · exact ⟨degree_times ha ho, fun _ => mem_variableList_times ha ho⟩
  · exact ⟨_, div?_eq_ok_iff.2 ⟨c, rfl, hc, rfl⟩⟩
  · have hpartitions := Lowered.partitions_of_ofExpr h
    have hterms := a.terms_kept_of_none hnone
    have hdegree : l.degree = a.degree := by
      rw [hpartitions.degree_eq, degree, degree, hterms]
    have hlinear : l.isLinear = true ↔ a.degree ≤ 1 := by
      rw [Lowered.isLinear, decide_eq_true_iff, hdegree]
    have hcount := hpartitions.termCount_eq
    rw [hterms] at hcount
    exact ⟨hdegree, hdegree ▸ Lowered.degree_le_degreeLimit h, hlinear, hcount⟩

/-- `x - y` less itself still has a degree and two variables, and its square is quadratic. -/
theorem tracks_degree_xMinusY :
    (xMinusY.minus (.expr xMinusY)).degree = 1 ∧
    (⟨"y"⟩ : Variable) ∈ (xMinusY.minus (.expr xMinusY)).variableList ∧
    (xMinusY.times (.expr xMinusY)).degree = 2 ∧
    ∃ l, Lowered.ofExpr xMinusY {} = .ok l ∧ l.degree = 1 ∧ l.isLinear = true ∧
      l.termCount = 2 := by
  obtain ⟨⟨_, hminus⟩, ⟨htimes, _⟩, _, hlowered⟩ := tracks_degree xMinusY (.expr xMinusY)
  have hone : xMinusY.degree = 1 := by decide
  have hy : (⟨"y"⟩ : Variable) ∈ xMinusY.variableList :=
    mem_variableList.2 ⟨.single ⟨"y"⟩, by decide, by decide⟩
  obtain ⟨hproduct, _⟩ := htimes rfl rfl
  refine ⟨hminus.degree.trans (by rw [hone]; rfl), (hminus.mem_variableList _).2 (.inl hy),
    hproduct.trans (by rw [hone]; rfl), ?_⟩
  obtain ⟨hdegree, _, hlinear, hcount⟩ := hlowered {} _ rfl rfl
  exact ⟨_, rfl, hdegree.trans hone, hlinear.2 hone.le, hcount.trans (by decide)⟩

end Expr

end PolyRow
