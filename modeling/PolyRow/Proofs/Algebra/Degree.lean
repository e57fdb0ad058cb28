import Mathlib
import PolyRow.Proofs.Algebra.Product
import PolyRow.Proofs.Exact.Value

/-!
# Degree and variables of a result

Degree, number of terms and variables depend on the stored monomials only, and no operation
drops one of these. So a sum has the greater of two degrees and the variables of both, also
where terms cancel. The degree of a product is the sum of two: a monomial of the highest
degree on either side meets one of the other, and their product is stored whatever else is
merged into it.

The degree of an expression is known by what it is at most, which is a condition on each
monomial.

## Main results

* `Expr.degree_le_iff`, `Expr.exists_key_degree`: the degree is the greatest of a stored
  monomial.
* `Expr.joins_plus`, `Expr.joins_minus`: sums and differences.
* `Expr.degree_times`, `Expr.mem_variableList_times`: products.
* `Expr.sameSupport_scale`, `Expr.sameSupport_neg`, `Expr.sameSupport_of_div?`: multiples.
-/

namespace PolyRow

/-- The greatest of a start and a list, by what it is at most. -/
theorem foldl_max_le_iff {start bound : Nat} {values : List Nat} :
    values.foldl max start ≤ bound ↔ start ≤ bound ∧ ∀ d ∈ values, d ≤ bound := by
  induction values generalizing start with
  | nil => simp
  | cons d rest ih =>
      rw [List.foldl_cons, ih, max_le_iff, List.forall_mem_cons, and_assoc]

namespace Expr

variable {κ : Type} {a b e : Expr κ}

/-! ## The greatest degree of a monomial -/

theorem degree_le_iff {n : Nat} : e.degree ≤ n ↔ ∀ m ∈ e.terms.keys, m.degree ≤ n := by
  unfold degree
  rw [foldl_max_le_iff, List.forall_mem_map]
  exact and_iff_right (Nat.zero_le n)

theorem degree_le_of_mem {m : Monomial} (h : m ∈ e.terms.keys) : m.degree ≤ e.degree :=
  degree_le_iff.1 le_rfl m h

/-- A bound on every degree that one of them reaches. -/
theorem degree_eq_of_mem {m : Monomial} (hm : m ∈ e.terms.keys)
    (h : ∀ k ∈ e.terms.keys, k.degree ≤ m.degree) : e.degree = m.degree :=
  le_antisymm (degree_le_iff.2 h) (degree_le_of_mem hm)

theorem exists_mem_keys (h : e.isEmpty = false) : ∃ m, m ∈ e.terms.keys :=
  List.exists_mem_of_ne_nil _ fun hnil => Bool.eq_false_iff.1 h (isEmpty_iff.2 hnil)

/-- The degree is that of a stored monomial, unless nothing is stored. -/
theorem exists_key_degree (h : e.isEmpty = false) : ∃ m ∈ e.terms.keys, m.degree = e.degree := by
  by_contra hnone
  push Not at hnone
  have hless (m : Monomial) (hm : m ∈ e.terms.keys) : m.degree < e.degree :=
    lt_of_le_of_ne (degree_le_of_mem hm) (hnone m hm)
  obtain ⟨m, hm⟩ := exists_mem_keys h
  have hpos := hless m hm
  have hlower : e.degree ≤ e.degree - 1 :=
    degree_le_iff.2 fun k hk => Nat.le_sub_one_of_lt (hless k hk)
  omega

/-! ## Sums -/

/-- The degree and the variables of a sum, as if nothing was ever lost. -/
structure Joins (e a b : Expr κ) : Prop where
  degree : e.degree = max a.degree b.degree
  mem_variableList : ∀ x, x ∈ e.variableList ↔ x ∈ a.variableList ∨ x ∈ b.variableList

/-- It is enough that the monomials of both are stored. -/
theorem joins_of_mem_keys
    (h : ∀ m, m ∈ e.terms.keys ↔ m ∈ a.terms.keys ∨ m ∈ b.terms.keys) : e.Joins a b where
  degree := by
    refine eq_of_forall_ge_iff fun n => ?_
    rw [max_le_iff, degree_le_iff, degree_le_iff, degree_le_iff]
    simp only [h, or_imp, forall_and]
  mem_variableList x := by
    simp only [Expr.mem_variableList, h, or_and_right, exists_or]

/-! ## Multiples -/

/-- Whatever depends on monomials only is the same. -/
structure SameSupport (a b : Expr κ) : Prop where
  degree : a.degree = b.degree
  size : a.size = b.size
  variableList : a.variableList = b.variableList

theorem sameSupport_of_keys (h : a.terms.keys = b.terms.keys) : a.SameSupport b where
  degree := by rw [Expr.degree, Expr.degree, h]
  size := by rw [← length_keys, ← length_keys, h]
  variableList := by rw [Expr.variableList, Expr.variableList, h]

/-! ## Operations -/

variable [Scalar κ]

theorem joins_plus (e : Expr κ) (o : Operand κ) : (e.plus o).Joins e o.toExpr :=
  joins_of_mem_keys (mem_keys_plus e o)

theorem joins_minus (e : Expr κ) (o : Operand κ) : (e.minus o).Joins e o.toExpr :=
  joins_of_mem_keys (mem_keys_minus e o)

theorem sameSupport_scale (e : Expr κ) (c : κ) : (e.scale c).SameSupport e :=
  sameSupport_of_keys (keys_scale e c)

theorem sameSupport_neg (e : Expr κ) : e.neg.SameSupport e := sameSupport_scale e (-1)

/-- A quotient is a multiple, if there is one. -/
theorem sameSupport_of_div? {e r : Expr κ} {o : Operand κ} (h : e.div? o = .ok r) :
    r.SameSupport e := by
  obtain ⟨c, _, _, rfl⟩ := div?_eq_ok_iff.1 h
  exact sameSupport_scale e (1 / c)

/-! ## Products -/

section Products

variable {e : Expr κ} {o : Operand κ}

/-- No product is lost, so only an empty side leaves nothing. -/
theorem isEmpty_times_iff :
    (e.times o).isEmpty = true ↔ e.isEmpty = true ∨ o.toExpr.isEmpty = true := by
  obtain b | x | c := o
  · exact isEmpty_mul_iff e b
  · exact isEmpty_mul_iff e (var x)
  · have hnumber : ¬ (const c).isEmpty = true := fun h => by
      have hone := (mem_keys_const c 1).2 rfl
      rw [isEmpty_iff.1 h] at hone
      exact List.not_mem_nil hone
    show (e.scale c).isEmpty = true ↔ e.isEmpty = true ∨ (const c).isEmpty = true
    rw [isEmpty_iff, isEmpty_iff, keys_scale, or_iff_left hnumber]

/-- **Degrees add up**, as two monomials of the highest degrees are multiplied. -/
theorem degree_times (he : e.isEmpty = false) (ho : o.toExpr.isEmpty = false) :
    (e.times o).degree = e.degree + o.toExpr.degree := by
  obtain ⟨k, hk, hkdegree⟩ := exists_key_degree he
  obtain ⟨l, hl, hldegree⟩ := exists_key_degree ho
  apply le_antisymm
  · refine degree_le_iff.2 fun m hm => ?_
    obtain ⟨k', hk', l', hl', rfl⟩ := (mem_keys_times e o m).1 hm
    rw [Monomial.degree_mul]
    exact Nat.add_le_add (degree_le_of_mem hk') (degree_le_of_mem hl')
  · rw [← hkdegree, ← hldegree, ← Monomial.degree_mul]
    exact degree_le_of_mem ((mem_keys_times e o _).2 ⟨k, hk, l, hl, rfl⟩)

theorem mem_variableList_times (he : e.isEmpty = false) (ho : o.toExpr.isEmpty = false)
    {x : Variable} : x ∈ (e.times o).variableList ↔
      x ∈ e.variableList ∨ x ∈ o.toExpr.variableList := by
  simp only [mem_variableList, mem_keys_times]
  constructor
  · rintro ⟨_, ⟨k, hk, l, hl, rfl⟩, hx⟩
    exact (Monomial.mem_factors_mul.1 hx).imp (fun h => ⟨k, hk, h⟩) fun h => ⟨l, hl, h⟩
  · -- A factor of one side stands in a product with any monomial of the other.
    rintro (⟨k, hk, hx⟩ | ⟨l, hl, hx⟩)
    · obtain ⟨l, hl⟩ := exists_mem_keys ho
      exact ⟨k * l, ⟨k, hk, l, hl, rfl⟩, Monomial.mem_factors_mul.2 (.inl hx)⟩
    · obtain ⟨k, hk⟩ := exists_mem_keys he
      exact ⟨k * l, ⟨k, hk, l, hl, rfl⟩, Monomial.mem_factors_mul.2 (.inr hx)⟩

end Products

end Expr

end PolyRow
