import Mathlib
import PolyRow.Expr.Arithmetic
import PolyRow.Proofs.Terms.Accumulation

/-!
# Products term by term

A product of two expressions collects, at each monomial, one contribution for every
pair of terms whose monomials multiply to it. Over doubles the result depends on the
order in which the contributions are added, so the pairs are taken as a list: the
positions of the two terms, in lexicographic order. Nothing is ever dropped, and a
monomial is stored as soon as one pair yields it.

A factor that has one term leaves the terms of the other one apart, since a monomial
can be cancelled from a product.

## Main results

* `Expr.mem_factorings`, `Expr.pairwise_factorings`: the pairs that contribute to a
  monomial and their order.
* `Expr.get?_times_expr`: a coefficient is the sum over these pairs, from zero.
* `Expr.get?_mul_single`, `Expr.size_mul_single`: a factor of one term.
* `Expr.times_sums_factorings`: all of this in one statement.
-/

namespace PolyRow

namespace Terms

variable {κ : Type}

/-- Keys that are replaced one to one keep their coefficients. -/
theorem coefficientsOf_map {f : Monomial → Monomial} (hf : f.Injective) (g : κ → κ)
    (es : List (Monomial × κ)) (m : Monomial) :
    coefficientsOf (es.map fun e => (f e.1, g e.2)) (f m) = (coefficientsOf es m).map g := by
  induction es with
  | nil => rfl
  | cons e rest ih =>
      rw [List.map_cons, coefficientsOf_cons, coefficientsOf_cons, ih]
      by_cases hm : e.1 = m
      · rw [if_pos (congrArg f hm), if_pos hm]
        rfl
      · rw [if_neg fun h => hm (hf h), if_neg hm]

end Terms

namespace Expr

variable {κ : Type}

theorem isEmpty_iff {e : Expr κ} : e.isEmpty = true ↔ e.terms.keys = [] := by
  unfold isEmpty Terms.keys
  rw [List.isEmpty_iff, List.map_eq_nil_iff]

theorem length_keys (e : Expr κ) : e.terms.keys.length = e.size := List.length_map _

/-! ## Pairs of terms -/

/-- The term at a position. -/
def termAt (e : Expr κ) (i : Fin e.size) : Monomial × κ := e.terms.entries.get i

/-- The positions of the terms, one of each factor, whose monomials multiply to `m`.
Pairs with the same first position stand together. -/
def factorings (a b : Expr κ) (m : Monomial) : List (Fin a.size × Fin b.size) :=
  (List.finRange a.size ×ˢ List.finRange b.size).filter fun p =>
    (a.termAt p.1).1 * (b.termAt p.2).1 = m

theorem mem_factorings {a b : Expr κ} {m : Monomial} {p : Fin a.size × Fin b.size} :
    p ∈ factorings a b m ↔ (a.termAt p.1).1 * (b.termAt p.2).1 = m := by
  have hall : p ∈ List.finRange a.size ×ˢ List.finRange b.size :=
    List.mem_product.2 ⟨List.mem_finRange p.1, List.mem_finRange p.2⟩
  unfold factorings
  rw [List.mem_filter, decide_eq_true_iff]
  exact and_iff_right hall

/-- The pairs increase, the first position before the second. -/
theorem pairwise_factorings (a b : Expr κ) (m : Monomial) :
    (factorings a b m).Pairwise (Prod.Lex (· < ·) (· < ·)) := by
  refine List.Pairwise.filter _ (List.pairwise_flatMap.2 ⟨fun i _ => ?_, ?_⟩)
  · exact List.pairwise_map.2 ((List.pairwise_lt_finRange b.size).imp fun hlt => .right i hlt)
  · refine (List.pairwise_lt_finRange a.size).imp fun {i j} hlt p hp q hq => ?_
    obtain ⟨k, _, rfl⟩ := List.mem_map.1 hp
    obtain ⟨l, _, rfl⟩ := List.mem_map.1 hq
    exact .left k l hlt

variable [Scalar κ]

private theorem products_eq_map (a b : Expr κ) :
    a.terms.products b.terms =
      (List.finRange a.size ×ˢ List.finRange b.size).map fun p =>
        ((a.termAt p.1).1 * (b.termAt p.2).1, (a.termAt p.1).2 * (b.termAt p.2).2) := by
  have hleft : (List.finRange a.size).map a.termAt = a.terms.entries := List.map_get_finRange _
  have hright : (List.finRange b.size).map b.termAt = b.terms.entries := List.map_get_finRange _
  unfold Terms.products
  rw [← hleft, ← hright, List.flatMap_map]
  show _ = (List.flatMap _ _).map _
  rw [List.map_flatMap]
  simp only [List.map_map]
  rfl

/-- What the pairs of terms contribute to a monomial, in order. -/
theorem coefficientsOf_products (a b : Expr κ) (m : Monomial) :
    Terms.coefficientsOf (a.terms.products b.terms) m =
      (factorings a b m).map fun p => (a.termAt p.1).2 * (b.termAt p.2).2 := by
  rw [products_eq_map]
  unfold Terms.coefficientsOf factorings
  rw [List.filter_map, List.map_map]
  rfl

/-- **A coefficient of a product is the sum over the pairs of terms** that multiply
to its monomial, from zero and in lexicographic order. -/
theorem get?_times_expr (a b : Expr κ) (m : Monomial) :
    (a.times (.expr b)).get? m =
      if factorings a b m = [] then none
      else some ((factorings a b m).foldl
        (fun c p => c + (a.termAt p.1).2 * (b.termAt p.2).2) 0) := by
  have hsum : (a.times (.expr b)).get? m =
      Terms.sum? (Terms.coefficientsOf (a.terms.products b.terms) m) := get?_mul a b m
  rw [hsum, coefficientsOf_products]
  cases factorings a b m with
  | nil => rfl
  | cons p ps =>
      rw [if_neg (List.cons_ne_nil p ps)]
      exact congrArg some List.foldl_map

/-! ## Monomials of a product -/

theorem keys_mul_comm (a b : Expr κ) : (a.mul b).terms.keys = (b.mul a).terms.keys := by
  refine Terms.keys_ext fun m => ?_
  rw [mem_keys_mul, mem_keys_mul]
  constructor
  · rintro ⟨k, hk, l, hl, rfl⟩
    exact ⟨l, hl, k, hk, Monomial.mul_comm l k⟩
  · rintro ⟨l, hl, k, hk, rfl⟩
    exact ⟨k, hk, l, hl, Monomial.mul_comm k l⟩

/-- No monomial is lost: a product is empty only if a factor is. -/
theorem isEmpty_mul_iff (a b : Expr κ) :
    (a.mul b).isEmpty = true ↔ a.isEmpty = true ∨ b.isEmpty = true := by
  rw [isEmpty_iff, isEmpty_iff, isEmpty_iff]
  constructor
  · intro h
    by_contra hne
    rw [not_or] at hne
    obtain ⟨k, hk⟩ := List.exists_mem_of_ne_nil _ hne.1
    obtain ⟨l, hl⟩ := List.exists_mem_of_ne_nil _ hne.2
    have hmem : k * l ∈ (a.mul b).terms.keys := (mem_keys_mul a b _).2 ⟨k, hk, l, hl, rfl⟩
    rw [h] at hmem
    exact List.not_mem_nil hmem
  · intro h
    refine List.eq_nil_iff_forall_not_mem.2 fun m hm => ?_
    obtain ⟨k, hk, l, hl, _⟩ := (mem_keys_mul a b m).1 hm
    rcases h with h | h
    · rw [h] at hk
      exact List.not_mem_nil hk
    · rw [h] at hl
      exact List.not_mem_nil hl

/-! ## A factor of one term -/

section Single

variable {b : Expr κ} {k : Monomial} {d : κ}

/-- Terms that are moved by a monomial stay apart. -/
private theorem sum?_shifted (a : Expr κ) (g : κ → κ) (k m : Monomial) :
    Terms.sum? (Terms.coefficientsOf (a.terms.entries.map fun e => (e.1 * k, g e.2)) (m * k)) =
      (a.get? m).map fun c => 0 + g c := by
  have hentries : Terms.coefficientsOf a.terms.entries m = (a.get? m).toList :=
    Terms.coefficientsOf_eq_toList a.terms.sorted m
  have hcoefficients := Terms.coefficientsOf_map (f := (· * k))
    (fun _ _ => Monomial.mul_right_cancel) g a.terms.entries m
  rw [hcoefficients, hentries]
  cases a.get? m <;> rfl

/-- Each term meets the only one of the other factor once. -/
theorem get?_mul_single (hb : b.terms.entries = [(k, d)]) (a : Expr κ) (m : Monomial) :
    (a.mul b).get? (m * k) = (a.get? m).map fun c => 0 + c * d := by
  have hproducts : a.terms.products b.terms =
      a.terms.entries.map fun e => (e.1 * k, e.2 * d) := by
    unfold Terms.products
    rw [hb]
    exact List.map_eq_flatMap.symm
  rw [get?_mul, hproducts]
  exact sum?_shifted a (· * d) k m

theorem get?_single_mul (hb : b.terms.entries = [(k, d)]) (a : Expr κ) (m : Monomial) :
    (b.mul a).get? (m * k) = (a.get? m).map fun c => 0 + d * c := by
  have hproducts : b.terms.products a.terms =
      a.terms.entries.map fun e => (e.1 * k, d * e.2) := by
    unfold Terms.products
    rw [hb, List.flatMap_singleton]
    simp only [Monomial.mul_comm k]
  rw [get?_mul, hproducts]
  exact sum?_shifted a (d * ·) k m

/-- Nothing merges, since the monomial of the only term can be cancelled. -/
theorem size_mul_single (hb : b.terms.entries = [(k, d)]) (a : Expr κ) :
    (a.mul b).size = a.size := by
  have hkeys : b.terms.keys = [k] := congrArg (List.map Prod.fst) hb
  have hinjective : Function.Injective (· * k) := fun _ _ => Monomial.mul_right_cancel
  have hperm : (a.mul b).terms.keys.Perm (a.terms.keys.map (· * k)) := by
    refine (List.perm_ext_iff_of_nodup (Terms.nodup_keys _)
      (a.terms.nodup_keys.map hinjective)).2 fun m => ?_
    rw [mem_keys_mul, hkeys, List.mem_map]
    simp only [List.mem_singleton, exists_eq_left]
  calc (a.mul b).size = (a.mul b).terms.keys.length := (length_keys _).symm
    _ = (a.terms.keys.map (· * k)).length := hperm.length_eq
    _ = a.size := by rw [List.length_map, length_keys]

theorem size_single_mul (hb : b.terms.entries = [(k, d)]) (a : Expr κ) :
    (b.mul a).size = a.size := by
  rw [← length_keys, keys_mul_comm, length_keys, size_mul_single hb]

end Single

/-! ## Products -/

/-- **Products are summed exactly, pair by pair.** The monomials of a product are the
sorted concatenations of one monomial of each factor, cancelled ones included. The
coefficient of a monomial is the sum, from zero, over the pairs of terms that multiply
to it, in the lexicographic order of their positions. So both orders of the factors
give the same monomials, a factor of one term keeps the terms of the other one apart,
and a product is empty only if a factor is. -/
theorem times_sums_factorings (a b : Expr κ) :
    (∀ m, m ∈ (a.times (.expr b)).terms.keys ↔
      ∃ k ∈ a.terms.keys, ∃ l ∈ b.terms.keys, m = .ofList (k.factors ++ l.factors)) ∧
    (∀ m, (factorings a b m).Pairwise (Prod.Lex (· < ·) (· < ·)) ∧
      (∀ p, p ∈ factorings a b m ↔ (a.termAt p.1).1 * (b.termAt p.2).1 = m) ∧
      (a.times (.expr b)).get? m =
        if factorings a b m = [] then none
        else some ((factorings a b m).foldl
          (fun c p => c + (a.termAt p.1).2 * (b.termAt p.2).2) 0)) ∧
    (a.times (.expr b)).terms.keys = (b.times (.expr a)).terms.keys ∧
    (∀ k d, b.terms.entries = [(k, d)] →
      (∀ m, (a.times (.expr b)).get? (m * k) = (a.get? m).map fun c => 0 + c * d) ∧
      (∀ m, (b.times (.expr a)).get? (m * k) = (a.get? m).map fun c => 0 + d * c) ∧
      (a.times (.expr b)).size = a.size ∧ (b.times (.expr a)).size = a.size) ∧
    ((a.times (.expr b)).isEmpty = true ↔ a.isEmpty = true ∨ b.isEmpty = true) := by
  refine ⟨fun m => ?_, fun m => ?_, keys_mul_comm a b, fun k d hb => ?_, isEmpty_mul_iff a b⟩
  · show m ∈ (a.mul b).terms.keys ↔ _
    rw [mem_keys_mul]
    simp only [eq_comm (a := m)]
    rfl
  · exact ⟨pairwise_factorings a b m, fun p => mem_factorings, get?_times_expr a b m⟩
  · exact ⟨get?_mul_single hb a, get?_single_mul hb a, size_mul_single hb a,
      size_single_mul hb a⟩

/-- `x - y`. -/
def xMinusY : Expr Float where
  terms := { entries := [(.single ⟨"x"⟩, 1.0), (.single ⟨"y"⟩, -1.0)], sorted := by decide }

/-- `2 * x`. -/
def doubledX : Expr Float where
  terms := { entries := [(.single ⟨"x"⟩, 2.0)], sorted := by decide }

theorem times_sums_factorings_xMinusY_doubledX :
    doubledX.terms.entries = [(.single ⟨"x"⟩, 2.0)] ∧
    (xMinusY.times (.expr doubledX)).get? (.single ⟨"y"⟩ * .single ⟨"x"⟩) = some (-2.0) ∧
    (xMinusY.times (.expr doubledX)).size = 2 ∧ (doubledX.times (.expr xMinusY)).size = 2 := by
  obtain ⟨_, _, _, hsingle, _⟩ := times_sums_factorings xMinusY doubledX
  obtain ⟨hget, _, hsize, hsize'⟩ := hsingle _ _ rfl
  refine ⟨rfl, ?_, hsize, hsize'⟩
  rw [hget]
  decide

end Expr

end PolyRow
