import Mathlib
import PolyRow.Proofs.Algebra.Agreement
import PolyRow.Proofs.Double.Zero

/-!
# Identities that hold on doubles

Rounding breaks most laws of arithmetic, but not those in which every result is a double
already. A product or a quotient with one, and two negations, change no bit, of a zero of
either sign, an infinity or an undefined coefficient as little as of a number. A sum with
zero may store a constant that was not there and may change the sign of a zero; with zeros
left out it is the same polynomial. A difference of an expression with itself cancels where
the coefficients are finite, and only there: an infinity less itself is undefined, and what
is undefined is not left out.

## Main results

* `Double.add_neg_beq_zero_iff`: the doubles that cancel.
* `Expr.pruned_plus_zero`, `Expr.pruned_minus_zero`: sums and differences with zero.
* `Expr.isEmpty_pruned_minus_self_iff`: the expressions that cancel.
* `Expr.identities_of_doubles`: all of them in one statement.
-/

namespace PolyRow

namespace Double

/-- **A double cancels with its negation if it is finite.** -/
theorem add_neg_beq_zero_iff {x : Float} :
    (x + x * -1 == 0) = true ↔ Scalar.isFinite x = true := by
  have hdifference : number x + -number x = number x - number x := rfl
  rw [beq_zero_iff_number, number_add, number_mul_neg_one, hdifference, rounded_sub_self,
    isFinite_iff, ← ExtendedRat.isFinite_iff]
  by_cases hfinite : Scalar.isFinite (number x) = true
  · rw [if_pos hfinite]
    exact iff_of_true rfl hfinite
  · rw [if_neg hfinite]
    exact iff_of_false ExtendedRat.noConfusion hfinite

end Double

namespace Expr

/-! ## No bit changes -/

/-- Scaling that keeps every coefficient keeps the terms. -/
private theorem terms_scale_eq {e : Expr Float} {c : Float} (h : ∀ x : Float, x * c = x) :
    (e.scale c).terms = e.terms := by
  refine Terms.ext_get? fun m => ?_
  have hscaled : (e.scale c).terms.get? m = (e.get? m).map (· * c) := get?_scale e c m
  rw [hscaled, funext h, Option.map_id']
  rfl

theorem terms_times_one (e : Expr Float) : (e.times (.scalar 1)).terms = e.terms :=
  terms_scale_eq Double.mul_one_eq

theorem exists_div?_one (e : Expr Float) :
    ∃ r, e.div? (.scalar 1) = .ok r ∧ r.terms = e.terms := by
  have hone : (1 : Float) / 1 = 1 := by decide
  have haccepted : e.div? (.scalar 1) = .ok (e.scale 1) :=
    congrArg (fun c => Except.ok (e.scale c)) hone
  exact ⟨e.scale 1, haccepted, terms_scale_eq Double.mul_one_eq⟩

theorem terms_neg_neg (e : Expr Float) : e.neg.neg.terms = e.terms := by
  refine Terms.ext_get? fun m => ?_
  have hnegated : e.neg.neg.terms.get? m = ((e.get? m).map (· * -1)).map (· * -1) := by
    rw [← get?_scale]
    exact get?_scale _ _ m
  rw [hnegated, Option.map_map]
  have hkept : (fun x : Float => x * -1) ∘ (· * -1) = id :=
    funext Double.mul_neg_one_mul_neg_one
  rw [hkept, Option.map_id]
  rfl

/-! ## Zeros left out -/

theorem get?_pruned (e : Expr Float) (m : Monomial) :
    e.pruned.terms.get? m = (e.get? m).filter (· != 0) :=
  Terms.get?_filter _ _ _

/-- Pruned expressions have the same terms if they have the same coefficients, zeros
counting as missing. -/
private theorem terms_pruned_eq {a b : Expr Float}
    (h : ∀ m, (a.get? m).filter (· != 0) = (b.get? m).filter (· != 0)) :
    a.pruned.terms = b.pruned.terms := by
  refine Terms.ext_get? fun m => ?_
  rw [get?_pruned, get?_pruned]
  exact h m

/-- A constant that zero is added to is kept, or it is a zero before and after. -/
theorem pruned_plus_zero (e : Expr Float) :
    (e.plus (.scalar 0)).pruned.terms = e.pruned.terms := by
  refine terms_pruned_eq fun m => ?_
  rw [get?_plus_scalar]
  by_cases hm : m = 1
  · subst hm
    rw [if_pos rfl]
    cases e.get? 1 with
    | none => rfl
    | some c =>
        by_cases hc : c = -0
        · subst hc
          rfl
        · show (some (c + 0)).filter _ = _
          rw [Double.add_zero_eq hc]
  · rw [if_neg hm]

/-- The negated zero is a negative one, and adding it changes no bit. -/
theorem pruned_minus_zero (e : Expr Float) :
    (e.minus (.scalar 0)).pruned.terms = e.pruned.terms := by
  refine terms_pruned_eq fun m => ?_
  have hdifference : (e.minus (.scalar 0)).get? m =
      Terms.addFound (e.get? m) (if m = 1 then some (-0) else none) := by
    show (e.add ((const 0).scale (-1))).get? m = _
    rw [get?_add, get?_scale, get?_const]
    by_cases hm : m = 1
    · rw [if_pos hm, if_pos hm]
      rfl
    · rw [if_neg hm, if_neg hm]
      rfl
  rw [hdifference]
  by_cases hm : m = 1
  · rw [if_pos hm]
    cases e.get? m with
    | none => rfl
    | some c =>
        show (some (c + -0)).filter _ = _
        rw [Double.add_negZero_eq]
  · rw [if_neg hm]
    cases e.get? m with
    | none => rfl
    | some c => rfl

/-! ## Cancellation -/

/-- Every monomial of the expression meets its own negation. -/
theorem terms_minus_self (e : Expr Float) :
    (e.minus (.expr e)).terms = e.terms.map fun c => c + c * -1 := by
  refine Terms.ext_get? fun m => ?_
  have hdifference : (e.minus (.expr e)).terms.get? m =
      Terms.addFound (e.get? m) ((e.get? m).map (· * -1)) := by
    rw [← get?_scale]
    exact get?_add e (e.scale (-1)) m
  have hfound : e.get? m = e.terms.get? m := rfl
  rw [hdifference, Terms.get?_map, hfound]
  cases e.terms.get? m with
  | none => rfl
  | some c => rfl

/-- **An expression cancels with itself exactly if its coefficients are finite.** -/
theorem isEmpty_pruned_minus_self_iff (e : Expr Float) :
    (e.minus (.expr e)).pruned.isEmpty = true ↔
      ∀ s ∈ e.terms.entries, Scalar.isFinite s.2 = true := by
  have hentries : (e.minus (.expr e)).terms.entries =
      e.terms.entries.map fun s => (s.1, s.2 + s.2 * -1) :=
    congrArg Terms.entries (terms_minus_self e)
  show ((e.minus (.expr e)).terms.entries.filter fun s => s.2 != 0).isEmpty = true ↔ _
  rw [List.isEmpty_iff, List.filter_eq_nil_iff, hentries, List.forall_mem_map]
  refine forall₂_congr fun s _ => ?_
  rw [bne, Bool.not_eq_true', Bool.not_eq_false, Double.add_neg_beq_zero_iff]

/-- **The identities that hold on doubles**, for arbitrary coefficients. One as a factor or
a divisor and two negations keep all terms to the last bit; zero as a summand keeps the
pruned terms; and an expression cancels with itself exactly if its coefficients are
finite. -/
theorem identities_of_doubles (e : Expr Float) :
    (e.times (.scalar 1)).terms = e.terms ∧
    (∃ r, e.div? (.scalar 1) = .ok r ∧ r.terms = e.terms) ∧
    e.neg.neg.terms = e.terms ∧
    (e.plus (.scalar 0)).pruned.terms = e.pruned.terms ∧
    (e.minus (.scalar 0)).pruned.terms = e.pruned.terms ∧
    ((e.minus (.expr e)).pruned.isEmpty = true ↔
      ∀ s ∈ e.terms.entries, Scalar.isFinite s.2 = true) :=
  ⟨terms_times_one e, exists_div?_one e, terms_neg_neg e, pruned_plus_zero e,
    pruned_minus_zero e, isEmpty_pruned_minus_self_iff e⟩

end Expr

end PolyRow
