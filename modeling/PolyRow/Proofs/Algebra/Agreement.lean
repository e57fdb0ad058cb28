import Mathlib
import PolyRow.Expr.Comparison
import PolyRow.Proofs.Algebra.Product
import PolyRow.Proofs.Double.Arithmetic
import PolyRow.Proofs.Terms.Relation

/-!
# Agreement of expressions over doubles

The same polynomial can be computed in two ways: a number can be added in place or
promoted first, and a sum can be taken from either side. Over doubles the results
differ in the signs of zeros, because a coefficient that is copied in one computation
is added to zero in the other, and nothing else: rounding gives the same number for
either order of two operands.

So the results agree: they have the same monomials, and coefficients that are equal
or both undefined. Unless one is undefined they are equal expressions.

## Main results

* `Double.same_iff`: doubles are the same if they stand for the same number.
* `Expr.Agrees.beq`: results without undefined coefficients that agree are equal.
* `Expr.fast_paths_agree`: a number in place or promoted, a variable promoted.
* `Expr.plus_agrees_comm`: a sum from either side.
-/

namespace PolyRow

/-! ## Doubles that are the same -/

namespace Double

/-- The doubles are equal, or both are undefined. -/
def Same (x y : Float) : Prop := (x == y) = true ∨ x.isNaN = true ∧ y.isNaN = true

/-- **Doubles are the same if they stand for the same number.** -/
theorem same_iff {x y : Float} : Same x y ↔ number x = number y := by
  have hbeq : (number x == number y) = true ↔ number x ≠ .undefined ∧ number x = number y := by
    show (number x).beq (number y) = true ↔ _
    simp [ExtendedRat.beq]
  unfold Same
  rw [beq_iff_number, isNaN_iff, isNaN_iff, hbeq]
  constructor
  · rintro (⟨_, h⟩ | ⟨hx, hy⟩)
    · exact h
    · rw [hx, hy]
  · intro h
    by_cases hx : number x = .undefined
    · exact .inr ⟨hx, h ▸ hx⟩
    · exact .inl ⟨hx, h⟩

theorem Same.beq {x y : Float} (h : Same x y) (hx : x.isNaN = false) : (x == y) = true := by
  rcases h with h | ⟨hnan, _⟩
  · exact h
  · rw [hx] at hnan
    exact absurd hnan Bool.false_ne_true

theorem same_refl (x : Float) : Same x x := same_iff.2 rfl

theorem Same.symm {x y : Float} (h : Same x y) : Same y x := same_iff.2 (same_iff.1 h).symm

theorem Same.trans {x y z : Float} (hxy : Same x y) (hyz : Same y z) : Same x z :=
  same_iff.2 ((same_iff.1 hxy).trans (same_iff.1 hyz))

theorem same_zero_add (x : Float) : Same x (0 + x) := by
  rw [same_iff, number_zero_add]

theorem same_add_comm (x y : Float) : Same (x + y) (y + x) := by
  rw [same_iff, number_add, number_add, ExtendedRat.add_comm]

theorem same_mul_comm (x y : Float) : Same (x * y) (y * x) := by
  rw [same_iff, number_mul, number_mul, ExtendedRat.mul_comm]

theorem Same.add {x y u w : Float} (hxy : Same x y) (huw : Same u w) : Same (x + u) (y + w) := by
  rw [same_iff] at hxy huw ⊢
  rw [number_add, number_add, hxy, huw]

theorem Same.mul {x y u w : Float} (hxy : Same x y) (huw : Same u w) : Same (x * u) (y * w) := by
  rw [same_iff] at hxy huw ⊢
  rw [number_mul, number_mul, hxy, huw]

end Double

open Double (Same)

namespace Expr

/-! ## Expressions that agree -/

/-- The same monomials, with coefficients that are equal or both undefined. -/
structure Agrees (p q : Expr Float) : Prop where
  keys : p.terms.keys = q.terms.keys
  coefficients : ∀ m, Option.Rel Same (p.get? m) (q.get? m)

theorem agrees_of_rel {p q : Expr Float} (h : ∀ m, Option.Rel Same (p.get? m) (q.get? m)) :
    p.Agrees q := by
  refine ⟨Terms.keys_ext fun m => ?_, h⟩
  have hm : Option.Rel Same (p.terms.get? m) (q.terms.get? m) := h m
  rw [Terms.mem_keys_iff, Terms.mem_keys_iff]
  generalize p.terms.get? m = c, q.terms.get? m = d at hm ⊢
  cases hm <;> exact Iff.rfl

theorem Agrees.trans {p q r : Expr Float} (hpq : p.Agrees q) (hqr : q.Agrees r) :
    p.Agrees r := by
  refine agrees_of_rel fun m => ?_
  have hleft := hpq.coefficients m
  have hright := hqr.coefficients m
  generalize p.get? m = c, q.get? m = d, r.get? m = f at hleft hright ⊢
  cases hleft with
  | none => exact hright
  | some hcd =>
      cases hright with
      | some hdf => exact .some (hcd.trans hdf)

private theorem beq_of_forall₂ {es fs : List (Monomial × Float)}
    (h : List.Forall₂ (EntryRel Same) es fs) (hnan : ∀ t ∈ es, t.2.isNaN = false) :
    (es == fs) = true := by
  rw [beq_iff_forall₂]
  induction h with
  | nil => exact .nil
  | @cons s t ss ts hst _ ih =>
      have hrest := ih fun u hu => hnan u (List.mem_cons_of_mem s hu)
      exact .cons ⟨hst.1, hst.2.beq (hnan s List.mem_cons_self)⟩ hrest

/-- Without bounds and undefined coefficients, expressions that agree are equal. -/
theorem Agrees.beq {p q : Expr Float} (h : p.Agrees q) (hp : p.isBounded = false)
    (hq : q.isBounded = false) (hnan : ∀ t ∈ p.terms.entries, t.2.isNaN = false) :
    (p == q) = true := by
  have hentries := beq_of_forall₂
    (Terms.forall₂_entries p.terms.sorted q.terms.sorted h.coefficients) hnan
  obtain ⟨t, l, u⟩ := p
  obtain ⟨t', l', u'⟩ := q
  simp only [isBounded, Bool.or_eq_false_iff, Option.isSome_eq_false_iff,
    Option.isNone_iff_eq_none] at hp hq
  obtain ⟨rfl, rfl⟩ := hp
  obtain ⟨rfl, rfl⟩ := hq
  show (t.entries == t'.entries && _ && _) = true
  rw [hentries]
  rfl

/-! ## Sums from either side -/

/-- A monomial of one side alone is copied in one order and added to zero in the
other. -/
theorem add_agrees_comm (a b : Expr Float) : (a.add b).Agrees (b.add a) := by
  refine agrees_of_rel fun m => ?_
  rw [get?_add, get?_add]
  cases a.get? m with
  | none =>
      cases b.get? m with
      | none => exact .none
      | some d => exact .some (Double.same_zero_add d).symm
  | some c =>
      cases b.get? m with
      | none => exact .some (Double.same_zero_add c)
      | some d => exact .some (Double.same_add_comm c d)

/-! ## Numbers, in place and promoted -/

section Const

variable {κ : Type} [Scalar κ]

theorem entries_const (c : κ) : (const c).terms.entries = [(1, 0 + c)] :=
  congrArg Terms.entries (Terms.ofList_eq_foldl [((1 : Monomial), c)])

theorem get?_const (c : κ) (m : Monomial) :
    (const c).get? m = if m = 1 then some (0 + c) else none := by
  show (const c).terms.entries.lookup m = _
  rw [entries_const, List.lookup_cons]
  by_cases hm : m = 1
  · rw [if_pos hm, hm, beq_self_eq_true]
  · rw [if_neg hm, beq_false_of_ne hm]
    rfl

theorem get?_plus_scalar (e : Expr κ) (c : κ) (m : Monomial) :
    (e.plus (.scalar c)).get? m = if m = 1 then some ((e.get? 1).getD 0 + c) else e.get? m :=
  Terms.get?_accumulate e.terms 1 m c

/-- A variable is promoted to the expression built from its only term. -/
theorem var_eq_ofTerms (x : Variable) : var x = ofTerms [(.ofList [x], (1 : κ))] := by
  have hfactors : Monomial.ofList [x] = .single x := Monomial.ofList_factors (.single x)
  rw [hfactors]
  rfl

end Const

/-- A number added in place, and promoted on the right. -/
theorem plus_scalar_agrees (e : Expr Float) (s : Float) :
    (e.plus (.scalar s)).Agrees (e.plus (.expr (const s))) := by
  refine agrees_of_rel fun m => ?_
  show Option.Rel Same _ ((e.add (const s)).get? m)
  rw [get?_plus_scalar, get?_add, get?_const]
  by_cases hm : m = 1
  · subst hm
    rw [if_pos rfl, if_pos rfl]
    cases e.get? 1 with
    | none => exact .some ((Double.same_refl 0).add (Double.same_zero_add s))
    | some c => exact .some ((Double.same_refl c).add (Double.same_zero_add s))
  · rw [if_neg hm, if_neg hm]
    cases e.get? m with
    | none => exact .none
    | some c => exact .some (Double.same_refl c)

/-- A number added in place, and promoted on the left. -/
theorem plus_scalar_agrees_const_plus (e : Expr Float) (s : Float) :
    (e.plus (.scalar s)).Agrees ((const s).plus (.expr e)) :=
  (plus_scalar_agrees e s).trans (add_agrees_comm e (const s))

/-- A number that multiplies in place, and promoted on the right. -/
theorem times_scalar_agrees (e : Expr Float) (s : Float) :
    (e.times (.scalar s)).Agrees (e.times (.expr (const s))) := by
  refine agrees_of_rel fun m => ?_
  have hproduct := get?_mul_single (entries_const s) e m
  rw [Monomial.mul_one] at hproduct
  show Option.Rel Same ((e.scale s).get? m) ((e.mul (const s)).get? m)
  rw [get?_scale, hproduct]
  cases e.get? m with
  | none => exact .none
  | some c =>
      have hpromoted : Same (c * s) (c * (0 + s)) :=
        (Double.same_refl c).mul (Double.same_zero_add s)
      exact .some (hpromoted.trans (Double.same_zero_add _))

/-- A number that multiplies in place, and promoted on the left. -/
theorem times_scalar_agrees_const_times (e : Expr Float) (s : Float) :
    (e.times (.scalar s)).Agrees ((const s).times (.expr e)) := by
  refine agrees_of_rel fun m => ?_
  have hproduct := get?_single_mul (entries_const s) e m
  rw [Monomial.mul_one] at hproduct
  show Option.Rel Same ((e.scale s).get? m) (((const s).mul e).get? m)
  rw [get?_scale, hproduct]
  cases e.get? m with
  | none => exact .none
  | some c =>
      have hpromoted : Same (s * c) ((0 + s) * c) :=
        (Double.same_zero_add s).mul (Double.same_refl c)
      exact .some ((Double.same_mul_comm c s).trans
        (hpromoted.trans (Double.same_zero_add _)))

/-- **Operands act in place as they do promoted.** A number on either side of a sum
or a product gives the monomials that the promoted number gives, and coefficients that
are equal or both undefined; a variable gives the very result of the expression built
from it. -/
theorem fast_paths_agree (e : Expr Float) (s : Float) :
    (e.plus (.scalar s)).Agrees (e.plus (.expr (const s))) ∧
    (e.times (.scalar s)).Agrees (e.times (.expr (const s))) ∧
    (Operand.add (.scalar s) (.expr e)).Agrees ((const s).plus (.expr e)) ∧
    (Operand.mul (.scalar s) (.expr e)).Agrees ((const s).times (.expr e)) ∧
    ∀ x : Variable,
      e.plus (.variable x) = e.plus (.expr (ofTerms [(.ofList [x], 1)])) ∧
      e.minus (.variable x) = e.minus (.expr (ofTerms [(.ofList [x], 1)])) ∧
      e.times (.variable x) = e.times (.expr (ofTerms [(.ofList [x], 1)])) ∧
      ∀ c, e.compare (.variable x) c = e.compare (.expr (ofTerms [(.ofList [x], 1)])) c := by
  refine ⟨plus_scalar_agrees e s, times_scalar_agrees e s, plus_scalar_agrees_const_plus e s,
    times_scalar_agrees_const_times e s, fun x => ?_⟩
  have hvar : var x = ofTerms [(.ofList [x], (1 : Float))] := var_eq_ofTerms x
  rw [← hvar]
  exact ⟨rfl, rfl, rfl, fun _ => rfl⟩

/-! ## Addition commutes -/

/-- **Addition commutes on doubles.** Both orders store the monomials of both
expressions, with coefficients that are equal or both undefined; the sums are equal
expressions unless a coefficient is undefined. -/
theorem plus_agrees_comm (a b : Expr Float) :
    (a.plus (.expr b)).Agrees (b.plus (.expr a)) ∧
    (∀ m, m ∈ (a.plus (.expr b)).terms.keys ↔ m ∈ a.terms.keys ∨ m ∈ b.terms.keys) ∧
    ((∀ t ∈ (a.plus (.expr b)).terms.entries, t.2.isNaN = false) →
      (a.plus (.expr b) == b.plus (.expr a)) = true) := by
  have hagrees := add_agrees_comm a b
  refine ⟨hagrees, mem_keys_add a b, fun hnan => ?_⟩
  exact hagrees.beq rfl rfl hnan

/-- `x - 0 * y`. -/
def withSignedZero : Expr Float where
  terms := { entries := [(.single ⟨"x"⟩, 1.0), (.single ⟨"y"⟩, -0.0)], sorted := by decide }

/-- `x + 5 / 2`. -/
def withoutY : Expr Float where
  terms := { entries := [(1, 2.5), (.single ⟨"x"⟩, 1.0)], sorted := by decide }

private theorem isNaN_sum_withSignedZero :
    ∀ t ∈ (withSignedZero.plus (.expr withoutY)).terms.entries, t.2.isNaN = false := by
  have hsum : (withSignedZero.plus (.expr withoutY)).terms =
      withSignedZero.terms.accumulateAll withoutY.terms.entries := Terms.add_eq_foldl _ _
  rw [hsum]
  decide

/-- The sums are equal though the zero of `y` has the other sign in the second one. -/
theorem plus_agrees_comm_withSignedZero :
    (∀ t ∈ (withSignedZero.plus (.expr withoutY)).terms.entries, t.2.isNaN = false) ∧
    (withSignedZero.plus (.expr withoutY) == withoutY.plus (.expr withSignedZero)) = true ∧
    (withSignedZero.plus (.expr withoutY)).get? (.single ⟨"y"⟩) = some (-0.0) ∧
    (withoutY.plus (.expr withSignedZero)).get? (.single ⟨"y"⟩) = some 0.0 := by
  obtain ⟨_, _, hequal⟩ := plus_agrees_comm withSignedZero withoutY
  refine ⟨isNaN_sum_withSignedZero, hequal isNaN_sum_withSignedZero, ?_, ?_⟩
  · show (withSignedZero.add withoutY).get? (.single ⟨"y"⟩) = _
    rw [get?_add]
    decide
  · show (withoutY.add withSignedZero).get? (.single ⟨"y"⟩) = _
    rw [get?_add]
    decide

end Expr

end PolyRow
