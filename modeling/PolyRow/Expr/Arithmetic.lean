import PolyRow.Operand
import PolyRow.Terms.Lookup

/-!
# Arithmetic of expressions

Sums, differences, products, scalings and quotients by a number. None of the
results has a bound, whatever the operands carried.

A number on the right of `plus` or `times` is not promoted: it is added to the
constant entry, or multiplies every coefficient in place. Over exact numbers
this is the same as promoting it first; over doubles the two can differ in the
sign of a zero.

Stored monomials are never dropped, not even when terms cancel.

## Main results

* `get?_scale`, `get?_add`, `get?_mul`: the coefficients of a result.
* `keys_scale`, `mem_keys_add`, `mem_keys_mul`: its monomials.
* `mem_keys_plus`, `mem_keys_minus`, `mem_keys_times`: the same for operands, where a number
  counts as a constant term.
* `div?_eq_ok_iff`: which quotients there are.
-/

namespace PolyRow

namespace Expr

variable {κ : Type} [Scalar κ]

/-- Every coefficient times `c`. Nothing is added, so a zero may come out
negative. -/
def scale (e : Expr κ) (c : κ) : Expr κ := { terms := e.terms.map (· * c) }

/-- The terms of `a`, with those of `b` added to them. -/
def add (a b : Expr κ) : Expr κ := { terms := a.terms.add b.terms }

/-- The products of all pairs of terms, summed from zero per monomial in the
order of the pairs. -/
def mul (a b : Expr κ) : Expr κ := { terms := .ofList (a.terms.products b.terms) }

/-- The sum with an operand. -/
def plus (e : Expr κ) : Operand κ → Expr κ
  | .scalar c => { terms := e.terms.accumulate 1 c }
  | other => e.add other.toExpr

/-- The difference: the sum with minus one times the operand. -/
def minus (e : Expr κ) (other : Operand κ) : Expr κ := e.add (other.toExpr.scale (-1))

/-- The product with an operand. -/
def times (e : Expr κ) : Operand κ → Expr κ
  | .scalar c => e.scale c
  | other => e.mul other.toExpr

/-- The quotient by a nonzero number, taken as the product with its reciprocal.
No other divisor is admitted. -/
def div? (e : Expr κ) : Operand κ → Except ExprError (Expr κ)
  | .scalar c => if c == 0 then .error .divisionByZero else .ok (e.scale (1 / c))
  | other => .error (.unsupportedDivisor other.kind)

/-- The negation. -/
def neg (e : Expr κ) : Expr κ := e.scale (-1)

instance : Neg (Expr κ) := ⟨neg⟩

/-- The sum of a list of operands, taken from the left and from nothing. -/
def sum (items : List (Operand κ)) : Expr κ := items.foldl plus .empty

/-- The sum of a list of expressions. -/
def linearSum (es : List (Expr κ)) : Expr κ := sum (es.map .expr)

/-- The sum of multiples of variables; pairs with coefficient zero are left out
beforehand. -/
def linearTerms (ts : List (Variable × κ)) : Expr κ :=
  ofTerms ((ts.filter fun t => t.2 != 0).map fun t => (.single t.1, t.2))

/-- The sum of multiples of products of two variables; triples with coefficient
zero are left out beforehand. -/
def quadraticForm (ts : List ((Variable × Variable) × κ)) : Expr κ :=
  ofTerms ((ts.filter fun t => t.2 != 0).map fun t => (.ofList [t.1.1, t.1.2], t.2))

end Expr

/-! ## Operators

Binary operators take operands on both sides. A number on the left of a sum or
a product changes places with the right side, so that it, too, acts in place. -/

namespace Operand

variable {κ : Type} [Scalar κ]

/-- `left + right`. -/
def add : Operand κ → Operand κ → Expr κ
  | .scalar c, right => right.toExpr.plus (.scalar c)
  | left, right => left.toExpr.plus right

/-- `left - right`. -/
def sub (left right : Operand κ) : Expr κ := left.toExpr.minus right

/-- `left * right`. -/
def mul : Operand κ → Operand κ → Expr κ
  | .scalar c, right => right.toExpr.times (.scalar c)
  | left, right => left.toExpr.times right

/-- `left / right`. -/
def div? (left right : Operand κ) : Except ExprError (Expr κ) := left.toExpr.div? right

end Operand

/-! ## What is stored -/

namespace Expr

variable {κ : Type} [Scalar κ]

theorem keys_scale (e : Expr κ) (c : κ) : (e.scale c).terms.keys = e.terms.keys :=
  Terms.keys_map _ _

theorem get?_scale (e : Expr κ) (c : κ) (m : Monomial) :
    (e.scale c).get? m = (e.get? m).map (· * c) :=
  Terms.get?_map _ _ _

theorem get?_add (a b : Expr κ) (m : Monomial) :
    (a.add b).get? m = Terms.addFound (a.get? m) (b.get? m) :=
  Terms.get?_add _ _ _

theorem get?_mul (a b : Expr κ) (m : Monomial) :
    (a.mul b).get? m = Terms.sum? (Terms.coefficientsOf (a.terms.products b.terms) m) :=
  Terms.get?_ofList _ _

theorem mem_keys_add (a b : Expr κ) (m : Monomial) :
    m ∈ (a.add b).terms.keys ↔ m ∈ a.terms.keys ∨ m ∈ b.terms.keys :=
  Terms.mem_keys_add _ _ _

theorem mem_keys_mul (a b : Expr κ) (m : Monomial) :
    m ∈ (a.mul b).terms.keys ↔ ∃ k ∈ a.terms.keys, ∃ l ∈ b.terms.keys, k * l = m := by
  rw [mul, Terms.mem_keys_ofList, Terms.map_fst_products]
  simp only [List.mem_flatMap, List.mem_map]

theorem mem_keys_const (c : κ) (m : Monomial) : m ∈ (const c).terms.keys ↔ m = 1 := by
  rw [const, ofTerms, Terms.mem_keys_ofList, List.map_singleton, List.mem_singleton]

theorem mem_keys_plus (e : Expr κ) (o : Operand κ) (m : Monomial) :
    m ∈ (e.plus o).terms.keys ↔ m ∈ e.terms.keys ∨ m ∈ o.toExpr.terms.keys := by
  obtain b | x | c := o
  · exact mem_keys_add e b m
  · exact mem_keys_add e (var x) m
  · show m ∈ (e.terms.accumulate 1 c).keys ↔ m ∈ e.terms.keys ∨ m ∈ (const c).terms.keys
    rw [Terms.mem_keys_accumulate, mem_keys_const, Or.comm]

theorem mem_keys_minus (e : Expr κ) (o : Operand κ) (m : Monomial) :
    m ∈ (e.minus o).terms.keys ↔ m ∈ e.terms.keys ∨ m ∈ o.toExpr.terms.keys := by
  rw [minus, mem_keys_add, keys_scale]

theorem mem_keys_times (e : Expr κ) (o : Operand κ) (m : Monomial) :
    m ∈ (e.times o).terms.keys ↔
      ∃ k ∈ e.terms.keys, ∃ l ∈ o.toExpr.terms.keys, k * l = m := by
  obtain b | x | c := o
  · exact mem_keys_mul e b m
  · exact mem_keys_mul e (var x) m
  · show m ∈ (e.scale c).terms.keys ↔ ∃ k ∈ e.terms.keys, ∃ l ∈ (const c).terms.keys, k * l = m
    rw [keys_scale]
    -- The only monomial of a number is the empty product.
    constructor
    · intro hm
      exact ⟨m, hm, 1, (mem_keys_const c 1).2 rfl, Monomial.mul_one m⟩
    · rintro ⟨k, hk, l, hl, rfl⟩
      rw [(mem_keys_const c l).1 hl, Monomial.mul_one]
      exact hk

theorem div?_eq_ok_iff {e r : Expr κ} {o : Operand κ} :
    e.div? o = .ok r ↔ ∃ c, o = .scalar c ∧ (c == 0) = false ∧ e.scale (1 / c) = r := by
  obtain b | x | c := o
  · simp [div?]
  · simp [div?]
  · cases hc : c == 0 <;> simp [div?, hc]

end Expr

end PolyRow
