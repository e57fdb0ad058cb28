import PolyRow.Expr.Basic
import PolyRow.Expr.Error

/-!
# Evaluation

The value of a polynomial under an assignment of values to variables. The terms
are taken in order of their monomials; each is its coefficient times the values
of its factors, from left to right, and the products are added up from zero.
Bounds play no part.

A variable without a value is an error even where its coefficient is zero, and
the first one met is reported.
-/

namespace PolyRow

variable {κ : Type} [Scalar κ]

/-- `c` times the values of the factors, from left to right. -/
def Monomial.evaluate (value : Variable → Option κ) (c : κ) (m : Monomial) :
    Except ExprError κ :=
  m.factors.foldlM (fun product x =>
    match value x with
    | some v => .ok (product * v)
    | none => .error (.unknownVariable x.name)) c

/-- The value of the polynomial under an assignment. -/
def Expr.evaluate (e : Expr κ) (value : Variable → Option κ) : Except ExprError κ :=
  e.terms.entries.foldlM (fun total t => do
    let product ← t.1.evaluate value t.2
    return total + product) 0

end PolyRow
