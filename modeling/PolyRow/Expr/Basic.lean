import PolyRow.Terms.Addition

/-!
# Expressions

A polynomial over variables, with an optional bound on either side. The
polynomial is a term table, so the expression is in normal form by
construction; a plain algebraic value has no bound, and a comparison is an
expression whose bounds are set.

Whatever takes coefficients sums those of one monomial, in the order given and
from zero.
-/

namespace PolyRow

/-- A polynomial with optional bounds on its value. -/
structure Expr (κ : Type) where
  /-- The coefficients by monomial. -/
  terms : Terms κ := .empty
  /-- The least admitted value, if there is one. -/
  lower : Option κ := none
  /-- The greatest admitted value, if there is one. -/
  upper : Option κ := none

namespace Expr

variable {κ : Type}

@[ext] theorem ext {a b : Expr κ} (ht : a.terms = b.terms) (hl : a.lower = b.lower)
    (hu : a.upper = b.upper) : a = b := by
  cases a; cases b; simp_all

/-- No terms and no bounds. -/
def empty : Expr κ := {}

/-- The same polynomial between the given bounds, which replace both old ones. -/
def withBounds (e : Expr κ) (lower upper : Option κ) : Expr κ := { e with lower, upper }

/-- The stored coefficient of a monomial, if it has an entry. -/
def get? (e : Expr κ) (m : Monomial) : Option κ := e.terms.get? m

/-- Whether either side is bounded. -/
def isBounded (e : Expr κ) : Bool := e.lower.isSome || e.upper.isSome

/-- Number of stored terms. -/
def size (e : Expr κ) : Nat := e.terms.size

/-- Whether no term is stored. -/
def isEmpty (e : Expr κ) : Bool := e.terms.entries.isEmpty

/-- The greatest degree of a stored monomial, zero when there is none. -/
def degree (e : Expr κ) : Nat := (e.terms.keys.map Monomial.degree).foldl max 0

/-- The variables that occur in stored monomials, each once and in order. -/
def variableList (e : Expr κ) : List Variable :=
  Variable.sort (e.terms.keys.flatMap Monomial.factors).eraseDups

variable [Scalar κ]

/-- The polynomial with the given terms; factors may come in any order, and
terms of one monomial are summed. -/
def ofTerms (ts : List (Monomial × κ)) : Expr κ := { terms := .ofList ts }

/-- A number, stored as the coefficient of the empty product. -/
def const (c : κ) : Expr κ := ofTerms [(1, c)]

/-- A multiple of a variable. -/
def term (x : Variable) (c : κ) : Expr κ := ofTerms [(.single x, c)]

/-- A variable by itself. -/
def var (x : Variable) : Expr κ := term x 1

/-- The coefficient of a monomial, zero when it has no entry. -/
def coefficient (e : Expr κ) (m : Monomial) : κ := (e.get? m).getD 0

/-- The coefficient of the empty product. -/
def constant (e : Expr κ) : κ := e.coefficient 1

/-- Equality of the parts: the same monomials, numerically equal coefficients
and numerically equal bounds. -/
instance : BEq (Expr κ) :=
  ⟨fun a b => a.terms.entries == b.terms.entries && a.lower == b.lower && a.upper == b.upper⟩

end Expr

end PolyRow
