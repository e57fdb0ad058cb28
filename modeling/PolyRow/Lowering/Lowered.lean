import PolyRow.Expr.Basic
import PolyRow.Lowering.Config
import PolyRow.Lowering.Error

/-!
# Lowered expressions

An expression sorted by degree into the arrays that a solver takes: a constant,
linear terms, products of two variables, and whatever has a higher degree. Terms
keep the order of their monomials within each part.

Lowering fails on the first term, in that order, that cannot be passed on: one
with a coefficient that is not finite, or one that is kept and has too high a
degree. A dropped term is harmless whatever its degree. Bounds are not looked
at.
-/

namespace PolyRow

/-- Terms by degree. -/
structure Lowered (κ : Type) where
  /-- The coefficient of the empty product. -/
  constant : κ
  /-- Terms of degree one. -/
  linear : List (Variable × κ) := []
  /-- Terms of degree two, factors in order. -/
  bilinear : List (Variable × Variable × κ) := []
  /-- Terms of degree three and above. -/
  higher : List (Monomial × κ) := []
deriving DecidableEq

namespace Lowered

variable {κ : Type}

/-- The greatest degree of a term, zero if only a constant is left. -/
def degree (l : Lowered κ) : Nat :=
  if l.higher.isEmpty then
    if l.bilinear.isEmpty then
      if l.linear.isEmpty then 0 else 1
    else 2
  else (l.higher.map fun t => t.1.degree).foldl max 0

/-- Whether no term has a degree above one. -/
def isLinear (l : Lowered κ) : Bool := decide (l.degree ≤ 1)

/-- Number of terms, the constant not counted. -/
def termCount (l : Lowered κ) : Nat := l.linear.length + l.bilinear.length + l.higher.length

/-- A term of degree one. -/
def linearTerm? : Monomial × κ → Option (Variable × κ)
  | (⟨[x], _⟩, c) => some (x, c)
  | _ => none

/-- A term of degree two. -/
def bilinearTerm? : Monomial × κ → Option (Variable × Variable × κ)
  | (⟨[x, y], _⟩, c) => some (x, y, c)
  | _ => none

/-- Sorts terms by degree; the coefficients of constant terms are summed from
zero. -/
def ofTerms [Scalar κ] (ts : List (Monomial × κ)) : Lowered κ where
  constant := ((ts.filter fun t => t.1.isConstant).map Prod.snd).foldl (· + ·) 0
  linear := ts.filterMap linearTerm?
  bilinear := ts.filterMap bilinearTerm?
  higher := ts.filter fun t => decide (2 < t.1.degree)

end Lowered

namespace LowerConfig

variable {κ : Type} [Scalar κ]

/-- Why a term cannot be passed on, if it cannot. The coefficient is looked at
before anything else, then whether the term is dropped, and its degree last. -/
def refusal? (config : LowerConfig κ) (t : Monomial × κ) : Option (LowerError κ) :=
  if !Scalar.isFinite t.2 then some (.invalidCoefficient t.2)
  else if config.drops t.2 then none
  else if config.degreeLimit < t.1.degree then some (.degreeTooHigh t.1 config.degreeLimit)
  else none

end LowerConfig

/-- The terms of an expression that are not dropped, sorted by degree. -/
def Lowered.ofExpr {κ : Type} [Scalar κ] (e : Expr κ) (config : LowerConfig κ) :
    Except (LowerError κ) (Lowered κ) :=
  match e.terms.entries.findSome? config.refusal? with
  | some error => .error error
  | none => .ok (.ofTerms (e.terms.entries.filter fun t => !config.drops t.2))

end PolyRow
