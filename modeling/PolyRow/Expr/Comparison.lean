import PolyRow.Expr.Arithmetic

/-!
# Comparisons

A comparison of two operands is their difference without its constant term,
bounded by the negated constant on the side, or sides, that the sense selects.
The constants of both operands end up in the bound alone.
-/

namespace PolyRow

/-- How the two sides of a comparison are related. -/
inductive ComparisonSense where
  | lessEqual
  | greaterEqual
  | equal
deriving DecidableEq

namespace ComparisonSense

/-- Short name of the sense. -/
def label : ComparisonSense → String
  | .lessEqual => "le"
  | .greaterEqual => "ge"
  | .equal => "eq"

/-- The relation sign. -/
def symbol : ComparisonSense → String
  | .lessEqual => "<="
  | .greaterEqual => ">="
  | .equal => "=="

/-- The sense that holds with the two sides exchanged. -/
def converse : ComparisonSense → ComparisonSense
  | .lessEqual => .greaterEqual
  | .greaterEqual => .lessEqual
  | .equal => .equal

/-- The lower and the upper bound that compare with `threshold`. -/
def boundsFor {κ : Type} (s : ComparisonSense) (threshold : κ) : Option κ × Option κ :=
  match s with
  | .lessEqual => (none, some threshold)
  | .greaterEqual => (some threshold, none)
  | .equal => (some threshold, some threshold)

end ComparisonSense

namespace Expr

variable {κ : Type} [Scalar κ]

/-- The bounded expression that says `e` is in the given sense to `other`. -/
def compare (e : Expr κ) (other : Operand κ) (s : ComparisonSense) : Expr κ :=
  let difference := e.minus other
  let bounds := s.boundsFor (0 - difference.constant)
  { terms := difference.terms.erase 1, lower := bounds.1, upper := bounds.2 }

/-- `e ≤ other`. -/
def atMost (e : Expr κ) (other : Operand κ) : Expr κ := e.compare other .lessEqual

/-- `e ≥ other`. -/
def atLeast (e : Expr κ) (other : Operand κ) : Expr κ := e.compare other .greaterEqual

/-- `e = other`. -/
def equalTo (e : Expr κ) (other : Operand κ) : Expr κ := e.compare other .equal

/-- The expression without its constant term, between the same bounds. -/
def withoutConstant (e : Expr κ) : Expr κ := { e with terms := e.terms.erase 1 }

/-- The expression without terms whose coefficient is zero, between the same
bounds. -/
def pruned (e : Expr κ) : Expr κ := { e with terms := e.terms.filter fun t => t.2 != 0 }

/-! ## Closeness -/

/-- Whether two numbers differ by at most `tolerance`. -/
def close (tolerance a b : κ) : Bool := decide (Scalar.abs (a - b) ≤ tolerance)

/-- Two bounds are close if both are missing, or both are there and close. -/
def boundsClose (tolerance : κ) : Option κ → Option κ → Bool
  | none, none => true
  | some a, some b => close tolerance a b
  | _, _ => false

/-- Whether the coefficients of every monomial of either side, and the bounds,
differ by at most `tolerance`. A missing coefficient counts as zero. -/
def approxEq (a b : Expr κ) (tolerance : κ) : Bool :=
  (a.terms.keys ++ b.terms.keys).all
      (fun m => close tolerance (a.coefficient m) (b.coefficient m))
    && boundsClose tolerance a.lower b.lower
    && boundsClose tolerance a.upper b.upper

end Expr

end PolyRow
