import PolyRow.Lowering.Lowered
import PolyRow.Lowering.Bounds

/-!
# Rows

What a solver takes in the end. A constraint row holds terms without a constant
and the bounds on their sum: a constant left in the expression moves across into
the bounds. An objective row holds terms with their constant, and a direction;
bounds of the expression do not matter to it.
-/

namespace PolyRow

/-- The direction of an objective. -/
inductive Sense where
  | minimize
  | maximize
deriving DecidableEq

namespace Sense

/-- Short name of the direction. -/
def label : Sense → String
  | .minimize => "minimize"
  | .maximize => "maximize"

end Sense

/-- Terms and the bounds on their sum. -/
structure ConstraintRow (κ : Type) where
  /-- The terms; their constant is zero. -/
  terms : Lowered κ
  bounds : Bounds κ
deriving DecidableEq

/-- Terms to be made small or large. -/
structure ObjectiveRow (κ : Type) where
  sense : Sense
  terms : Lowered κ
deriving DecidableEq

namespace ConstraintRow

variable {κ : Type} [ExtendedScalar κ]

/-- The bounds of the row for an expression whose terms come out as `l`. -/
def boundsOf (e : Expr κ) (l : Lowered κ) : Bounds κ :=
  (Bounds.ofOptions e.lower e.upper).shifted l.constant

/-- Lowers an expression and its bounds. -/
def ofExpr (e : Expr κ) (config : LowerConfig κ) :
    Except (LowerError κ) (ConstraintRow κ) :=
  match Lowered.ofExpr e config with
  | .error error => .error error
  | .ok l =>
    let bounds := boundsOf e l
    if bounds.isValid then .ok { terms := { l with constant := 0 }, bounds }
    else .error (.invalidBounds bounds.lower bounds.upper)

end ConstraintRow

namespace ObjectiveRow

variable {κ : Type} [Scalar κ]

/-- Lowers an expression, without its bounds, in the given direction. -/
def ofExpr (e : Expr κ) (sense : Sense) (config : LowerConfig κ) :
    Except (LowerError κ) (ObjectiveRow κ) :=
  (Lowered.ofExpr e config).map fun terms => { sense, terms }

/-- The objective that is to be made small. -/
def minimize (e : Expr κ) (config : LowerConfig κ) :
    Except (LowerError κ) (ObjectiveRow κ) :=
  ofExpr e .minimize config

/-- The objective that is to be made large. -/
def maximize (e : Expr κ) (config : LowerConfig κ) :
    Except (LowerError κ) (ObjectiveRow κ) :=
  ofExpr e .maximize config

/-- The constant part of the objective. -/
def offset (row : ObjectiveRow κ) : κ := row.terms.constant

end ObjectiveRow

end PolyRow
