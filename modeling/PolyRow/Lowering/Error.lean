import PolyRow.Monomial
import PolyRow.Decimal.Style

/-!
# Errors of lowering

Why an expression cannot become a row.
-/

namespace PolyRow

/-- Causes of failure of lowering. -/
inductive LowerError (κ : Type) where
  /-- A term has a higher degree than accepted. -/
  | degreeTooHigh (monomial : Monomial) (maxDegree : Nat)
  /-- A coefficient is infinite or undefined. -/
  | invalidCoefficient (coefficient : κ)
  /-- The bounds are crossed, or one of them is undefined. -/
  | invalidBounds (lower upper : κ)
deriving DecidableEq

namespace LowerError

/-- The code by which programs recognise the cause. -/
def code {κ : Type} : LowerError κ → String
  | .degreeTooHigh .. => "LOWER_DEGREE_TOO_HIGH"
  | .invalidCoefficient _ => "LOWER_INVALID_COEFFICIENT"
  | .invalidBounds .. => "LOWER_INVALID_BOUNDS"

/-- What happened, without the code. -/
def detail : LowerError Float → String
  | .degreeTooHigh m limit =>
    "Term " ++ toString m ++ " has degree " ++ toString m.degree
      ++ " (max " ++ toString limit ++ ")"
  | .invalidCoefficient c =>
    "Coefficient must be finite (got " ++ Decimal.proseStyle.render c ++ ")"
  | .invalidBounds l u =>
    "Row bounds invalid: lower (" ++ Decimal.proseStyle.render l ++ ") > upper ("
      ++ Decimal.proseStyle.render u ++ ")"

/-- The full text: the code in brackets, then what happened. -/
def message (e : LowerError Float) : String := "[" ++ e.code ++ "] " ++ e.detail

end LowerError

end PolyRow
