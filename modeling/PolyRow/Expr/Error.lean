/-!
# Errors of the expression algebra

What can go wrong while expressions are built, divided or evaluated. An error is
a cause; its stable code and its text are functions of the cause.
-/

namespace PolyRow

/-- The kinds of value that can be offered where an operand is wanted. -/
inductive ValueKind where
  | expression
  | variable
  | number
  | string
  | null
  | bool
  | array
  | object
deriving DecidableEq

namespace ValueKind

/-- The kind as error texts spell it. -/
def label : ValueKind → String
  | .expression => "expression"
  | .variable => "variable"
  | .number => "number"
  | .string => "string"
  | .null => "null"
  | .bool => "bool"
  | .array => "array"
  | .object => "object"

end ValueKind

/-- Causes of failure of an operation on expressions. -/
inductive ExprError where
  /-- A value that stands for no operand. -/
  | unsupportedOperand (kind : ValueKind)
  /-- The divisor is zero. -/
  | divisionByZero
  /-- The divisor is not a number. -/
  | unsupportedDivisor (kind : ValueKind)
  /-- The assignment has no value for a variable. -/
  | unknownVariable (name : String)
deriving DecidableEq

namespace ExprError

/-- The code by which programs recognise the cause. -/
def code : ExprError → String
  | .unsupportedOperand _ => "EXPR_UNSUPPORTED_OPERAND"
  | .divisionByZero => "EXPR_DIVISION_BY_ZERO"
  | .unsupportedDivisor _ => "EXPR_UNSUPPORTED_DIVISOR"
  | .unknownVariable _ => "EXPR_UNKNOWN_VARIABLE"

/-- What happened, without the code. -/
def detail : ExprError → String
  | .unsupportedOperand kind =>
    "expected an Expr, Variable, or numeric constant (got " ++ kind.label ++ ")"
  | .divisionByZero => "division by zero"
  | .unsupportedDivisor kind =>
    "only division by a numeric constant is supported (got " ++ kind.label ++ ")"
  | .unknownVariable name => "no value assigned to variable '" ++ name ++ "'"

/-- The full text: the code in brackets, then what happened. -/
def message (e : ExprError) : String := "[" ++ e.code ++ "] " ++ e.detail

end ExprError

end PolyRow
