import PolyRow.Expr.Basic
import PolyRow.Expr.Error

/-!
# Operands

What stands on either side of an arithmetic operation or a comparison: an
expression, a variable or a number. Each is promoted to an expression, a
variable with coefficient one and a number as a constant term.
-/

namespace PolyRow

/-- One side of an operation. -/
inductive Operand (κ : Type) where
  | expr (e : Expr κ)
  | variable (x : Variable)
  | scalar (c : κ)

namespace Operand

variable {κ : Type}

/-- The kind of the operand, as error texts name it. -/
def kind : Operand κ → ValueKind
  | .expr _ => .expression
  | .variable _ => .variable
  | .scalar _ => .number

/-- The operand as an expression. -/
def toExpr [Scalar κ] : Operand κ → Expr κ
  | .expr e => e
  | .variable x => .var x
  | .scalar c => .const c

instance : Coe (Expr κ) (Operand κ) := ⟨.expr⟩

instance : Coe Variable (Operand κ) := ⟨.variable⟩

instance : Coe κ (Operand κ) := ⟨.scalar⟩

end Operand

end PolyRow
