/-!
# Scalars

The arithmetic that expressions ask of their coefficients. It is a class of
operations without laws, because the two readings of an expression satisfy
different ones: over `Rat` the operations are exact, over `Float` each rounds
once, zero has two signs and `NaN` differs from itself. Every construction of
this library is written once, for both.

Two points of the class decide behaviour over `Float`:

* `==` is numeric equality, so `0.0 == -0.0` holds and `NaN == NaN` does not;
* `≤` is false as soon as one side is `NaN`.
-/

namespace PolyRow

/-- The operations that coefficients, bounds and values of variables share. -/
class Scalar (κ : Type) extends
    Zero κ, One κ, Add κ, Sub κ, Neg κ, Mul κ, Div κ, BEq κ, LE κ where
  /-- `a ≤ b` is decided by the arithmetic itself. -/
  decidableLE : DecidableLE κ
  /-- The magnitude. -/
  abs : κ → κ
  /-- Whether the value is a number proper: neither infinite nor undefined. -/
  isFinite : κ → Bool

attribute [reducible, instance] Scalar.decidableLE

/-- Scalars with a value beyond every number, which an unset bound of a row
takes as its own. -/
class ExtendedScalar (κ : Type) extends Scalar κ where
  /-- The value above every number; its negation is below every number. -/
  infinity : κ

/-- Doubles: every operation rounds its exact result once, to nearest. -/
instance : ExtendedScalar Float where
  zero := 0.0
  one := 1.0
  decidableLE := inferInstance
  abs := Float.abs
  isFinite := Float.isFinite
  infinity := Float.ofBits 0x7FF0000000000000

/-- Exact rational arithmetic, the reading under which the algebraic laws hold. -/
instance : Scalar Rat where
  zero := 0
  one := 1
  decidableLE := inferInstance
  abs := Rat.abs
  isFinite _ := true

end PolyRow
