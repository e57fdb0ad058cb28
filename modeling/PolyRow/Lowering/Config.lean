import PolyRow.Scalar

/-!
# Lowering options

What a backend accepts and how eagerly terms are dropped on the way to it. Every
option may be left unset and then has its default: no term is dropped, only an
exact zero counts as zero, and monomials of degree two are the highest accepted.
-/

namespace PolyRow

/-- How terms are simplified before they are sorted into a row. -/
inductive SimplifyLevel where
  /-- Every stored term is kept, those with coefficient zero included. -/
  | none
  /-- Terms whose coefficient is within the zero tolerance are dropped. -/
  | light
deriving DecidableEq

namespace SimplifyLevel

/-- Short name of the level. -/
def label : SimplifyLevel → String
  | .none => "none"
  | .light => "light"

instance : Inhabited SimplifyLevel := ⟨.none⟩

end SimplifyLevel

/-- Options of lowering; `none` leaves an option unset. -/
structure LowerConfig (κ : Type) where
  /-- The simplification of terms. -/
  simplify : Option SimplifyLevel := none
  /-- The magnitude up to which a coefficient counts as zero. -/
  zeroTolerance : Option κ := none
  /-- The highest degree accepted. -/
  maxDegree : Option Nat := none

namespace LowerConfig

variable {κ : Type}

/-- The highest degree accepted when none is set. -/
def defaultMaxDegree : Nat := 2

/-- The level in force. -/
def simplifyLevel (config : LowerConfig κ) : SimplifyLevel := config.simplify.getD default

/-- The highest degree in force. -/
def degreeLimit (config : LowerConfig κ) : Nat := config.maxDegree.getD defaultMaxDegree

/-- Whether no option is set. -/
def isDefault (config : LowerConfig κ) : Bool :=
  config.simplify.isNone && config.zeroTolerance.isNone && config.maxDegree.isNone

/-- Whether a coefficient is dropped. An undefined coefficient never is, and a
negative or undefined tolerance drops nothing. -/
def drops [Scalar κ] (config : LowerConfig κ) (c : κ) : Bool :=
  match config.simplifyLevel with
  | .none => false
  | .light => decide (Scalar.abs c ≤ config.zeroTolerance.getD 0)

end LowerConfig

end PolyRow
