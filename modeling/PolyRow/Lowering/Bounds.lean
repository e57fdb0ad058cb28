import PolyRow.Scalar

/-!
# Row bounds

The two sides of a row as a solver sees them: a side without a bound is
infinite.
-/

namespace PolyRow

/-- The least and the greatest admitted value of a row. -/
structure Bounds (κ : Type) where
  lower : κ
  upper : κ
deriving DecidableEq

namespace Bounds

variable {κ : Type} [ExtendedScalar κ]

/-- A missing bound is the infinity on its side. -/
def ofOptions (lower upper : Option κ) : Bounds κ where
  lower := lower.getD (-ExtendedScalar.infinity)
  upper := upper.getD ExtendedScalar.infinity

/-- No bound on either side. -/
def free : Bounds κ := ofOptions none none

/-- Whether neither side restricts anything. -/
def isFree (b : Bounds κ) : Bool :=
  b.lower == -ExtendedScalar.infinity && b.upper == ExtendedScalar.infinity

/-- Whether the sides are numbers and not crossed. An undefined side is at most
nothing, so it fails the comparison. -/
def isValid (b : Bounds κ) : Bool := decide (b.lower ≤ b.upper)

/-- Both sides less `offset`, as when a constant moves across a relation. -/
def shifted (b : Bounds κ) (offset : κ) : Bounds κ := ⟨b.lower - offset, b.upper - offset⟩

end Bounds

end PolyRow
