/-!
# Ranges of code points

Classes of characters are kept as tables of ranges, each given by its first and
its last code point.
-/

namespace PolyRow.Text

/-- Whether a range of a table holds a code point. -/
def inRanges (table : List (Nat × Nat)) (code : Nat) : Bool :=
  table.any fun (low, high) => decide (low ≤ code ∧ code ≤ high)

/-- Whether the ranges of a table increase and leave gaps between them. -/
def rangesAscend (table : List (Nat × Nat)) : Bool :=
  (table.zip table.tail).all fun (a, b) => decide (a.1 ≤ a.2 ∧ a.2 + 1 < b.1)

end PolyRow.Text
