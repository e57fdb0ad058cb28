import PolyRow.Json.Basic
import PolyRow.Lowering.Row

/-!
# The wire form: writing

Expressions and rows as JSON. A monomial is the array of its factors, so terms
are pairs of an array and a number rather than members of an object. Numbers
that are not finite become `null`, which is also how a missing bound is written.
-/

namespace PolyRow

/-- A variable is its name. -/
def Variable.toJson (x : Variable) : Json := .string x.name

/-- A monomial is the array of its factors. -/
def Monomial.toJson (m : Monomial) : Json := .array (m.factors.map Variable.toJson)

/-- A term is a pair of its monomial and its coefficient. -/
def termToJson (t : Monomial × Float) : Json := .array [t.1.toJson, .ofFloat t.2]

/-- An expression lists its terms and both bounds. -/
def Expr.toJson (e : Expr Float) : Json :=
  .object [
    ("terms", .array (e.terms.entries.map termToJson)),
    ("lower", .ofOption .ofFloat e.lower),
    ("upper", .ofOption .ofFloat e.upper)]

/-- Lowered terms list each part on its own. -/
def Lowered.toJson (l : Lowered Float) : Json :=
  .object [
    ("constant", .ofFloat l.constant),
    ("linear", .array (l.linear.map fun (x, c) => .array [x.toJson, .ofFloat c])),
    ("bilinear", .array (l.bilinear.map fun (x, y, c) =>
      .array [x.toJson, y.toJson, .ofFloat c])),
    ("higher", .array (l.higher.map termToJson))]

/-- Bounds hold both sides; an infinite one is written as `null`. -/
def Bounds.toJson (b : Bounds Float) : Json :=
  .object [("lower", .ofFloat b.lower), ("upper", .ofFloat b.upper)]

/-- The word for a direction. -/
def Sense.word : Sense → String
  | .minimize => "Minimize"
  | .maximize => "Maximize"

/-- The word for a level. -/
def SimplifyLevel.word : SimplifyLevel → String
  | .none => "None"
  | .light => "Light"

/-- A direction is its word. -/
def Sense.toJson (s : Sense) : Json := .string s.word

/-- A level is its word. -/
def SimplifyLevel.toJson (l : SimplifyLevel) : Json := .string l.word

/-- A constraint row lists its terms and its bounds. -/
def ConstraintRow.toJson (row : ConstraintRow Float) : Json :=
  .object [("terms", row.terms.toJson), ("bounds", row.bounds.toJson)]

/-- An objective row lists its direction and its terms. -/
def ObjectiveRow.toJson (row : ObjectiveRow Float) : Json :=
  .object [("sense", row.sense.toJson), ("terms", row.terms.toJson)]

end PolyRow
