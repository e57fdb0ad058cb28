import PolyRow.Json.Reader
import PolyRow.Operand
import PolyRow.Wire.Encode

/-!
# The wire form: reading

What is accepted as an expression, a monomial, bounds and so on. Records are
read from objects, in which members with other keys are ignored, and from arrays
that list the fields in their order. Terms of one monomial are summed as they
are read, so an expression is in normal form whatever was written.

Reading from text differs from reading a tree in one respect: a field that is
given twice is refused.
-/

namespace PolyRow

namespace Json

/-- The double nearest to a number. -/
def toFloat? : Json → Option Float
  | .number n => some n.toFloat
  | _ => none

/-- The text of a string. -/
def toText? : Json → Option String
  | .string s => some s
  | _ => none

/-- What is accepted for an optional number: nothing, `null` or a number. -/
def toOptionalFloat? : Option Json → Option (Option Float)
  | none => some none
  | some .null => some none
  | some other => other.toFloat?.map some

/-- The word of a choice: a string, or an object whose only member gives the word
as a key and nothing as its value. -/
def toWord? : Json → Option String
  | .string s => some s
  | .object [(key, .null)] => some key
  | _ => none

end Json

open Json

/-- A variable is read from its name. -/
def Variable.ofJson? (j : Json) : Option Variable := j.toText?.map fun s => ⟨s⟩

/-- A monomial is read from an array of names in any order. -/
def Monomial.ofJson? : Json → Option Monomial
  | .array items => (items.mapM Variable.ofJson?).map Monomial.ofList
  | _ => none

/-- A term is read from a pair of a monomial and a number. -/
def termOfJson? : Json → Option (Monomial × Float)
  | .array [m, c] => do return (← Monomial.ofJson? m, ← c.toFloat?)
  | _ => none

/-- Terms are read from an array of pairs. -/
def termsOfJson? : Json → Option (List (Monomial × Float))
  | .array items => items.mapM termOfJson?
  | _ => none

namespace Expr

/-- An expression out of the values of its fields. -/
def ofFields? (terms lower upper : Option Json) : Option (Expr Float) := do
  let ts ← termsOfJson? (← terms)
  let l ← toOptionalFloat? lower
  let u ← toOptionalFloat? upper
  return (ofTerms ts).withBounds l u

/-- An expression is read from an object, in which `terms` has to be there. -/
def ofMembers? (members : List (String × Json)) : Option (Expr Float) :=
  ofFields? (member? members "terms") (member? members "lower") (member? members "upper")

/-- An expression is read from an object or from the array of its fields, of
which the bounds may be left off the end. -/
def ofJson? : Json → Option (Expr Float)
  | .object members => ofMembers? members
  | .array [terms] => ofFields? (some terms) none none
  | .array [terms, lower] => ofFields? (some terms) (some lower) none
  | .array [terms, lower, upper] => ofFields? (some terms) (some lower) (some upper)
  | _ => none

end Expr

/-- Bounds are read from an object with both sides, or from the pair of them.
Neither side may be missing. -/
def Bounds.ofJson? : Json → Option (Bounds Float)
  | .object members => do
    let lower ← (← member? members "lower").toFloat?
    let upper ← (← member? members "upper").toFloat?
    return ⟨lower, upper⟩
  | .array [lower, upper] => do return ⟨← lower.toFloat?, ← upper.toFloat?⟩
  | _ => none

/-- A direction is read from its word. -/
def Sense.ofJson? (j : Json) : Option Sense :=
  j.toWord?.bind fun w => [Sense.minimize, .maximize].find? (·.word == w)

/-- A level is read from its word. -/
def SimplifyLevel.ofJson? (j : Json) : Option SimplifyLevel :=
  j.toWord?.bind fun w => [SimplifyLevel.none, .light].find? (·.word == w)

/-! ## From text -/

/-- An expression is read from JSON text. -/
def Expr.ofText? (text : String) : Option (Expr Float) := do
  let document ← (← Document.ofText? text).fields? ["terms", "lower", "upper"]
  Expr.ofJson? (← document.toJson?)

/-- Bounds are read from JSON text. -/
def Bounds.ofText? (text : String) : Option (Bounds Float) := do
  let document ← (← Document.ofText? text).fields? ["lower", "upper"]
  Bounds.ofJson? (← document.toJson?)

/-! ## Operands -/

namespace Operand

/-- The kind of a JSON value, as error texts name it. -/
def kindOf : Json → ValueKind
  | .null => .null
  | .bool _ => .bool
  | .number _ => .number
  | .string _ => .string
  | .array _ => .array
  | .object _ => .object

/-- An operand is read from a number, a name or an expression. An expression has
to be an object here: an array is refused. -/
def ofJson (j : Json) : Except ExprError (Operand Float) :=
  match j with
  | .number n => .ok (.scalar n.toFloat)
  | .string s => .ok (.variable ⟨s⟩)
  | .object members =>
    match Expr.ofMembers? members with
    | some e => .ok (.expr e)
    | none => .error (.unsupportedOperand .object)
  | other => .error (.unsupportedOperand (kindOf other))

end Operand

end PolyRow
