/-!
# JSON values

JSON trees with the members of an object in their order. A number is a whole
number or a double. No value is infinite or undefined: a double
that is not finite is written as `null`.

Where an object repeats a key, the last member with that key counts.
-/

namespace PolyRow

/-- A number as a JSON tree holds it. -/
inductive Json.Number where
  | integer (n : Int)
  | double (x : Float)
deriving DecidableEq

/-- The double nearest to the number. -/
def Json.Number.toFloat : Json.Number → Float
  | .integer n => Float.ofInt n
  | .double x => x

/-- A JSON value. -/
inductive Json where
  | null
  | bool (b : Bool)
  | number (n : Json.Number)
  | string (s : String)
  | array (items : List Json)
  | object (members : List (String × Json))

namespace Json

/-- A double as a JSON value: itself if it is finite, else `null`. -/
def ofFloat (x : Float) : Json := if x.isFinite then .number (.double x) else .null

/-- A whole number as a JSON value. -/
def ofNat (n : Nat) : Json := .number (.integer n)

/-- A value that may be missing, which is written as `null`. -/
def ofOption {α : Type} (f : α → Json) : Option α → Json
  | none => .null
  | some a => f a

/-- The member with a key, the last one if the key is repeated. -/
def member? (members : List (String × Json)) (key : String) : Option Json :=
  members.reverse.lookup key

end Json

end PolyRow
