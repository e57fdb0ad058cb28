import PolyRow.Json.Basic
import PolyRow.Decimal.Style

/-!
# Writing JSON text

The compact form: no blanks, members in their order. Strings escape quotes,
backslashes and control characters and hold everything else as it is. Doubles
have their shortest digits; from `1e-5` up to `1e16` they are positional and keep
a point, and outside that range they have an exponent with its sign.
-/

namespace PolyRow.Json

/-- The layout of doubles. -/
def numberStyle : Decimal.Style := ⟨.even, fun p => decide (-5 ≤ p ∧ p < 16), true, true⟩

example : numberStyle.render 9007199254740992 = "9007199254740992.0" := by decide +kernel

example : numberStyle.render 1e16 = "1e+16" := by decide +kernel

example : numberStyle.render 1e-5 = "0.00001" := by decide +kernel

example : numberStyle.render 1.5e-7 = "1.5e-7" := by decide +kernel

example : numberStyle.render (-0.0) = "-0.0" := by decide +kernel

/-- The hexadecimal digit of a number below sixteen. -/
def hexDigit (n : Nat) : Char := Char.ofNat (if n < 10 then 48 + n else 87 + n)

/-- A character inside a string. -/
def escapeChar : Char → List Char
  | '"' => ['\\', '"']
  | '\\' => ['\\', '\\']
  | '\x08' => ['\\', 'b']
  | '\t' => ['\\', 't']
  | '\n' => ['\\', 'n']
  | '\x0c' => ['\\', 'f']
  | '\r' => ['\\', 'r']
  | c =>
    if c.toNat < 0x20 then ['\\', 'u', '0', '0', hexDigit (c.toNat / 16), hexDigit (c.toNat % 16)]
    else [c]

/-- A string with its quotes. -/
def stringText (s : String) : String :=
  "\"" ++ String.ofList (s.toList.flatMap escapeChar) ++ "\""

/-- A number; JSON has no word for one that is not finite. -/
def Number.text : Number → String
  | .integer n => toString n
  | .double x => if x.isFinite then numberStyle.render x else "null"

mutual

/-- The compact text of a value. -/
def text : Json → String
  | .null => "null"
  | .bool b => if b then "true" else "false"
  | .number n => n.text
  | .string s => stringText s
  | .array items => "[" ++ ",".intercalate (itemTexts items) ++ "]"
  | .object members => "\x7b" ++ ",".intercalate (memberTexts members) ++ "\x7d"

/-- The texts of the items of an array. -/
def itemTexts : List Json → List String
  | [] => []
  | item :: rest => item.text :: itemTexts rest

/-- The texts of the members of an object. -/
def memberTexts : List (String × Json) → List String
  | [] => []
  | (key, value) :: rest => (stringText key ++ ":" ++ value.text) :: memberTexts rest

end

end PolyRow.Json
