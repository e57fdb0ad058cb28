import PolyRow.Json.Basic

/-!
# JSON documents

A JSON text after reading, with its literals as written. Whether a literal
denotes a value is a separate question: a number may be too large for a double,
and a string may escape one half of a surrogate pair without the other. Such a
literal is harmless in a place that is skipped, and an error where its value is
wanted.

## Main definitions

* `Document.toJson?`: the value, if every literal denotes one.
* `Document.fields?`: an object reduced to the members that are wanted; those
  may not be repeated, and the others are not evaluated.
-/

namespace PolyRow.Json

/-- A number as written: its sign, its digits without the zeros that end a fraction,
and the power of ten of the last of them. -/
structure NumberLiteral where
  negative : Bool
  significand : Nat
  exponent : Int
  /-- Whether neither a fraction nor an exponent was written. -/
  isWhole : Bool
deriving DecidableEq

/-- Whether a whole number fits into 64 bits, with a sign or without. -/
def fitsWord (n : Int) : Bool :=
  decide (-0x8000000000000000 ≤ n ∧ n < 0x10000000000000000)

/-- The number of digits that are read. No point halfway between two doubles has more
of them. -/
def digitLimit : Nat := 768

/-- A significand and its power of ten, cut to the digits that are read. A one behind
them stands for all further digits, also if these are zeros. -/
def condense (significand : Nat) (exponent : Int) : Nat × Int :=
  if significand < Nat.pow 10 digitLimit then (significand, exponent)
  else
    let excess := (Nat.toDigits 10 significand).length - digitLimit
    (10 * (significand / Nat.pow 10 excess) + 1, exponent + excess - 1)

example : condense (10 ^ 800) (-800) = (10 ^ 768 + 1, -768) := by decide +kernel

/-- The number denoted, unless no finite double is near it. A whole number is
kept exactly if it fits into 64 bits, but for a negative zero, which only a double
can hold. Any other number is the double nearest to its condensed digits, so that
excess digits of a whole part settle a tie away from zero. -/
def NumberLiteral.value? (l : NumberLiteral) : Option Number :=
  let (significand, exponent) := condense l.significand l.exponent
  let magnitude := Float.ofScientific significand (exponent < 0) exponent.natAbs
  let whole := if l.negative then -(l.significand : Int) else l.significand
  if !magnitude.isFinite then none
  else if l.isWhole && fitsWord whole && !(l.negative && l.significand == 0) then
    some (.integer whole)
  else some (.double (if l.negative then -magnitude else magnitude))

/-- A piece of a string literal. -/
inductive StringPiece where
  /-- A character, or one of the escapes that name a character. -/
  | char (c : Char)
  /-- A 16-bit unit escaped in hexadecimal. -/
  | unit (code : Nat)
deriving DecidableEq

/-- The characters denoted. Escaped units join in surrogate pairs; one half
without the other denotes nothing. -/
def charsOfPieces? : List StringPiece → Option (List Char)
  | [] => some []
  | .char c :: rest => (charsOfPieces? rest).map (c :: ·)
  | .unit high :: .unit low :: rest =>
    if 0xD800 ≤ high ∧ high < 0xDC00 then
      if 0xDC00 ≤ low ∧ low < 0xE000 then
        (charsOfPieces? rest).map
          (Char.ofNat (0x10000 + (high - 0xD800) * 0x400 + (low - 0xDC00)) :: ·)
      else none
    else if 0xDC00 ≤ high ∧ high < 0xE000 then none
    else (charsOfPieces? (.unit low :: rest)).map (Char.ofNat high :: ·)
  | .unit code :: rest =>
    if 0xD800 ≤ code ∧ code < 0xE000 then none
    else (charsOfPieces? rest).map (Char.ofNat code :: ·)

/-- A string as written between its quotes. -/
structure StringLiteral where
  pieces : List StringPiece
deriving DecidableEq

/-- The text denoted, if there is one. -/
def StringLiteral.value? (l : StringLiteral) : Option String :=
  (charsOfPieces? l.pieces).map String.ofList

/-- A JSON text, read. -/
inductive Document where
  | null
  | bool (b : Bool)
  | number (l : NumberLiteral)
  | string (l : StringLiteral)
  | array (items : List Document)
  | object (members : List (StringLiteral × Document))

namespace Document

mutual

/-- The value of a document, if every literal in it denotes one. -/
def toJson? : Document → Option Json
  | .null => some .null
  | .bool b => some (.bool b)
  | .number l => l.value?.map .number
  | .string l => l.value?.map .string
  | .array items => (itemsToJson? items).map .array
  | .object members => (membersToJson? members).map .object

/-- The values of the items of an array. -/
def itemsToJson? : List Document → Option (List Json)
  | [] => some []
  | item :: rest => do
    let value ← item.toJson?
    let values ← itemsToJson? rest
    return value :: values

/-- The keys and values of the members of an object. -/
def membersToJson? : List (StringLiteral × Document) → Option (List (String × Json))
  | [] => some []
  | (key, item) :: rest => do
    let name ← key.value?
    let value ← item.toJson?
    let values ← membersToJson? rest
    return (name, value) :: values

end

/-- The members whose keys are in `known`. A key out of `known` may occur once, so
it may not be in `seen`. Every key has to denote a text; the values of other
members are not looked at. -/
def knownMembers? (known seen : List String) :
    List (StringLiteral × Document) → Option (List (StringLiteral × Document))
  | [] => some []
  | (key, item) :: rest => do
    let name ← key.value?
    if !known.contains name then knownMembers? known seen rest
    else if seen.contains name then none
    else
      let kept ← knownMembers? known (name :: seen) rest
      return (key, item) :: kept

/-- A document reduced to what a record with the given fields reads. -/
def fields? (known : List String) : Document → Option Document
  | .object members => (knownMembers? known [] members).map .object
  | other => some other

end Document

end PolyRow.Json
