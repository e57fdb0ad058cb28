import PolyRow.Json.Document

/-!
# Reading JSON text

The grammar of JSON, to the letter: blanks are spaces, tabs and line ends; no
comma may trail; a number has no plus sign, no leading zero and digits on both
sides of a point; control characters inside strings have to be escaped; nothing
but blanks may follow the value.

A reader answers what it read and the characters after it. Reading is by
recursion with a budget, which the length of the text bounds.
-/

namespace PolyRow.Json.Reader

/-- Whether blanks may stand here: spaces, tabs and line ends. -/
def isBlank (c : Char) : Bool := c == ' ' || c == '\t' || c == '\n' || c == '\r'

/-- The text after any blanks. -/
def skipBlanks (cs : List Char) : List Char := cs.dropWhile isBlank

/-- The text after the given characters, if it starts with them. -/
def expect : List Char → List Char → Option (List Char)
  | [], cs => some cs
  | e :: es, c :: cs => if c == e then expect es cs else none
  | _ :: _, [] => none

/-! ## Strings -/

/-- The value of a hexadecimal digit of either case. -/
def hexDigit? (c : Char) : Option Nat :=
  if '0' ≤ c ∧ c ≤ '9' then some (c.toNat - 48)
  else if 'a' ≤ c ∧ c ≤ 'f' then some (c.toNat - 87)
  else if 'A' ≤ c ∧ c ≤ 'F' then some (c.toNat - 55)
  else none

/-- The character that a one-letter escape names. -/
def shortEscape? : Char → Option Char
  | '"' => some '"'
  | '\\' => some '\\'
  | '/' => some '/'
  | 'b' => some '\x08'
  | 'f' => some '\x0c'
  | 'n' => some '\n'
  | 'r' => some '\r'
  | 't' => some '\t'
  | _ => none

/-- The pieces of a string up to its closing quote, the opening one being read. -/
def stringPieces : List Char → Option (List StringPiece × List Char)
  | [] => none
  | '"' :: rest => some ([], rest)
  | '\\' :: 'u' :: a :: b :: c :: d :: rest => do
    let a ← hexDigit? a
    let b ← hexDigit? b
    let c ← hexDigit? c
    let d ← hexDigit? d
    let (pieces, rest) ← stringPieces rest
    return (.unit (((a * 16 + b) * 16 + c) * 16 + d) :: pieces, rest)
  | '\\' :: e :: rest => do
    let c ← shortEscape? e
    let (pieces, rest) ← stringPieces rest
    return (.char c :: pieces, rest)
  | c :: rest =>
    if c.toNat < 0x20 then none
    else do
      let (pieces, rest) ← stringPieces rest
      return (.char c :: pieces, rest)

/-- A string whose opening quote is read. -/
def string (cs : List Char) : Option (StringLiteral × List Char) := do
  let (pieces, rest) ← stringPieces cs
  return (⟨pieces⟩, rest)

/-! ## Numbers -/

/-- The value of a run of decimal digits. -/
def digitsValue (ds : List Char) : Nat := ds.foldl (fun n d => 10 * n + (d.toNat - 48)) 0

/-- The digits in front, of which there has to be one. -/
def digits (cs : List Char) : Option (List Char × List Char) :=
  let ds := cs.takeWhile Char.isDigit
  if ds.isEmpty then none else some (ds, cs.drop ds.length)

/-- The digits before the point: a zero alone, or digits that do not start with
one. -/
def wholeDigits : List Char → Option (List Char × List Char)
  | '0' :: rest => some (['0'], rest)
  | cs => digits cs

/-- The digits after a point, if a point is there. -/
def fractionDigits? : List Char → Option (Option (List Char) × List Char)
  | '.' :: rest => do
    let (ds, rest) ← digits rest
    return (some ds, rest)
  | cs => some (none, cs)

/-- The digits of an exponent behind its sign. -/
def signedExponent : List Char → Option (Int × List Char)
  | '-' :: rest => do
    let (ds, rest) ← digits rest
    return (-(digitsValue ds : Int), rest)
  | '+' :: rest => do
    let (ds, rest) ← digits rest
    return (digitsValue ds, rest)
  | cs => do
    let (ds, rest) ← digits cs
    return (digitsValue ds, rest)

/-- The exponent, if its letter is there. -/
def exponent? : List Char → Option (Option Int × List Char)
  | 'e' :: rest | 'E' :: rest => do
    let (e, rest) ← signedExponent rest
    return (some e, rest)
  | cs => some (none, cs)

/-- A number without its sign. -/
def unsignedNumber (negative : Bool) (cs : List Char) : Option (NumberLiteral × List Char) := do
  let (whole, cs) ← wholeDigits cs
  let (fraction, cs) ← fractionDigits? cs
  let (exponent, cs) ← exponent? cs
  let places := ((fraction.getD []).reverse.dropWhile (· == '0')).reverse
  return ({
    negative
    significand := digitsValue (whole ++ places)
    exponent := exponent.getD 0 - places.length
    isWhole := fraction.isNone && exponent.isNone }, cs)

/-- A number. -/
def number : List Char → Option (NumberLiteral × List Char)
  | '-' :: rest => unsignedNumber true rest
  | cs => unsignedNumber false cs

/-! ## Values -/

/-- A document that is one literal word. -/
def word (letters : String) (value : Document) (cs : List Char) : Option (Document × List Char) := do
  let rest ← expect letters.toList cs
  return (value, rest)

mutual

/-- A value at the front, blanks before it skipped. -/
def value : Nat → List Char → Option (Document × List Char)
  | 0, _ => none
  | fuel + 1, cs =>
    match skipBlanks cs with
    | [] => none
    | '"' :: rest => (string rest).map fun (l, rest) => (.string l, rest)
    | '[' :: rest =>
      match skipBlanks rest with
      | ']' :: rest => some (.array [], rest)
      | rest => (items fuel rest).map fun (vs, rest) => (.array vs, rest)
    | '{' :: rest =>
      match skipBlanks rest with
      | '}' :: rest => some (.object [], rest)
      | rest => (members fuel rest).map fun (ms, rest) => (.object ms, rest)
    | 't' :: rest => word "true" (.bool true) ('t' :: rest)
    | 'f' :: rest => word "false" (.bool false) ('f' :: rest)
    | 'n' :: rest => word "null" .null ('n' :: rest)
    | rest => (number rest).map fun (l, rest) => (.number l, rest)

/-- The items of an array up to its closing bracket, of which there is one at
least. -/
def items : Nat → List Char → Option (List Document × List Char)
  | 0, _ => none
  | fuel + 1, cs => do
    let (v, rest) ← value fuel cs
    match skipBlanks rest with
    | ']' :: rest => return ([v], rest)
    | ',' :: rest =>
      let (vs, rest) ← items fuel rest
      return (v :: vs, rest)
    | _ => none

/-- The members of an object up to its closing brace, of which there is one at
least. -/
def members : Nat → List Char → Option (List (StringLiteral × Document) × List Char)
  | 0, _ => none
  | fuel + 1, cs => do
    let opening ← expect ['"'] (skipBlanks cs)
    let (key, rest) ← string opening
    let rest ← expect [':'] (skipBlanks rest)
    let (v, rest) ← value fuel rest
    match skipBlanks rest with
    | '}' :: rest => return ([(key, v)], rest)
    | ',' :: rest =>
      let (ms, rest) ← members fuel rest
      return ((key, v) :: ms, rest)
    | _ => none

end

end Reader

/-- Reads a JSON text. -/
def Document.ofText? (text : String) : Option Document :=
  let cs := text.toList
  match Reader.value (2 * cs.length + 1) cs with
  | some (document, rest) => if (Reader.skipBlanks rest).isEmpty then some document else none
  | none => none

/-- Reads a JSON text of which every literal has a value. -/
def ofText? (text : String) : Option Json := (Document.ofText? text).bind Document.toJson?

end PolyRow.Json
