import PolyRow.Text.Quoted

/-!
# Cuts of a text

A place in a text is a number of bytes of its UTF-8 form. A text can be cut at the
places between two characters and at its ends, not inside a character.
-/

namespace PolyRow.Text

/-- The parts of a text between the occurrences of a character, the empty ones
included. -/
def splitAt (c : Char) (s : String) : List String := (s.toList.splitOn c).map String.ofList

/-- The number of bytes of a text. -/
def byteLength (cs : List Char) : Nat := cs.foldr (fun c n => c.utf8Size + n) 0

/-- A character of a text and the place where it begins. -/
structure CharAt where
  char : Char
  start : Nat
deriving DecidableEq

/-- The parts of a text before and behind a place, of a text that itself begins at
`start`. Where the place is inside a character, that character is the answer. A
place behind the end has all of the text before it. -/
def splitFrom (place : Nat) : Nat → List Char → Except CharAt (List Char × List Char)
  | _, [] => .ok ([], [])
  | start, c :: cs =>
    if place ≤ start then .ok ([], c :: cs)
    else if place < start + c.utf8Size then .error ⟨c, start⟩
    else (splitFrom place (start + c.utf8Size) cs).map fun (before, behind) =>
      (c :: before, behind)

/-- Which end of a part of a text a place is. -/
inductive Edge where
  | start
  | stop
deriving DecidableEq

/-- The name of the edge in messages. -/
def Edge.word : Edge → String
  | .start => "start"
  | .stop => "end"

/-- A part of a text that would begin or end inside a character. -/
structure SplitCharacter where
  edge : Edge
  place : Nat
  inside : CharAt
deriving DecidableEq

/-- The fault, in words. -/
def SplitCharacter.text (s : SplitCharacter) : String :=
  s.edge.word ++ " byte index " ++ toString s.place ++ " is not a char boundary; it is inside "
    ++ quoteChar s.inside.char ++ " (bytes " ++ toString s.inside.start ++ ".."
    ++ toString (s.inside.start + s.inside.char.utf8Size) ++ " of string)"

/-- The part of a text before a place. -/
def before (place : Nat) (cs : List Char) : Except SplitCharacter (List Char) :=
  match splitFrom place 0 cs with
  | .ok (part, _) => .ok part
  | .error inside => .error ⟨.stop, place, inside⟩

/-- The part of a text from a place on. -/
def fromPlace (place : Nat) (cs : List Char) : Except SplitCharacter (List Char) :=
  match splitFrom place 0 cs with
  | .ok (_, part) => .ok part
  | .error inside => .error ⟨.start, place, inside⟩

end PolyRow.Text
