/-!
# Blank text

The characters with the Unicode property `White_Space`, and trimming by them.

## Main results

* `isBlank_of_isWhitespace`: the ASCII blanks that `Char.isWhitespace` knows are
  among them.
-/

namespace PolyRow.Text

/-- Whether a character has the property `White_Space`. -/
def isBlank (c : Char) : Bool :=
  let code := c.toNat
  decide ((9 ≤ code ∧ code ≤ 13) ∨ code = 0x20 ∨ code = 0x85 ∨ code = 0xA0 ∨ code = 0x1680
    ∨ (0x2000 ≤ code ∧ code ≤ 0x200A) ∨ code = 0x2028 ∨ code = 0x2029 ∨ code = 0x202F
    ∨ code = 0x205F ∨ code = 0x3000)

theorem isBlank_of_isWhitespace {c : Char} (h : c.isWhitespace = true) : isBlank c = true := by
  simp only [Char.isWhitespace, Bool.or_eq_true, decide_eq_true_eq] at h
  rcases h with ((rfl | rfl) | rfl) | rfl <;> decide

/-- Characters without the blanks at the front and at the end. -/
def trimChars (cs : List Char) : List Char :=
  ((cs.dropWhile isBlank).reverse.dropWhile isBlank).reverse

/-- A text without the blanks at the front and at the end. -/
def trim (s : String) : String := String.ofList (trimChars s.toList)

/-- Whether two texts differ in nothing but the case of ASCII letters. -/
def sameIgnoringCase (s t : String) : Bool := s.toLower == t.toLower

end PolyRow.Text
