import PolyRow.Text.Printable

/-!
# Quoted characters

How a single character is shown in a message: between single quotes, and in such
a way that nothing invisible is put out.
-/

namespace PolyRow.Text

/-- What stands for a character between the quotes: a short escape if it has one,
the character itself if it is printable, and else its code in hexadecimal. -/
def escapeChar : Char → String
  | '\x00' => "\\0"
  | '\t' => "\\t"
  | '\n' => "\\n"
  | '\r' => "\\r"
  | '\\' => "\\\\"
  | '\x27' => "\\'"
  | c =>
    if isPrintable c then String.singleton c
    else "\\u\x7b" ++ String.ofList (Nat.toDigits 16 c.toNat) ++ "\x7d"

/-- A character between single quotes. -/
def quoteChar (c : Char) : String := "'" ++ escapeChar c ++ "'"

example : quoteChar 'é' = "'é'" := by decide +kernel

example : quoteChar '\u3000' = "'\\u\x7b3000\x7d'" := by decide +kernel

end PolyRow.Text
