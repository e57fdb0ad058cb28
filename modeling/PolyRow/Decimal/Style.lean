import PolyRow.Decimal.Shortest

/-!
# Styles of number text

A number is written with its shortest digits, either positionally or with an
exponent. What is left to decide is gathered in one record; the outputs of this
library name their own values of it where they write.
-/

namespace PolyRow.Decimal

/-- How numbers are laid out. -/
structure Style where
  /-- Which of two equally near decimals is taken. -/
  tie : Tie
  /-- Powers of ten of the leading digit that are written positionally. -/
  positional : Int → Bool
  /-- Whether a whole number written positionally ends in `.0`. -/
  pointZero : Bool
  /-- Whether an exponent that is not negative has a plus sign. -/
  exponentPlus : Bool

/-- Digits with a point before the last `-exponent` of them, zeros filled in on
either side. -/
def positionalText (pointZero : Bool) (d : Digits) : String :=
  let digits := toString d.significand
  if 0 ≤ d.exponent then
    digits ++ "".pushn '0' d.exponent.toNat ++ (if pointZero then ".0" else "")
  else
    let places := (-d.exponent).toNat
    let padded := "".pushn '0' (places + 1 - digits.length) ++ digits
    (padded.take (padded.length - places)).copy ++ "."
      ++ (padded.drop (padded.length - places)).copy

/-- One digit, the others after a point, and the exponent of the first. -/
def scientificText (exponentPlus : Bool) (d : Digits) : String :=
  let digits := toString d.significand
  let lead := d.exponent + digits.length - 1
  let fraction := (digits.drop 1).copy
  (digits.take 1).copy ++ (if fraction.isEmpty then "" else "." ++ fraction) ++ "e"
    ++ (if lead < 0 then "-" else if exponentPlus then "+" else "") ++ toString lead.natAbs

/-- The text of a decimal that is not negative. -/
def Style.magnitude (s : Style) (d : Digits) : String :=
  if s.positional (d.exponent + (digitCount d.significand : Int) - 1) then
    positionalText s.pointZero d
  else scientificText s.exponentPlus d

/-- The text of a double. -/
def Style.render (s : Style) (x : Float) : String :=
  match Exact.ofFloat x with
  | .undefined => "NaN"
  | .infinite negative => (if negative then "-" else "") ++ "inf"
  | .finite negative mantissa exponent =>
    (if negative then "-" else "")
      ++ if mantissa = 0 then positionalText s.pointZero ⟨0, 0⟩
        else s.magnitude (shortest s.tie mantissa exponent)

/-- Running text never uses an exponent, and gives whole numbers no point. -/
def proseStyle : Style := ⟨.up, fun _ => true, false, false⟩

example : proseStyle.render 5 = "5" := by decide +kernel

example : proseStyle.render 1e22 = "10000000000000000000000" := by decide +kernel

example : proseStyle.render 1e-7 = "0.0000001" := by decide +kernel

example : proseStyle.render (-0.0) = "-0" := by decide +kernel

end PolyRow.Decimal
