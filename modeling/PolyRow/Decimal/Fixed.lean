import PolyRow.Decimal.Exact

/-!
# Rounding to decimal places

A number to a fixed count of places, rounded from its exact value, a half going
to the even neighbour, and written without the zeros at its end. A number that
rounds to zero has no sign.
-/

namespace PolyRow.Decimal

/-- `num / den` to the nearest whole number, a half to the even one. -/
def roundDiv (num den : Nat) : Nat :=
  let q := num / den
  match compare (2 * (num % den)) den with
  | .lt => q
  | .gt => q + 1
  | .eq => q + q % 2

/-- `mantissa * 2 ^ exponent` in units of `10 ^ -places`, rounded. -/
def roundToPlaces (places mantissa : Nat) (exponent : Int) : Nat :=
  let (num, den) := scaleRatio exponent (-places)
  roundDiv (mantissa * num) den

/-- The digits of `n` as a fraction of `places` digits, zeros at the end left
out. -/
def fractionDigits (places n : Nat) : List Char :=
  let digits := Nat.toDigits 10 n
  let padded := List.replicate (places - digits.length) '0' ++ digits
  (padded.reverse.dropWhile (· == '0')).reverse

/-- The text of `n` units of `10 ^ -places`. -/
def placesText (places n : Nat) : String :=
  let fraction := fractionDigits places (n % Nat.pow 10 places)
  toString (n / Nat.pow 10 places)
    ++ if fraction.isEmpty then "" else "." ++ String.ofList fraction

/-- The text of a double to at most `places` places. -/
def fixedText (places : Nat) (x : Float) : String :=
  match Exact.ofFloat x with
  | .undefined => "nan"
  | .infinite negative => if negative then "-inf" else "inf"
  | .finite negative mantissa exponent =>
    let n := roundToPlaces places mantissa exponent
    (if negative && n != 0 then "-" else "") ++ placesText places n

example : fixedText 12 0.1 = "0.1" := by decide +kernel

example : fixedText 12 1e22 = "10000000000000000000000" := by decide +kernel

example : fixedText 12 (-1e-13) = "0" := by decide +kernel

end PolyRow.Decimal
