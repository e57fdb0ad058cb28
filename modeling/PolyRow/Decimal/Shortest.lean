import PolyRow.Decimal.Exact

/-!
# Shortest decimals

The decimal with the fewest digits that reads back as a given double. The reals
that round to a double form an interval around it, reaching half way to each
neighbour; the ends belong to it exactly when the mantissa is even. On the grid
of decimals with a given number of digits, only the two neighbours of the value
need to be tried: the first grid, from one digit up, of which one lies in the
interval gives the answer, and the nearer one is taken if both do.

An exact tie between the two is the only choice left open, and is a parameter.
-/

namespace PolyRow.Decimal

/-- Which of two equally near decimals is taken. -/
inductive Tie where
  /-- The one whose last digit is even. -/
  | even
  /-- The one of greater magnitude. -/
  | up
deriving DecidableEq

/-- Whether the upper of the neighbours `d` and `d + 1` is taken for the value
`twice / 2 / den`. -/
def Tie.takesUpper (tie : Tie) (twice den d : Nat) : Bool :=
  match compare twice ((2 * d + 1) * den) with
  | .lt => false
  | .gt => true
  | .eq => tie == .up || d % 2 == 1

/-- `significand * 10 ^ exponent`. -/
structure Digits where
  significand : Nat
  exponent : Int
deriving DecidableEq

/-- Number of decimal digits; zero has one. -/
def digitCount (n : Nat) : Nat := (Nat.toDigits 10 n).length

/-- The same decimal without trailing zeros in its significand. -/
def Digits.trim (significand : Nat) (exponent : Int) : Digits :=
  if h : 0 < significand ∧ significand % 10 = 0 then
    Digits.trim (significand / 10) (exponent + 1)
  else ⟨significand, exponent⟩
termination_by significand
decreasing_by omega

/-- The power of ten of the leading digit of `mantissa * 2 ^ exponent`. -/
def leadingExponent (mantissa : Nat) (exponent : Int) : Int :=
  digitCount (mantissa * Nat.pow 2 exponent.toNat * Nat.pow 5 (-exponent).toNat) - 1
    - (-exponent).toNat

/-- The reals that round to `mantissa * 2 ^ exponent`, in quarters of its unit:
the lower and the upper end. The gap below a power of two is half as wide, but
for the least normal double. -/
def roundingInterval (mantissa : Nat) (exponent : Int) : Nat × Nat :=
  let below := if mantissa = Nat.pow 2 52 ∧ exponent ≠ -1074 then 1 else 2
  (4 * mantissa - below, 4 * mantissa + 2)

/-- The neighbour of `mantissa * 2 ^ exponent` on the grid of multiples of
`10 ^ k` that reads back as it; the nearer one if both do. -/
def onGrid? (tie : Tie) (mantissa : Nat) (exponent : Int) (k : Int) : Option Digits :=
  let (num, den) := scaleRatio (exponent - 2) k
  let (low, high) := roundingInterval mantissa exponent
  let readsBack (d : Nat) : Bool :=
    if mantissa % 2 = 0 then decide (low * num ≤ d * den) && decide (d * den ≤ high * num)
    else decide (low * num < d * den) && decide (d * den < high * num)
  let exact := 4 * mantissa * num
  let d := exact / den
  match readsBack d, readsBack (d + 1) with
  | false, false => none
  | true, false => some (.trim d k)
  | false, true => some (.trim (d + 1) k)
  | true, true => some (.trim (if tie.takesUpper (2 * exact) den d then d + 1 else d) k)

/-- The shortest decimal that reads back as `mantissa * 2 ^ exponent`, for a
mantissa that is not zero. Seventeen digits suffice for every double. -/
def shortest (tie : Tie) (mantissa : Nat) (exponent : Int) : Digits :=
  let lead := leadingExponent mantissa exponent
  let found := (List.range 17).findSome? fun (n : Nat) =>
    onGrid? tie mantissa exponent (lead - n)
  found.getD ⟨mantissa * Nat.pow 2 exponent.toNat * Nat.pow 5 (-exponent).toNat, -(-exponent).toNat⟩

end PolyRow.Decimal
