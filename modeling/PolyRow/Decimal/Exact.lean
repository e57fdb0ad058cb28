/-!
# Exact values of doubles

Every finite double is a whole number times a power of two. Written text is
chosen by comparing that number with decimals, so it is taken apart here once,
and everything after works on natural numbers.
-/

namespace PolyRow.Decimal

/-- What a double stands for. -/
inductive Exact where
  /-- No number at all. -/
  | undefined
  /-- Beyond every number, above or below. -/
  | infinite (negative : Bool)
  /-- `mantissa * 2 ^ exponent`, negated if `negative`; zero has a sign too. -/
  | finite (negative : Bool) (mantissa : Nat) (exponent : Int)
deriving DecidableEq

namespace Exact

/-- The value of a double. -/
def ofFloat (x : Float) : Exact :=
  match x.toModel.unpack with
  | .notANumber => .undefined
  | .infinity sign => .infinite (sign == .negative)
  | .zero sign => .finite (sign == .negative) 0 0
  | .finite sign mantissa exponent _ => .finite (sign == .negative) mantissa exponent

end Exact

/-- The ratio of a power of two and a power of ten as numerator over
denominator: `2 ^ e / 10 ^ k`. -/
def scaleRatio (e k : Int) : Nat × Nat :=
  (Nat.pow 2 e.toNat * Nat.pow 10 (-k).toNat, Nat.pow 2 (-e).toNat * Nat.pow 10 k.toNat)

end PolyRow.Decimal
