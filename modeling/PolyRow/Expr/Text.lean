import PolyRow.Expr.Basic
import PolyRow.Decimal.Fixed

/-!
# Expressions as text

A polynomial is written as its terms with a nonzero coefficient, in order of
their monomials but for the constant, which comes last. Signs stand between the
terms, a coefficient of magnitude one is left out before a monomial, and a
polynomial with nothing to show is written `0`. Bounds follow as a relation; two
different ones enclose the polynomial.

Numbers are shown to twelve decimal places at most, so a text identifies an
expression only up to that rounding.
-/

namespace PolyRow

namespace Expr

/-- Numbers in the text of an expression have at most twelve places. -/
def numberText (x : Float) : String := Decimal.fixedText 12 x

/-- The terms that are written, in the order in which they are. -/
def shownTerms (e : Expr Float) : List (Monomial × Float) :=
  let shown := e.terms.entries.filter fun t => t.2 != 0
  shown.filter (fun t => !t.1.isConstant) ++ shown.filter (fun t => t.1.isConstant)

/-- One term without its sign. -/
def termText (m : Monomial) (c : Float) : String :=
  let magnitude := c.abs
  if m.isConstant then numberText magnitude
  else if magnitude == 1 then toString m
  else numberText magnitude ++ " " ++ toString m

/-- Terms that follow another one, each with its sign in front. -/
def restText (ts : List (Monomial × Float)) : String :=
  String.join (ts.map fun t => (if t.2 < 0 then " - " else " + ") ++ termText t.1 t.2)

/-- The polynomial. -/
def polynomialText : List (Monomial × Float) → String
  | [] => "0"
  | (m, c) :: rest => (if c < 0 then "-" else "") ++ termText m c ++ restText rest

/-- What stands before and after the polynomial on account of its bounds. -/
def boundTexts : Option Float → Option Float → String × String
  | none, none => ("", "")
  | none, some u => ("", " <= " ++ numberText u)
  | some l, none => ("", " >= " ++ numberText l)
  | some l, some u =>
    if l != u then (numberText l ++ " <= ", " <= " ++ numberText u)
    else ("", " == " ++ numberText u)

/-- The text of an expression. -/
def text (e : Expr Float) : String :=
  let (before, after) := boundTexts e.lower e.upper
  before ++ polynomialText e.shownTerms ++ after

instance : ToString (Expr Float) := ⟨text⟩

end Expr

end PolyRow
