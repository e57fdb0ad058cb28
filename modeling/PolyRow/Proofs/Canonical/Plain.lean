import PolyRow.Expr.Comparison
import PolyRow.Wire.Decode

/-!
# Polynomials as bare lists

A second account of expressions, in which nothing keeps terms in order. A
polynomial is a list of pairs of a factor list and a coefficient; monomials are
lists of variables that may stand in any order, and the list may repeat them.
Every operation is the plain loop: an ordered map is walked from its front to the
first key that is not smaller, sums and products accumulate one term at a time,
a scaled map is collected anew, and a key is removed where it is first met.

The loops sort factors where a monomial is made out of several variables, and
nowhere else. Whether the list stays in canonical form is therefore a question
about the operations, and not one that the types have answered.

## Main definitions

* `PlainExpr`: the bare polynomial with its bounds, and the operations on it.
* `PlainExpr.Canonical`: distinct and increasing keys, each with its factors in
  order.
-/

namespace PolyRow

/-- Coefficients keyed by lists of factors, with no order to be relied on. -/
abbrev PlainTerms (κ : Type) : Type := List (List Variable × κ)

namespace PlainTerms

variable {κ : Type}

/-- Replaces what is stored for a key, or inserts it before the first key that is
greater. -/
def alter (k : List Variable) (f : Option κ → κ) : PlainTerms κ → PlainTerms κ
  | [] => [(k, f none)]
  | (l, d) :: rest =>
    if k < l then (k, f none) :: (l, d) :: rest
    else if k = l then (l, f (some d)) :: rest
    else (l, d) :: alter k f rest

/-- Stores a coefficient, whatever was stored before. -/
def insert (ts : PlainTerms κ) (k : List Variable) (c : κ) : PlainTerms κ :=
  alter k (fun _ => c) ts

/-- A map out of pairs, of which the last one with a key counts. -/
def collect (ts : PlainTerms κ) : PlainTerms κ :=
  ts.foldl (fun us t => insert us t.1 t.2) []

/-- Takes out the first entry with the key. -/
def remove (ts : PlainTerms κ) (k : List Variable) : PlainTerms κ :=
  ts.eraseP fun t => t.1 == k

variable [Scalar κ]

/-- Adds to the coefficient of a key, which is zero while it is missing. -/
def accumulate (ts : PlainTerms κ) (k : List Variable) (c : κ) : PlainTerms κ :=
  alter k (fun old => old.getD 0 + c) ts

/-- Accumulates term after term. -/
def accumulateAll (ts us : PlainTerms κ) : PlainTerms κ :=
  us.foldl (fun ts u => accumulate ts u.1 u.2) ts

/-- Accumulates the products of all pairs, with the factors of each sorted. -/
def multiply (ts us : PlainTerms κ) : PlainTerms κ :=
  ts.foldl (fun acc l =>
    us.foldl (fun acc r => accumulate acc (Variable.sort (l.1 ++ r.1)) (l.2 * r.2)) acc) []

end PlainTerms

/-- A polynomial as a bare list, with optional bounds. -/
structure PlainExpr (κ : Type) where
  terms : PlainTerms κ := []
  lower : Option κ := none
  upper : Option κ := none

/-- An operand whose expression is a bare polynomial. -/
inductive PlainOperand (κ : Type) where
  | expr (e : PlainExpr κ)
  | variable (x : Variable)
  | scalar (c : κ)

namespace PlainExpr

variable {κ : Type}

/-! ## Canonical form -/

/-- The keys of the terms, in their order. -/
def keys (e : PlainExpr κ) : List (List Variable) := e.terms.map Prod.fst

/-- Keys increase strictly in the lexicographic order by name, in which a proper
prefix comes first; none occurs twice, and the factors of each are in order of their
names. -/
structure Canonical (e : PlainExpr κ) : Prop where
  increasing : e.keys.Pairwise (List.Lex fun x y => x.name < y.name)
  distinct : e.keys.Nodup
  ordered : ∀ k ∈ e.keys, (k.map Variable.name).Pairwise (· ≤ ·)

/-! ## Operations -/

def withBounds (e : PlainExpr κ) (lower upper : Option κ) : PlainExpr κ :=
  { e with lower, upper }

def withoutConstant (e : PlainExpr κ) : PlainExpr κ := { e with terms := e.terms.remove [] }

variable [Scalar κ]

/-- Terms whose keys are taken as they are. -/
def ofKeyed (ts : PlainTerms κ) : PlainExpr κ := { terms := PlainTerms.accumulateAll [] ts }

/-- Terms with factors in any order, which are sorted first. -/
def ofTerms (ts : PlainTerms κ) : PlainExpr κ :=
  ofKeyed (ts.map fun t => (Variable.sort t.1, t.2))

def const (c : κ) : PlainExpr κ := ofKeyed [([], c)]

def term (x : Variable) (c : κ) : PlainExpr κ := ofKeyed [([x], c)]

def var (x : Variable) : PlainExpr κ := term x 1

def linearTerms (ts : List (Variable × κ)) : PlainExpr κ :=
  ofKeyed ((ts.filter fun t => t.2 != 0).map fun t => ([t.1], t.2))

def quadraticForm (ts : List ((Variable × Variable) × κ)) : PlainExpr κ :=
  ofKeyed ((ts.filter fun t => t.2 != 0).map fun t => (Variable.sort [t.1.1, t.1.2], t.2))

/-- Multiplies every coefficient and collects the map anew. -/
def scale (e : PlainExpr κ) (c : κ) : PlainExpr κ :=
  { terms := PlainTerms.collect (e.terms.map fun t => (t.1, t.2 * c)) }

def neg (e : PlainExpr κ) : PlainExpr κ := e.scale (-1)

def add (a b : PlainExpr κ) : PlainExpr κ := { terms := a.terms.accumulateAll b.terms }

def mul (a b : PlainExpr κ) : PlainExpr κ := { terms := a.terms.multiply b.terms }

def pruned (e : PlainExpr κ) : PlainExpr κ :=
  { e with terms := e.terms.filter fun t => t.2 != 0 }

end PlainExpr

/-- The operand as a bare polynomial. -/
def PlainOperand.toExpr {κ : Type} [Scalar κ] : PlainOperand κ → PlainExpr κ
  | .expr e => e
  | .variable x => .var x
  | .scalar c => .const c

namespace PlainExpr

variable {κ : Type} [Scalar κ]

def plus (e : PlainExpr κ) : PlainOperand κ → PlainExpr κ
  | .scalar c => { terms := e.terms.accumulate [] c }
  | other => e.add other.toExpr

def minus (e : PlainExpr κ) (other : PlainOperand κ) : PlainExpr κ :=
  e.add (other.toExpr.scale (-1))

def times (e : PlainExpr κ) : PlainOperand κ → PlainExpr κ
  | .scalar c => e.scale c
  | other => e.mul other.toExpr

/-- The quotient by a number other than zero. -/
def div? (e : PlainExpr κ) : PlainOperand κ → Option (PlainExpr κ)
  | .scalar c => if c == 0 then none else some (e.scale (1 / c))
  | _ => none

/-- Removes the constant from the difference and puts it into the bounds. -/
def compare (e : PlainExpr κ) (other : PlainOperand κ) (s : ComparisonSense) : PlainExpr κ :=
  let difference := e.minus other
  let bounds := s.boundsFor (0 - (difference.terms.lookup []).getD 0)
  { terms := difference.terms.remove [], lower := bounds.1, upper := bounds.2 }

def sum (items : List (PlainOperand κ)) : PlainExpr κ := items.foldl plus {}

def linearSum (es : List (PlainExpr κ)) : PlainExpr κ := sum (es.map .expr)

end PlainExpr

namespace PlainOperand

variable {κ : Type} [Scalar κ]

/-- The operators, with a number on the left of `+` or `*` moved to the right. -/
def add : PlainOperand κ → PlainOperand κ → PlainExpr κ
  | .scalar c, right => right.toExpr.plus (.scalar c)
  | left, right => left.toExpr.plus right

def sub (left right : PlainOperand κ) : PlainExpr κ := left.toExpr.minus right

def mul : PlainOperand κ → PlainOperand κ → PlainExpr κ
  | .scalar c, right => right.toExpr.times (.scalar c)
  | left, right => left.toExpr.times right

def div? (left right : PlainOperand κ) : Option (PlainExpr κ) := left.toExpr.div? right

end PlainOperand

/-! ## Reading -/

namespace PlainExpr

open Json

/-- The factors of a written monomial, in the order in which they are written. -/
def factorsOfJson? : Json → Option (List Variable)
  | .array items => items.mapM Variable.ofJson?
  | _ => none

def termOfJson? : Json → Option (List Variable × Float)
  | .array [m, c] => do return (← factorsOfJson? m, ← c.toFloat?)
  | _ => none

def termsOfJson? : Json → Option (PlainTerms Float)
  | .array items => items.mapM termOfJson?
  | _ => none

def ofFields? (terms lower upper : Option Json) : Option (PlainExpr Float) := do
  let ts ← termsOfJson? (← terms)
  let l ← toOptionalFloat? lower
  let u ← toOptionalFloat? upper
  return (ofTerms ts).withBounds l u

def ofMembers? (members : List (String × Json)) : Option (PlainExpr Float) :=
  ofFields? (member? members "terms") (member? members "lower") (member? members "upper")

/-- A bare polynomial is read from an object or from the array of its fields. -/
def ofJson? : Json → Option (PlainExpr Float)
  | .object members => ofMembers? members
  | .array [terms] => ofFields? (some terms) none none
  | .array [terms, lower] => ofFields? (some terms) (some lower) none
  | .array [terms, lower, upper] => ofFields? (some terms) (some lower) (some upper)
  | _ => none

def ofText? (text : String) : Option (PlainExpr Float) := do
  let document ← (← Document.ofText? text).fields? ["terms", "lower", "upper"]
  ofJson? (← document.toJson?)

end PlainExpr

/-- An operand is read from a number, a name or an object. -/
def PlainOperand.ofJson? : Json → Option (PlainOperand Float)
  | .number n => some (.scalar n.toFloat)
  | .string s => some (.variable ⟨s⟩)
  | .object members => (PlainExpr.ofMembers? members).map .expr
  | _ => none

end PolyRow
