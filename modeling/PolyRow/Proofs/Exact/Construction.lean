import Mathlib
import PolyRow.Proofs.Exact.Value

/-!
# Constructions of expressions

A construction is a syntax tree: its leaves are expressions, variables and
numbers, its nodes the operations that combine them, in the form of methods and
of operators. Building it runs these operations on operands, with every
promotion and every way of acting in place that they have. Interpreting it
replaces each leaf by its number and each node by arithmetic on numbers.

The two agree over exact rationals, whatever monomials meet and whatever
coefficients cancel on the way. The invariant that carries the induction over
the tree is `Operand.Denotes`: the operand has the value of the tree, and an
assignment that covers the leaves covers the operand too, since no operation
brings in a variable of its own.

## Main results

* `BinaryForm.denotes_apply`, `Operand.denotes_sum`: one operation.
* `Construction.denotes_build`: a whole tree.
* `Construction.evaluate_build`: the expression that a tree builds evaluates to
  the number that the tree stands for.
-/

namespace PolyRow

/-! ## Operands -/

namespace Operand

/-- The variables of an operand. -/
def support {κ : Type} : Operand κ → List Variable
  | .expr e => e.variableList
  | .variable x => [x]
  | .scalar _ => []

/-- The number that an operand stands for at a point. -/
def value (v : Variable → Rat) : Operand Rat → Rat
  | .expr e => e.value v
  | .variable x => v x
  | .scalar c => c

/-- The operand stands for `q` at the point `v`, and the assignment `f` covers
it. -/
structure Denotes (v : Variable → Rat) (f : Variable → Option Rat) (o : Operand Rat)
    (q : Rat) : Prop where
  covers : o.toExpr.Covers f v
  value : o.toExpr.value v = q

variable {v : Variable → Rat} {f : Variable → Option Rat}

/-- A leaf stands for its own value. -/
theorem denotes_value {o : Operand Rat} (h : ∀ x ∈ o.support, f x = some (v x)) :
    o.Denotes v f (o.value v) := by
  obtain e | x | c := o
  · exact ⟨Expr.covers_iff.2 h, rfl⟩
  · exact ⟨Expr.covers_var (h x (List.mem_singleton_self x)), Expr.value_var v x⟩
  · exact ⟨Expr.covers_const c, Expr.value_const v c⟩

/-- Sums of operands, from the empty expression. -/
theorem denotes_sum {items : List (Operand Rat)} {qs : List Rat}
    (h : List.Forall₂ (Denotes v f) items qs) :
    Denotes v f (.expr (.sum items)) qs.sum := by
  have hcovers : ∀ o ∈ items, o.toExpr.Covers f v := by
    induction h with
    | nil => simp
    | cons hd _ ih => exact List.forall_mem_cons.2 ⟨hd.covers, ih⟩
  have hvalues : items.map (fun o => o.toExpr.value v) = qs := by
    clear hcovers
    induction h with
    | nil => rfl
    | cons hd _ ih => rw [List.map_cons, hd.value, ih]
  refine ⟨Expr.covers_sum hcovers, ?_⟩
  rw [← hvalues]
  exact Expr.value_sum v items

end Operand

/-! ## Binary forms -/

/-- How two operands are combined: by the methods of an expression, or by the
operators, which also take a number on the left. -/
inductive BinaryForm where
  | plus
  | minus
  | times
  | add
  | sub
  | mul
deriving DecidableEq

namespace BinaryForm

/-- The expression that a form makes of two operands. The receiver of a method is
promoted first. -/
def apply : BinaryForm → Operand Rat → Operand Rat → Expr Rat
  | .plus, left, right => left.toExpr.plus right
  | .minus, left, right => left.toExpr.minus right
  | .times, left, right => left.toExpr.times right
  | .add, left, right => left.add right
  | .sub, left, right => left.sub right
  | .mul, left, right => left.mul right

/-- What a form does to numbers. -/
def onNumbers : BinaryForm → Rat → Rat → Rat
  | .plus, p, q | .add, p, q => p + q
  | .minus, p, q | .sub, p, q => p - q
  | .times, p, q | .mul, p, q => p * q

variable {v : Variable → Rat} {f : Variable → Option Rat} {a b : Operand Rat} {p q : Rat}

private theorem denotes_plus (ha : a.Denotes v f p) (hb : b.Denotes v f q) :
    Operand.Denotes v f (.expr (a.toExpr.plus b)) (p + q) where
  covers := Expr.covers_plus ha.covers hb.covers
  value := by
    show (a.toExpr.plus b).value v = p + q
    rw [Expr.value_plus, ha.value, hb.value]

private theorem denotes_minus (ha : a.Denotes v f p) (hb : b.Denotes v f q) :
    Operand.Denotes v f (.expr (a.toExpr.minus b)) (p - q) where
  covers := Expr.covers_minus ha.covers hb.covers
  value := by
    show (a.toExpr.minus b).value v = p - q
    rw [Expr.value_minus, ha.value, hb.value]

private theorem denotes_times (ha : a.Denotes v f p) (hb : b.Denotes v f q) :
    Operand.Denotes v f (.expr (a.toExpr.times b)) (p * q) where
  covers := Expr.covers_times ha.covers hb.covers
  value := by
    show (a.toExpr.times b).value v = p * q
    rw [Expr.value_times, ha.value, hb.value]

/-- A form applied to operands stands for the form applied to their numbers. A
number on the left of `+` or `*` changes sides, which is why numbers commute. -/
theorem denotes_apply (form : BinaryForm) (ha : a.Denotes v f p) (hb : b.Denotes v f q) :
    Operand.Denotes v f (.expr (form.apply a b)) (form.onNumbers p q) := by
  cases form with
  | plus => exact denotes_plus ha hb
  | minus => exact denotes_minus ha hb
  | times => exact denotes_times ha hb
  | sub => exact denotes_minus ha hb
  | add =>
      obtain e | x | c := a
      · exact denotes_plus ha hb
      · exact denotes_plus ha hb
      · have hswap := denotes_plus hb ha
        rw [add_comm] at hswap
        exact hswap
  | mul =>
      obtain e | x | c := a
      · exact denotes_times ha hb
      · exact denotes_times ha hb
      · have hswap := denotes_times hb ha
        rw [mul_comm] at hswap
        exact hswap

end BinaryForm

/-! ## Constructions -/

/-- A syntax tree of operations on expressions, over exact numbers. -/
inductive Construction where
  /-- An expression, a variable or a number, whole or not. -/
  | leaf (o : Operand Rat)
  /-- A sum, difference or product, as a method or as an operator. -/
  | binary (form : BinaryForm) (left right : Construction)
  | neg (t : Construction)
  | scale (t : Construction) (c : Rat)
  /-- A quotient by a nonzero number; the operator is the method. -/
  | quotient (t : Construction) (c : Rat) (hc : c ≠ 0)
  /-- The sum of a list of operands. -/
  | sum (items : List Construction)
  /-- The sum of a list of expressions. -/
  | linearSum (items : List Construction)

namespace Construction

mutual

/-- Runs the operations of a tree. -/
def build : Construction → Except ExprError (Operand Rat)
  | .leaf o => .ok o
  | .binary form left right => do return .expr (form.apply (← left.build) (← right.build))
  | .neg t => do return .expr (← t.build).toExpr.neg
  | .scale t c => do return .expr ((← t.build).toExpr.scale c)
  | .quotient t c _ => do return .expr (← (← t.build).toExpr.div? (.scalar c))
  | .sum items => do return .expr (.sum (← buildAll items))
  | .linearSum items => do return .expr (.linearSum ((← buildAll items).map Operand.toExpr))

/-- Runs the operations of trees one after another. -/
def buildAll : List Construction → Except ExprError (List (Operand Rat))
  | [] => .ok []
  | t :: ts => do return (← t.build) :: (← buildAll ts)

end

mutual

/-- The number that a tree stands for at a point, each leaf replaced by its own. -/
def value (v : Variable → Rat) : Construction → Rat
  | .leaf o => o.value v
  | .binary form left right => form.onNumbers (left.value v) (right.value v)
  | .neg t => -t.value v
  | .scale t c => t.value v * c
  | .quotient t c _ => t.value v / c
  | .sum items => (valueAll v items).sum
  | .linearSum items => (valueAll v items).sum

/-- The numbers that trees stand for. -/
def valueAll (v : Variable → Rat) : List Construction → List Rat
  | [] => []
  | t :: ts => t.value v :: valueAll v ts

end

mutual

/-- The variables of all leaves. -/
def support : Construction → List Variable
  | .leaf o => o.support
  | .binary _ left right => left.support ++ right.support
  | .neg t => t.support
  | .scale t _ => t.support
  | .quotient t _ _ => t.support
  | .sum items => supportAll items
  | .linearSum items => supportAll items

/-- The variables of all leaves of trees. -/
def supportAll : List Construction → List Variable
  | [] => []
  | t :: ts => t.support ++ supportAll ts

end

/-! ## Building agrees with interpreting -/

section Build

variable {v : Variable → Rat} {f : Variable → Option Rat}

private theorem denotes_neg {o : Operand Rat} {q : Rat} (h : o.Denotes v f q) :
    Operand.Denotes v f (.expr o.toExpr.neg) (-q) where
  covers := Expr.covers_scale h.covers (-1)
  value := by
    show o.toExpr.neg.value v = -q
    rw [Expr.value_neg, h.value]

private theorem denotes_scale {o : Operand Rat} {q : Rat} (h : o.Denotes v f q) (c : Rat) :
    Operand.Denotes v f (.expr (o.toExpr.scale c)) (q * c) where
  covers := Expr.covers_scale h.covers c
  value := by
    show (o.toExpr.scale c).value v = q * c
    rw [Expr.value_scale, h.value]

/-- A nonzero number is accepted as a divisor, and the reciprocal divides. -/
private theorem denotes_quotient {o : Operand Rat} {q c : Rat} (h : o.Denotes v f q)
    (hc : c ≠ 0) :
    ∃ e, o.toExpr.div? (.scalar c) = .ok e ∧ Operand.Denotes v f (.expr e) (q / c) := by
  have haccepted : o.toExpr.div? (.scalar c) = .ok (o.toExpr.scale (1 / c)) := by
    simp [Expr.div?, hc]
  have hscale := denotes_scale h (1 / c)
  rw [mul_one_div] at hscale
  exact ⟨_, haccepted, hscale⟩

/-- Promoting the items of a sum beforehand changes nothing that it stands for. -/
private theorem denotes_promoted {os : List (Operand Rat)} {qs : List Rat}
    (h : List.Forall₂ (Operand.Denotes v f) os qs) :
    List.Forall₂ (Operand.Denotes v f) ((os.map Operand.toExpr).map .expr) qs := by
  induction h with
  | nil => exact .nil
  | cons hd _ ih => exact .cons ⟨hd.covers, hd.value⟩ ih

mutual

/-- **A tree builds an operand that stands for its number.** The induction is on
the tree, with the items of a sum taken along. -/
theorem denotes_build : ∀ t : Construction, (∀ x ∈ t.support, f x = some (v x)) →
    ∃ o, t.build = .ok o ∧ o.Denotes v f (t.value v)
  | .leaf o, h => ⟨o, rfl, Operand.denotes_value h⟩
  | .binary form left right, h => by
      obtain ⟨a, hbuildLeft, ha⟩ := denotes_build left fun x hx =>
        h x (List.mem_append_left _ hx)
      obtain ⟨b, hbuildRight, hb⟩ := denotes_build right fun x hx =>
        h x (List.mem_append_right _ hx)
      refine ⟨.expr (form.apply a b), ?_, form.denotes_apply ha hb⟩
      rw [build, hbuildLeft, hbuildRight]
      rfl
  | .neg t, h => by
      obtain ⟨o, hbuild, ho⟩ := denotes_build t h
      refine ⟨.expr o.toExpr.neg, ?_, denotes_neg ho⟩
      rw [build, hbuild]
      rfl
  | .scale t c, h => by
      obtain ⟨o, hbuild, ho⟩ := denotes_build t h
      refine ⟨.expr (o.toExpr.scale c), ?_, denotes_scale ho c⟩
      rw [build, hbuild]
      rfl
  | .quotient t c hc, h => by
      obtain ⟨o, hbuild, ho⟩ := denotes_build t h
      obtain ⟨e, haccepted, he⟩ := denotes_quotient ho hc
      refine ⟨.expr e, ?_, he⟩
      rw [build, hbuild]
      show (do return Operand.expr (← o.toExpr.div? (.scalar c))) = _
      rw [haccepted]
      rfl
  | .sum items, h => by
      obtain ⟨os, hbuild, hos⟩ := denotes_buildAll items h
      refine ⟨.expr (.sum os), ?_, Operand.denotes_sum hos⟩
      rw [build, hbuild]
      rfl
  | .linearSum items, h => by
      obtain ⟨os, hbuild, hos⟩ := denotes_buildAll items h
      refine ⟨.expr (.linearSum (os.map Operand.toExpr)), ?_,
        Operand.denotes_sum (denotes_promoted hos)⟩
      rw [build, hbuild]
      rfl

theorem denotes_buildAll : ∀ ts : List Construction,
    (∀ x ∈ supportAll ts, f x = some (v x)) →
    ∃ os, buildAll ts = .ok os ∧ List.Forall₂ (Operand.Denotes v f) os (valueAll v ts)
  | [], _ => ⟨[], rfl, .nil⟩
  | t :: ts, h => by
      obtain ⟨o, hbuild, ho⟩ := denotes_build t fun x hx => h x (List.mem_append_left _ hx)
      obtain ⟨os, hbuildAll, hos⟩ := denotes_buildAll ts fun x hx =>
        h x (List.mem_append_right _ hx)
      refine ⟨o :: os, ?_, .cons ho hos⟩
      rw [buildAll, hbuild, hbuildAll]
      rfl

end

end Build

/-- **Evaluation is a homomorphism over whole constructions.** Every tree builds
an operand, and under every assignment that gives the point's value to each
variable of each leaf, its expression evaluates to the number of the tree. -/
theorem evaluate_build (t : Construction) (v : Variable → Rat) (f : Variable → Option Rat)
    (hf : ∀ x ∈ t.support, f x = some (v x)) :
    ∃ o, t.build = .ok o ∧ o.toExpr.evaluate f = .ok (t.value v) := by
  obtain ⟨o, hbuild, ho⟩ := denotes_build t hf
  refine ⟨o, hbuild, ?_⟩
  rw [Expr.evaluate_eq_value v ho.covers, ho.value]

/-- `2 * ((x + y) * (x - y)) / 4`: the products of `x` and `y` meet at one
monomial and cancel there. -/
def halfDifferenceOfSquares : Construction :=
  let x : Construction := .leaf (.variable ⟨"x"⟩)
  let y : Construction := .leaf (.variable ⟨"y"⟩)
  let product : Construction := .binary .times (.binary .add x y) (.binary .sub x y)
  .quotient (.binary .mul (.leaf (.scalar 2)) product) 4 (by decide)

/-- The values of `x` and `y`, and of nothing else. -/
def threeAndOne (z : Variable) : Option Rat :=
  if z = ⟨"x"⟩ then some 3 else if z = ⟨"y"⟩ then some 1 else none

theorem evaluate_build_halfDifferenceOfSquares :
    (∀ z ∈ halfDifferenceOfSquares.support,
      threeAndOne z = some ((threeAndOne z).getD 0)) ∧
    ∃ o, halfDifferenceOfSquares.build = .ok o ∧ o.toExpr.evaluate threeAndOne = .ok 4 := by
  have hcovered : ∀ z ∈ halfDifferenceOfSquares.support,
      threeAndOne z = some ((threeAndOne z).getD 0) := by decide
  have hvalue : halfDifferenceOfSquares.value (fun z => (threeAndOne z).getD 0) = 4 := by
    simp [halfDifferenceOfSquares, value, BinaryForm.onNumbers, Operand.value, threeAndOne]
    norm_num
  refine ⟨hcovered, ?_⟩
  rw [← hvalue]
  exact evaluate_build halfDifferenceOfSquares _ threeAndOne hcovered

end Construction

end PolyRow
