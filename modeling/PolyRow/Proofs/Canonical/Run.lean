import Mathlib.Data.Option.NAry
import PolyRow.Proofs.Canonical.Listing

/-!
# Runs of operations

A run is a sequence of public operations, each of which takes the expressions that
were reached before it, new variables and numbers, and JSON values, and reaches one
more expression or, where it fails, none. A run on expressions and the same run on
bare lists reach the same polynomials, and every one of them is in canonical form.

Canonical form is carried from one operation to the next on the bare lists, where no
type demands it: operands in canonical form are listings, the result is then the
listing of what the operation makes of the listed expressions, and a listing is in
canonical form again.

## Main results

* `Operation.listing_apply`, `Operation.canonical_applyPlain`: one operation.
* `listing_run`, `canonical_runPlain`: a whole run.
* `run_canonical`: what every reached expression stores, and that it is found under
  its factors in any order.
-/

namespace PolyRow

/-- Indexing by a monomial, which stops with this text where there is no entry. -/
def Expr.index {κ : Type} (e : Expr κ) (m : Monomial) : Except String κ :=
  (e.get? m).elim (.error "no entry found for key") .ok

/-! ## Arguments -/

/-- What an operation is applied to. -/
inductive Arg where
  /-- The expression reached in the given place. -/
  | reached (i : Nat)
  | variable (x : Variable)
  | scalar (c : Float)
  /-- A JSON value, which is read as an operand. -/
  | json (j : Json)

namespace Arg

/-- The operand that an argument stands for, if it does. -/
def operand (reached : List (Expr Float)) : Arg → Option (Operand Float)
  | .reached i => reached[i]?.map .expr
  | .variable x => some (.variable x)
  | .scalar c => some (.scalar c)
  | .json j => (Operand.ofJson j).toOption

def operandPlain (reached : List (PlainExpr Float)) : Arg → Option (PlainOperand Float)
  | .reached i => reached[i]?.map .expr
  | .variable x => some (.variable x)
  | .scalar c => some (.scalar c)
  | .json j => PlainOperand.ofJson? j

/-- The argument promoted to an expression. -/
def expr (reached : List (Expr Float)) (a : Arg) : Option (Expr Float) :=
  (a.operand reached).map Operand.toExpr

def exprPlain (reached : List (PlainExpr Float)) (a : Arg) : Option (PlainExpr Float) :=
  (a.operandPlain reached).map PlainOperand.toExpr

variable (es : List (Expr Float))

theorem listing_operand (a : Arg) :
    (a.operand es).map Operand.listing = a.operandPlain (es.map Expr.listing) := by
  obtain i | x | c | j := a
  · show (es[i]?.map Operand.expr).map Operand.listing = (es.map Expr.listing)[i]?.map .expr
    rw [List.getElem?_map, Option.map_map, Option.map_map]
    rfl
  · rfl
  · rfl
  · exact Operand.listing_ofJson j

theorem listing_expr (a : Arg) :
    (a.expr es).map Expr.listing = a.exprPlain (es.map Expr.listing) := by
  unfold expr exprPlain
  rw [← listing_operand, Option.map_map, Option.map_map]
  exact congrArg (fun f => (a.operand es).map f) (funext Expr.listing_toExpr)

end Arg

/-! ## Operations -/

/-- A public operation with its arguments. -/
inductive Operation where
  | new
  /-- Terms with the factors of each in any order. -/
  | ofTerms (ts : PlainTerms Float)
  | const (c : Float)
  | term (x : Variable) (c : Float)
  | linearTerms (ts : List (Variable × Float))
  | quadraticForm (ts : List ((Variable × Variable) × Float))
  /-- Reads a JSON tree. -/
  | decode (j : Json)
  /-- Reads JSON text. -/
  | parse (text : String)
  /-- Promotes a variable, a number or a JSON value. -/
  | promote (a : Arg)
  | neg (a : Arg)
  | scale (a : Arg) (c : Float)
  | withBounds (a : Arg) (lower upper : Option Float)
  | withoutConstant (a : Arg)
  | pruned (a : Arg)
  | plus (a b : Arg)
  | minus (a b : Arg)
  | times (a b : Arg)
  | tryDiv (a b : Arg)
  | compare (a b : Arg) (s : ComparisonSense)
  | atMost (a b : Arg)
  | atLeast (a b : Arg)
  | equalTo (a b : Arg)
  /-- The operators, which take a number on the left as well. -/
  | add (a b : Arg)
  | sub (a b : Arg)
  | mul (a b : Arg)
  | div (a b : Arg)
  | sum (items : List Arg)
  | linearSum (items : List Arg)

namespace Operation

/-- What an operation reaches, given what was reached before. -/
def apply (reached : List (Expr Float)) : Operation → Option (Expr Float)
  | .new => some .empty
  | .ofTerms ts => some (.ofTerms (ts.map fun t => (.ofList t.1, t.2)))
  | .const c => some (.const c)
  | .term x c => some (.term x c)
  | .linearTerms ts => some (.linearTerms ts)
  | .quadraticForm ts => some (.quadraticForm ts)
  | .decode j => Expr.ofJson? j
  | .parse text => Expr.ofText? text
  | .promote a => a.expr reached
  | .neg a => (a.expr reached).map .neg
  | .scale a c => (a.expr reached).map (·.scale c)
  | .withBounds a lower upper => (a.expr reached).map (·.withBounds lower upper)
  | .withoutConstant a => (a.expr reached).map .withoutConstant
  | .pruned a => (a.expr reached).map .pruned
  | .plus a b => Option.map₂ .plus (a.expr reached) (b.operand reached)
  | .minus a b => Option.map₂ .minus (a.expr reached) (b.operand reached)
  | .times a b => Option.map₂ .times (a.expr reached) (b.operand reached)
  | .tryDiv a b => (a.expr reached).bind fun e =>
      (b.operand reached).bind fun o => (e.div? o).toOption
  | .compare a b s => Option.map₂ (·.compare · s) (a.expr reached) (b.operand reached)
  | .atMost a b => Option.map₂ .atMost (a.expr reached) (b.operand reached)
  | .atLeast a b => Option.map₂ .atLeast (a.expr reached) (b.operand reached)
  | .equalTo a b => Option.map₂ .equalTo (a.expr reached) (b.operand reached)
  | .add a b => Option.map₂ Operand.add (a.operand reached) (b.operand reached)
  | .sub a b => Option.map₂ Operand.sub (a.operand reached) (b.operand reached)
  | .mul a b => Option.map₂ Operand.mul (a.operand reached) (b.operand reached)
  | .div a b => (a.operand reached).bind fun o =>
      (b.operand reached).bind fun p => (o.div? p).toOption
  | .sum items => (items.mapM (Arg.operand reached)).map .sum
  | .linearSum items => (items.mapM (Arg.expr reached)).map .linearSum

/-- The same operation on bare lists. -/
def applyPlain (reached : List (PlainExpr Float)) : Operation → Option (PlainExpr Float)
  | .new => some {}
  | .ofTerms ts => some (.ofTerms ts)
  | .const c => some (.const c)
  | .term x c => some (.term x c)
  | .linearTerms ts => some (.linearTerms ts)
  | .quadraticForm ts => some (.quadraticForm ts)
  | .decode j => PlainExpr.ofJson? j
  | .parse text => PlainExpr.ofText? text
  | .promote a => a.exprPlain reached
  | .neg a => (a.exprPlain reached).map .neg
  | .scale a c => (a.exprPlain reached).map (·.scale c)
  | .withBounds a lower upper => (a.exprPlain reached).map (·.withBounds lower upper)
  | .withoutConstant a => (a.exprPlain reached).map .withoutConstant
  | .pruned a => (a.exprPlain reached).map .pruned
  | .plus a b => Option.map₂ .plus (a.exprPlain reached) (b.operandPlain reached)
  | .minus a b => Option.map₂ .minus (a.exprPlain reached) (b.operandPlain reached)
  | .times a b => Option.map₂ .times (a.exprPlain reached) (b.operandPlain reached)
  | .tryDiv a b => (a.exprPlain reached).bind fun e => (b.operandPlain reached).bind e.div?
  | .compare a b s => Option.map₂ (·.compare · s) (a.exprPlain reached) (b.operandPlain reached)
  | .atMost a b =>
      Option.map₂ (·.compare · .lessEqual) (a.exprPlain reached) (b.operandPlain reached)
  | .atLeast a b =>
      Option.map₂ (·.compare · .greaterEqual) (a.exprPlain reached) (b.operandPlain reached)
  | .equalTo a b =>
      Option.map₂ (·.compare · .equal) (a.exprPlain reached) (b.operandPlain reached)
  | .add a b => Option.map₂ PlainOperand.add (a.operandPlain reached) (b.operandPlain reached)
  | .sub a b => Option.map₂ PlainOperand.sub (a.operandPlain reached) (b.operandPlain reached)
  | .mul a b => Option.map₂ PlainOperand.mul (a.operandPlain reached) (b.operandPlain reached)
  | .div a b => (a.operandPlain reached).bind fun o => (b.operandPlain reached).bind o.div?
  | .sum items => (items.mapM (Arg.operandPlain reached)).map .sum
  | .linearSum items => (items.mapM (Arg.exprPlain reached)).map .linearSum

section Step

variable (es : List (Expr Float))

private theorem listing_unary {f : Expr Float → Expr Float} {g : PlainExpr Float → PlainExpr Float}
    (h : ∀ e, (f e).listing = g e.listing) (a : Arg) :
    ((a.expr es).map f).map Expr.listing = (a.exprPlain (es.map Expr.listing)).map g := by
  rw [← Arg.listing_expr, Option.map_map, Option.map_map]
  exact congrArg (fun k => (a.expr es).map k) (funext h)

private theorem listing_method {f : Expr Float → Operand Float → Expr Float}
    {g : PlainExpr Float → PlainOperand Float → PlainExpr Float}
    (h : ∀ e o, (f e o).listing = g e.listing o.listing) (a b : Arg) :
    (Option.map₂ f (a.expr es) (b.operand es)).map Expr.listing =
      Option.map₂ g (a.exprPlain (es.map Expr.listing)) (b.operandPlain (es.map Expr.listing)) := by
  rw [← Arg.listing_expr, ← Arg.listing_operand]
  exact Option.map_map₂_distrib h

private theorem listing_operator {f : Operand Float → Operand Float → Expr Float}
    {g : PlainOperand Float → PlainOperand Float → PlainExpr Float}
    (h : ∀ o p, (f o p).listing = g o.listing p.listing) (a b : Arg) :
    (Option.map₂ f (a.operand es) (b.operand es)).map Expr.listing =
      Option.map₂ g (a.operandPlain (es.map Expr.listing))
        (b.operandPlain (es.map Expr.listing)) := by
  rw [← Arg.listing_operand, ← Arg.listing_operand]
  exact Option.map_map₂_distrib h

private theorem listing_list {α β : Type} {view : α → β} {read : Arg → Option α}
    {readPlain : Arg → Option β} (hread : ∀ a, (read a).map view = readPlain a)
    {f : List α → Expr Float} {g : List β → PlainExpr Float}
    (h : ∀ as, (f as).listing = g (as.map view)) (items : List Arg) :
    ((items.mapM read).map f).map Expr.listing = (items.mapM readPlain).map g := by
  have hitems : items.mapM readPlain = (items.mapM read).map (List.map view) :=
    mapM_eq_map (fun a => (hread a).symm) items
  rw [hitems, Option.map_map, Option.map_map]
  exact congrArg (fun k => (items.mapM read).map k) (funext h)

/-- **One operation on expressions is the same operation on bare lists.** -/
theorem listing_apply (op : Operation) :
    (op.apply es).map Expr.listing = op.applyPlain (es.map Expr.listing) := by
  cases op with
  | new => rfl
  | ofTerms ts => exact congrArg some (Expr.listing_ofTerms ts)
  | const c => exact congrArg some (Expr.listing_const c)
  | term x c => exact congrArg some (Expr.listing_term x c)
  | linearTerms ts => exact congrArg some (Expr.listing_linearTerms ts)
  | quadraticForm ts => exact congrArg some (Expr.listing_quadraticForm ts)
  | decode j => exact Expr.listing_ofJson? j
  | parse text => exact Expr.listing_ofText? text
  | promote a => exact a.listing_expr es
  | neg a => exact listing_unary es (fun e => e.listing_scale (-1)) a
  | scale a c => exact listing_unary es (fun e => e.listing_scale c) a
  | withBounds a lower upper =>
      exact listing_unary es (fun e => e.listing_withBounds lower upper) a
  | withoutConstant a => exact listing_unary es Expr.listing_withoutConstant a
  | pruned a => exact listing_unary es Expr.listing_pruned a
  | plus a b => exact listing_method es Expr.listing_plus a b
  | minus a b => exact listing_method es Expr.listing_minus a b
  | times a b => exact listing_method es Expr.listing_times a b
  | compare a b s => exact listing_method es (fun e o => e.listing_compare o s) a b
  | atMost a b => exact listing_method es (fun e o => e.listing_compare o .lessEqual) a b
  | atLeast a b => exact listing_method es (fun e o => e.listing_compare o .greaterEqual) a b
  | equalTo a b => exact listing_method es (fun e o => e.listing_compare o .equal) a b
  | add a b => exact listing_operator es Operand.listing_add a b
  | sub a b => exact listing_operator es Operand.listing_sub a b
  | mul a b => exact listing_operator es Operand.listing_mul a b
  | tryDiv a b =>
      simp only [apply, applyPlain]
      rw [← Arg.listing_expr, ← Arg.listing_operand]
      cases a.expr es with
      | none => rfl
      | some e =>
          cases b.operand es with
          | none => rfl
          | some o => exact e.listing_div? o
  | div a b =>
      simp only [apply, applyPlain]
      rw [← Arg.listing_operand, ← Arg.listing_operand]
      cases a.operand es with
      | none => rfl
      | some o =>
          cases b.operand es with
          | none => rfl
          | some p => exact o.listing_div? p
  | sum items => exact listing_list (Arg.listing_operand es) Expr.listing_sum items
  | linearSum items => exact listing_list (Arg.listing_expr es) Expr.listing_linearSum items

end Step

/-- Bare lists in canonical form are listings, all at once. -/
private theorem exists_map_listing {ps : List (PlainExpr Float)} (h : ∀ p ∈ ps, p.Canonical) :
    ∃ es : List (Expr Float), es.map Expr.listing = ps :=
  (Set.range_list_map Expr.listing).ge fun p hp =>
    PlainExpr.canonical_iff_exists_listing.1 (h p hp)

/-- **Canonical form is preserved** by every operation on bare lists. -/
theorem canonical_applyPlain (op : Operation) {ps : List (PlainExpr Float)}
    (h : ∀ p ∈ ps, p.Canonical) : ∀ q ∈ op.applyPlain ps, q.Canonical := by
  obtain ⟨es, rfl⟩ := exists_map_listing h
  intro q hq
  rw [← listing_apply] at hq
  obtain ⟨e, _, rfl⟩ := Option.map_eq_some_iff.1 hq
  exact e.canonical_listing

end Operation

/-! ## Runs -/

/-- What is reached by an operation, behind what was reached before. -/
def Operation.step (reached : List (Expr Float)) (op : Operation) : List (Expr Float) :=
  reached ++ (op.apply reached).toList

def Operation.stepPlain (reached : List (PlainExpr Float)) (op : Operation) :
    List (PlainExpr Float) :=
  reached ++ (op.applyPlain reached).toList

/-- The expressions reached by a sequence of operations, in their order. -/
def run (ops : List Operation) : List (Expr Float) := ops.foldl Operation.step []

/-- The bare polynomials reached by the same sequence. -/
def runPlain (ops : List Operation) : List (PlainExpr Float) := ops.foldl Operation.stepPlain []

/-- A run on expressions is listed as the run on bare lists. -/
theorem listing_run (ops : List Operation) : (run ops).map Expr.listing = runPlain ops := by
  have hstep (es : List (Expr Float)) (op : Operation) :
      (op.step es).map Expr.listing = op.stepPlain (es.map Expr.listing) := by
    unfold Operation.step Operation.stepPlain
    rw [← Operation.listing_apply, List.map_append]
    cases op.apply es <;> rfl
  have hfold (es : List (Expr Float)) : (ops.foldl Operation.step es).map Expr.listing =
      ops.foldl Operation.stepPlain (es.map Expr.listing) := by
    induction ops generalizing es with
    | nil => rfl
    | cons op rest ih => rw [List.foldl_cons, ih, hstep, List.foldl_cons]
  exact hfold []

/-- Every bare polynomial that a run reaches is in canonical form. The induction is on
the operations, from any polynomials in canonical form. -/
theorem canonical_runPlain (ops : List Operation) : ∀ p ∈ runPlain ops, p.Canonical := by
  have hfold {ps : List (PlainExpr Float)} (hps : ∀ p ∈ ps, p.Canonical) :
      ∀ p ∈ ops.foldl Operation.stepPlain ps, p.Canonical := by
    induction ops generalizing ps with
    | nil => exact hps
    | cons op rest ih =>
        refine ih fun p hp => ?_
        rcases List.mem_append.1 hp with hbefore | hnew
        · exact hps p hbefore
        · exact op.canonical_applyPlain hps p (Option.mem_toList.1 hnew)
  exact hfold fun p hp => absurd hp List.not_mem_nil

/-- A coefficient is found under given factors if it is stored under a rearrangement
of them. -/
theorem Expr.get?_ofList_iff {κ : Type} {e : Expr κ} {xs : List Variable} {c : κ} :
    e.get? (.ofList xs) = some c ↔ ∃ k, (k, c) ∈ e.listing.terms ∧ k.Perm xs := by
  rw [← mem_listing_iff]
  constructor
  · intro h
    exact ⟨_, h, Monomial.factors_perm_ofList xs⟩
  · rintro ⟨k, hk, hperm⟩
    obtain ⟨⟨m, d⟩, _, heq⟩ := List.mem_map.1 hk
    obtain ⟨rfl, rfl⟩ := Prod.mk.inj heq
    rwa [← Monomial.ofList_eq_of_perm hperm, Monomial.ofList_factors]

/-- **Every reached expression is in canonical form.** A run reaches what the same run
on bare lists reaches; what is stored is in canonical form; and whatever order factors
are given in, the coefficient stored under any rearrangement of them is found, and
nothing else. -/
theorem run_canonical (ops : List Operation) :
    (run ops).map Expr.listing = runPlain ops ∧
    ∀ e ∈ run ops, e.listing.Canonical ∧
      ∀ xs ys : List Variable, xs.Perm ys →
        (∀ c, e.get? (.ofList xs) = some c ↔ ∃ k, (k, c) ∈ e.listing.terms ∧ k.Perm ys) ∧
        e.get? (.ofList xs) = e.get? (.ofList ys) ∧
        e.coefficient (.ofList xs) = e.coefficient (.ofList ys) ∧
        e.index (.ofList xs) = e.index (.ofList ys) := by
  refine ⟨listing_run ops, fun e he => ⟨?_, fun xs ys hperm => ?_⟩⟩
  · apply canonical_runPlain ops
    rw [← listing_run]
    exact List.mem_map_of_mem he
  · have hkey : Monomial.ofList xs = Monomial.ofList ys := Monomial.ofList_eq_of_perm hperm
    rw [hkey]
    exact ⟨fun c => Expr.get?_ofList_iff, rfl, rfl, rfl⟩

/-- Terms with factors out of order, their square, and the square compared with a
variable. -/
def squareAtMost : List Operation :=
  [.ofTerms [([⟨"y"⟩, ⟨"x"⟩], 2), ([⟨"x"⟩, ⟨"y"⟩], 3), ([], 1)],
    .times (.reached 0) (.reached 0), .atMost (.reached 1) (.variable ⟨"x"⟩)]

theorem run_canonical_squareAtMost :
    ∃ e, (run squareAtMost)[2]? = some e ∧ e ∈ run squareAtMost ∧ e.listing.Canonical ∧
      List.Perm [(⟨"y"⟩ : Variable), ⟨"x"⟩] [⟨"x"⟩, ⟨"y"⟩] ∧
      e.get? (.ofList [⟨"y"⟩, ⟨"x"⟩]) = e.get? (.ofList [⟨"x"⟩, ⟨"y"⟩]) := by
  have hreached : (run squareAtMost)[2]?.isSome = true := rfl
  obtain ⟨e, he⟩ := Option.isSome_iff_exists.1 hreached
  have hmem : e ∈ run squareAtMost := List.mem_of_getElem? he
  have hperm : List.Perm [(⟨"y"⟩ : Variable), ⟨"x"⟩] [⟨"x"⟩, ⟨"y"⟩] := .swap _ _ _
  obtain ⟨hcanonical, hfound⟩ := (run_canonical squareAtMost).2 e hmem
  exact ⟨e, he, hmem, hcanonical, hperm, (hfound _ _ hperm).2.1⟩

end PolyRow
