import Mathlib
import PolyRow.Expr.Evaluation
import PolyRow.Lowering.Row
import PolyRow.Proofs.Canonical.Run

/-!
# Independence of bounds

Arithmetic, comparison, evaluation and lowering take the terms of their operands
and leave the bounds. The bounds are forgotten by `bare`, and each of these
operations gives for bare operands what it gives for the operands themselves; so two
families of operands that differ in their bounds alone cannot be told apart.

Three operations are the exception: a promoted expression, one without its constant
and one without its zeros keep the bounds they had. A chain of operations therefore
shows nothing of earlier bounds as long as it keeps the bounds only of what was
reached in the chain itself.

## Main results

* `Expr.Indistinguishable`, `Expr.indistinguishable_of_bare_eq`: two operands and the
  answers they get.
* `Operation.apply_eq_of_bare_eq`: one step of a chain.
* `exists_foldl_step_eq_append`: a chain reaches the same from either family.
* `Expr.bounds_never_leak`: all of this in one statement.
-/

namespace PolyRow

variable {κ : Type}

/-! ## Forgetting bounds -/

/-- The same terms without bounds. -/
def Expr.bare (e : Expr κ) : Expr κ := { terms := e.terms }

/-- An operand without bounds. -/
def Operand.bare : Operand κ → Operand κ
  | .expr e => .expr e.bare
  | .variable x => .variable x
  | .scalar c => .scalar c

variable [Scalar κ]

theorem Operand.bare_toExpr (o : Operand κ) : o.bare.toExpr.bare = o.toExpr.bare := by
  cases o <;> rfl

namespace Expr

theorem plus_bare (e : Expr κ) (o : Operand κ) : e.bare.plus o.bare = e.plus o := by
  cases o <;> rfl

theorem minus_bare (e : Expr κ) (o : Operand κ) : e.bare.minus o.bare = e.minus o := by
  cases o <;> rfl

theorem times_bare (e : Expr κ) (o : Operand κ) : e.bare.times o.bare = e.times o := by
  cases o <;> rfl

theorem div?_bare (e : Expr κ) (o : Operand κ) : e.bare.div? o.bare = e.div? o := by
  cases o <;> rfl

theorem compare_bare (e : Expr κ) (o : Operand κ) (s : ComparisonSense) :
    e.bare.compare o.bare s = e.compare o s := by
  unfold compare
  rw [minus_bare]

theorem scale_bare (e : Expr κ) (c : κ) : e.bare.scale c = e.scale c := rfl

theorem neg_bare (e : Expr κ) : e.bare.neg = e.neg := rfl

theorem evaluate_bare (e : Expr κ) (value : Variable → Option κ) :
    e.bare.evaluate value = e.evaluate value := rfl

theorem sum_map_bare (os : List (Operand κ)) : sum (os.map Operand.bare) = sum os := by
  unfold sum
  rw [List.foldl_map]
  have hstep (e : Expr κ) (o : Operand κ) : e.plus o.bare = e.plus o := by
    cases o <;> rfl
  simp only [hstep]

theorem linearSum_map_bare (es : List (Expr κ)) : linearSum (es.map bare) = linearSum es := by
  have hoperands : (es.map bare).map Operand.expr = (es.map Operand.expr).map Operand.bare := by
    rw [List.map_map, List.map_map]
    rfl
  unfold linearSum
  rw [hoperands, sum_map_bare]

end Expr

theorem Lowered.ofExpr_bare (e : Expr κ) (config : LowerConfig κ) :
    ofExpr e.bare config = ofExpr e config := rfl

theorem ObjectiveRow.ofExpr_bare (e : Expr κ) (sense : Sense) (config : LowerConfig κ) :
    ofExpr e.bare sense config = ofExpr e sense config := rfl

namespace Operand

theorem add_bare (o p : Operand κ) : o.bare.add p.bare = o.add p := by
  cases o <;> cases p <;> rfl

theorem sub_bare (o p : Operand κ) : o.bare.sub p.bare = o.sub p := by
  cases o <;> cases p <;> rfl

theorem mul_bare (o p : Operand κ) : o.bare.mul p.bare = o.mul p := by
  cases o <;> cases p <;> rfl

theorem div?_bare (o p : Operand κ) : o.bare.div? p.bare = o.div? p := by
  cases o <;> cases p <;> rfl

end Operand

/-! ## Operands that cannot be told apart -/

namespace Expr

/-- Two expressions, with an operand each, from which every operation gives the same
result, be it an expression, a number, a row or an error. -/
structure Indistinguishable (a a' : Expr Float) (o o' : Operand Float) : Prop where
  plus : a.plus o = a'.plus o'
  minus : a.minus o = a'.minus o'
  times : a.times o = a'.times o'
  tryDiv : a.div? o = a'.div? o'
  scale (c : Float) : a.scale c = a'.scale c
  neg : a.neg = a'.neg
  compare (s : ComparisonSense) : a.compare o s = a'.compare o' s
  atMost : a.atMost o = a'.atMost o'
  atLeast : a.atLeast o = a'.atLeast o'
  equalTo : a.equalTo o = a'.equalTo o'
  evaluate (value : Variable → Option Float) : a.evaluate value = a'.evaluate value
  lower (config : LowerConfig Float) : Lowered.ofExpr a config = Lowered.ofExpr a' config
  objective (sense : Sense) (config : LowerConfig Float) :
    ObjectiveRow.ofExpr a sense config = ObjectiveRow.ofExpr a' sense config

/-- What is the same without the bounds cannot be told apart. -/
theorem indistinguishable_of_bare_eq {a a' : Expr Float} {o o' : Operand Float}
    (ha : a.bare = a'.bare) (ho : o.bare = o'.bare) : Indistinguishable a a' o o' := by
  have hcompare (s : ComparisonSense) : a.compare o s = a'.compare o' s := by
    rw [← compare_bare, ha, ho, compare_bare]
  exact {
    plus := by rw [← plus_bare, ha, ho, plus_bare]
    minus := by rw [← minus_bare, ha, ho, minus_bare]
    times := by rw [← times_bare, ha, ho, times_bare]
    tryDiv := by rw [← div?_bare, ha, ho, div?_bare]
    scale := fun c => by rw [← scale_bare, ha, scale_bare]
    neg := by rw [← neg_bare, ha, neg_bare]
    compare := hcompare
    atMost := hcompare .lessEqual
    atLeast := hcompare .greaterEqual
    equalTo := hcompare .equal
    evaluate := fun value => by rw [← evaluate_bare, ha, evaluate_bare]
    lower := fun config => by rw [← Lowered.ofExpr_bare, ha, Lowered.ofExpr_bare]
    objective := fun sense config => by
      rw [← ObjectiveRow.ofExpr_bare, ha, ObjectiveRow.ofExpr_bare] }

theorem sum_eq_of_bare_eq {os os' : List (Operand κ)}
    (h : os.map Operand.bare = os'.map Operand.bare) : sum os = sum os' := by
  rw [← sum_map_bare os, h, sum_map_bare]

theorem linearSum_eq_of_bare_eq {es es' : List (Expr κ)} (h : es.map bare = es'.map bare) :
    linearSum es = linearSum es' := by
  rw [← linearSum_map_bare es, h, linearSum_map_bare]

end Expr

/-! ## The bounds of a result -/

namespace Expr

theorem isBounded_plus (e : Expr κ) (o : Operand κ) : (e.plus o).isBounded = false := by
  cases o <;> rfl

theorem isBounded_times (e : Expr κ) (o : Operand κ) : (e.times o).isBounded = false := by
  cases o <;> rfl

theorem isBounded_of_div? {e q : Expr κ} {o : Operand κ} (h : q ∈ (e.div? o).toOption) :
    q.isBounded = false := by
  cases hquotient : e.div? o with
  | error error =>
      rw [hquotient] at h
      exact nomatch h
  | ok r =>
      rw [hquotient] at h
      obtain rfl := Option.some.inj h
      obtain ⟨c, _, _, rfl⟩ := div?_eq_ok_iff.1 hquotient
      rfl

/-- A sum is nothing at all or was reached by a last addition. -/
theorem isBounded_sum (os : List (Operand κ)) : (sum os).isBounded = false := by
  rcases os.eq_nil_or_concat with rfl | ⟨before, last, rfl⟩
  · rfl
  · have hlast : sum (before ++ [last]) = (sum before).plus last := List.foldl_concat ..
    rw [List.concat_eq_append, hlast, isBounded_plus]

/-- A comparison bounds the sides that its sense selects and no others. -/
theorem sides_compare (a : Expr κ) (o : Operand κ) (s : ComparisonSense) :
    (a.compare o s).lower =
      (if s = .lessEqual then none else some (0 - (a.minus o).constant)) ∧
    (a.compare o s).upper =
      (if s = .greaterEqual then none else some (0 - (a.minus o).constant)) := by
  cases s <;> exact ⟨rfl, rfl⟩

end Expr

namespace Operand

theorem isBounded_add (o p : Operand κ) : (o.add p).isBounded = false := by
  cases o <;> exact Expr.isBounded_plus ..

theorem isBounded_mul (o p : Operand κ) : (o.mul p).isBounded = false := by
  cases o <;> exact Expr.isBounded_times ..

end Operand

/-! ## One operation -/

section Views

variable {α β γ : Type} {u : α → α} {v : β → β} {x x' : Option α} {y y' : Option β}

private theorem map_eq_of_map_eq {f : α → γ} (hf : ∀ a, f (u a) = f a)
    (hx : x.map u = x'.map u) : x.map f = x'.map f := by
  have hview (x : Option α) : x.map f = (x.map u).map f := by
    rw [Option.map_map]
    exact congrArg (fun g => x.map g) (funext hf).symm
  rw [hview, hx, ← hview]

private theorem bind₂_eq_of_map_eq {f : α → β → Option γ} (hf : ∀ a b, f (u a) (v b) = f a b)
    (hx : x.map u = x'.map u) (hy : y.map v = y'.map v) :
    (x.bind fun a => y.bind (f a)) = x'.bind fun a => y'.bind (f a) := by
  have hview (x : Option α) (y : Option β) :
      (x.bind fun a => y.bind (f a)) = (x.map u).bind fun a => (y.map v).bind (f a) := by
    cases x with
    | none => rfl
    | some a =>
        cases y with
        | none => rfl
        | some b => exact (hf a b).symm
  rw [hview, hx, hy, ← hview]

private theorem map₂_eq_of_map_eq {f : α → β → γ} (hf : ∀ a b, f (u a) (v b) = f a b)
    (hx : x.map u = x'.map u) (hy : y.map v = y'.map v) :
    Option.map₂ f x y = Option.map₂ f x' y' := by
  have hbind (x : Option α) (y : Option β) :
      Option.map₂ f x y = x.bind fun a => y.bind fun b => some (f a b) := by
    cases x <;> cases y <;> rfl
  rw [hbind, hbind]
  exact bind₂_eq_of_map_eq (fun a b => congrArg some (hf a b)) hx hy

private theorem mapM_eq_of_map_eq {read read' : α → Option β}
    (h : ∀ a, (read a).map v = (read' a).map v) (as : List α) :
    (as.mapM read).map (List.map v) = (as.mapM read').map (List.map v) := by
  have hread : as.mapM (fun a => (read a).map v) = (as.mapM read).map (List.map v) :=
    mapM_eq_map (fun _ => rfl) as
  have hread' : as.mapM (fun a => (read a).map v) = (as.mapM read').map (List.map v) :=
    mapM_eq_map h as
  rw [← hread, hread']

end Views

namespace Arg

/-- Families that are the same without the bounds have the same operands without the
bounds. -/
theorem operand_eq_of_bare_eq {es es' : List (Expr Float)}
    (h : es.map Expr.bare = es'.map Expr.bare) (a : Arg) :
    (a.operand es).map Operand.bare = (a.operand es').map Operand.bare := by
  obtain i | x | c | j := a
  · have hget : (es[i]?).map Expr.bare = (es'[i]?).map Expr.bare := by
      rw [← List.getElem?_map, h, List.getElem?_map]
    have hbare (o : Option (Expr Float)) :
        (o.map Operand.expr).map Operand.bare = (o.map Expr.bare).map Operand.expr := by
      cases o <;> rfl
    show (es[i]?.map Operand.expr).map Operand.bare = (es'[i]?.map Operand.expr).map Operand.bare
    rw [hbare, hbare, hget]
  · rfl
  · rfl
  · rfl

theorem expr_eq_of_bare_eq {es es' : List (Expr Float)}
    (h : es.map Expr.bare = es'.map Expr.bare) (a : Arg) :
    (a.expr es).map Expr.bare = (a.expr es').map Expr.bare := by
  have hbare (o : Option (Operand Float)) :
      (o.map Operand.toExpr).map Expr.bare =
        (o.map Operand.bare).map fun p => p.toExpr.bare := by
    rw [Option.map_map, Option.map_map]
    exact congrArg (fun f => o.map f) (funext fun p => p.bare_toExpr.symm)
  unfold expr
  rw [hbare, hbare, operand_eq_of_bare_eq h]

end Arg

namespace Operation

/-- The place of the expression whose bounds the result keeps, if it keeps any. -/
def keptFrom : Operation → Option Nat
  | .promote (.reached i) => some i
  | .withoutConstant (.reached i) => some i
  | .pruned (.reached i) => some i
  | _ => none

variable {es es' : List (Expr Float)}

/-- A place that holds the same in both families gives the same, bounds included. -/
private theorem kept_eq {a : Arg} (ha : ∀ i, a = .reached i → es[i]? = es'[i]?) :
    a.expr es = a.expr es' := by
  obtain i | x | c | j := a
  · exact congrArg (fun e => (e.map Operand.expr).map Operand.toExpr) (ha i rfl)
  · rfl
  · rfl
  · rfl

section Step

variable (h : es.map Expr.bare = es'.map Expr.bare)
include h

private theorem unary_eq {γ : Type} {f : Expr Float → γ} (hf : ∀ e, f e.bare = f e) (a : Arg) :
    (a.expr es).map f = (a.expr es').map f :=
  map_eq_of_map_eq hf (a.expr_eq_of_bare_eq h)

private theorem bare_unary_eq {f : Expr Float → Expr Float}
    (hf : ∀ e, (f e.bare).bare = (f e).bare) (a : Arg) :
    ((a.expr es).map f).map Expr.bare = ((a.expr es').map f).map Expr.bare := by
  rw [Option.map_map, Option.map_map]
  exact unary_eq h hf a

private theorem method_eq {f : Expr Float → Operand Float → Expr Float}
    (hf : ∀ e o, f e.bare o.bare = f e o) (a b : Arg) :
    Option.map₂ f (a.expr es) (b.operand es) = Option.map₂ f (a.expr es') (b.operand es') :=
  map₂_eq_of_map_eq hf (a.expr_eq_of_bare_eq h) (b.operand_eq_of_bare_eq h)

private theorem operator_eq {f : Operand Float → Operand Float → Expr Float}
    (hf : ∀ o p, f o.bare p.bare = f o p) (a b : Arg) :
    Option.map₂ f (a.operand es) (b.operand es) =
      Option.map₂ f (a.operand es') (b.operand es') :=
  map₂_eq_of_map_eq hf (a.operand_eq_of_bare_eq h) (b.operand_eq_of_bare_eq h)

/-- **One operation** reaches the same from two families that are the same without the
bounds, if the place whose bounds it keeps holds the same in both. -/
theorem apply_eq_of_bare_eq {op : Operation} (hkept : ∀ i ∈ op.keptFrom, es[i]? = es'[i]?) :
    op.apply es = op.apply es' := by
  cases op with
  | new | ofTerms | const | term | linearTerms | quadraticForm | decode | parse => rfl
  | promote a => exact kept_eq fun i hi => hkept i (by rw [hi]; rfl)
  | withoutConstant a =>
      exact congrArg (Option.map Expr.withoutConstant)
        (kept_eq fun i hi => hkept i (by rw [hi]; rfl))
  | pruned a =>
      exact congrArg (Option.map Expr.pruned) (kept_eq fun i hi => hkept i (by rw [hi]; rfl))
  | neg a => exact unary_eq h Expr.neg_bare a
  | scale a c => exact unary_eq h (fun e => e.scale_bare c) a
  | withBounds a lower upper => exact unary_eq h (fun _ => rfl) a
  | plus a b => exact method_eq h Expr.plus_bare a b
  | minus a b => exact method_eq h Expr.minus_bare a b
  | times a b => exact method_eq h Expr.times_bare a b
  | compare a b s => exact method_eq h (fun e o => e.compare_bare o s) a b
  | atMost a b => exact method_eq h (fun e o => e.compare_bare o .lessEqual) a b
  | atLeast a b => exact method_eq h (fun e o => e.compare_bare o .greaterEqual) a b
  | equalTo a b => exact method_eq h (fun e o => e.compare_bare o .equal) a b
  | add a b => exact operator_eq h Operand.add_bare a b
  | sub a b => exact operator_eq h Operand.sub_bare a b
  | mul a b => exact operator_eq h Operand.mul_bare a b
  | tryDiv a b =>
      exact bind₂_eq_of_map_eq (fun e o => congrArg Except.toOption (e.div?_bare o))
        (a.expr_eq_of_bare_eq h) (b.operand_eq_of_bare_eq h)
  | div a b =>
      exact bind₂_eq_of_map_eq (fun o p => congrArg Except.toOption (o.div?_bare p))
        (a.operand_eq_of_bare_eq h) (b.operand_eq_of_bare_eq h)
  | sum items =>
      exact map_eq_of_map_eq Expr.sum_map_bare
        (mapM_eq_of_map_eq (Arg.operand_eq_of_bare_eq h) items)
  | linearSum items =>
      exact map_eq_of_map_eq Expr.linearSum_map_bare
        (mapM_eq_of_map_eq (Arg.expr_eq_of_bare_eq h) items)

end Step

/-- A place is kept by these operations alone. -/
private theorem eq_of_keptFrom {op : Operation} {i : Nat} (h : op.keptFrom = some i) :
    op = .promote (.reached i) ∨ op = .withoutConstant (.reached i) ∨
      op = .pruned (.reached i) := by
  unfold keptFrom at h
  split at h
  · obtain rfl := Option.some.inj h
    exact .inl rfl
  · obtain rfl := Option.some.inj h
    exact .inr (.inl rfl)
  · obtain rfl := Option.some.inj h
    exact .inr (.inr rfl)
  · cases h

/-- The terms of a result do not depend on bounds, not even where its bounds do. -/
theorem bare_apply_eq (h : es.map Expr.bare = es'.map Expr.bare) (op : Operation) :
    (op.apply es).map Expr.bare = (op.apply es').map Expr.bare := by
  cases hop : op.keptFrom with
  | none => rw [apply_eq_of_bare_eq h (by rw [hop]; exact fun i hi => nomatch hi)]
  | some i =>
      rcases eq_of_keptFrom hop with rfl | rfl | rfl
      · exact Arg.expr_eq_of_bare_eq h (.reached i)
      · exact bare_unary_eq h (fun e => show e.withoutConstant.bare = _ from rfl) (.reached i)
      · exact bare_unary_eq h (fun e => show e.pruned.bare = _ from rfl) (.reached i)

/-- Whether an operation adds, subtracts, multiplies, scales or divides. -/
def isArithmetic : Operation → Bool
  | .neg _ | .scale .. | .plus .. | .minus .. | .times .. | .tryDiv .. => true
  | .add .. | .sub .. | .mul .. | .div .. | .sum _ | .linearSum _ => true
  | _ => false

/-- The results of arithmetic carry no bounds. -/
theorem isBounded_apply {es : List (Expr Float)} {op : Operation}
    (hop : op.isArithmetic = true) : ∀ e ∈ op.apply es, e.isBounded = false := by
  intro e he
  cases op with
  | neg | scale =>
      obtain ⟨a, _, rfl⟩ := Option.map_eq_some_iff.1 he
      rfl
  | plus =>
      obtain ⟨a, o, _, _, rfl⟩ := Option.mem_map₂_iff.1 he
      exact a.isBounded_plus o
  | minus | sub =>
      obtain ⟨a, o, _, _, rfl⟩ := Option.mem_map₂_iff.1 he
      rfl
  | times =>
      obtain ⟨a, o, _, _, rfl⟩ := Option.mem_map₂_iff.1 he
      exact a.isBounded_times o
  | add =>
      obtain ⟨o, p, _, _, rfl⟩ := Option.mem_map₂_iff.1 he
      exact o.isBounded_add p
  | mul =>
      obtain ⟨o, p, _, _, rfl⟩ := Option.mem_map₂_iff.1 he
      exact o.isBounded_mul p
  | tryDiv | div =>
      obtain ⟨a, _, hquotient⟩ := Option.bind_eq_some_iff.1 he
      obtain ⟨o, _, hquotient⟩ := Option.bind_eq_some_iff.1 hquotient
      exact Expr.isBounded_of_div? hquotient
  | sum =>
      obtain ⟨os, _, rfl⟩ := Option.map_eq_some_iff.1 he
      exact Expr.isBounded_sum os
  | linearSum =>
      obtain ⟨as, _, rfl⟩ := Option.map_eq_some_iff.1 he
      exact Expr.isBounded_sum _
  | _ => cases hop

end Operation

/-! ## Chains of operations -/

/-- **A chain reaches the same from either family** if it keeps no bounds of what is in
them. The induction is on the operations, behind whatever the chain has reached; since
that is the same for both families, so is every place whose bounds are kept. -/
theorem exists_foldl_step_eq_append {es es' : List (Expr Float)} {ops : List Operation}
    (h : es.map Expr.bare = es'.map Expr.bare)
    (hops : ∀ op ∈ ops, ∀ i ∈ op.keptFrom, es.length ≤ i) :
    ∃ new, ops.foldl Operation.step es = es ++ new ∧ ops.foldl Operation.step es' = es' ++ new := by
  have hlength : es.length = es'.length := by
    have hmapped := congrArg List.length h
    rwa [List.length_map, List.length_map] at hmapped
  have happ (op : Operation) (hop : ∀ i ∈ op.keptFrom, es.length ≤ i) (new : List (Expr Float)) :
      op.apply (es ++ new) = op.apply (es' ++ new) := by
    apply Operation.apply_eq_of_bare_eq
    · rw [List.map_append, List.map_append, h]
    · intro i hi
      have hi : es.length ≤ i := hop i hi
      rw [List.getElem?_append_right hi, List.getElem?_append_right (hlength ▸ hi), hlength]
  have hfold (new : List (Expr Float)) : ∃ later,
      ops.foldl Operation.step (es ++ new) = es ++ later ∧
      ops.foldl Operation.step (es' ++ new) = es' ++ later := by
    induction ops generalizing new with
    | nil => exact ⟨new, rfl, rfl⟩
    | cons op rest ih =>
        have hop : op.apply (es ++ new) = op.apply (es' ++ new) :=
          happ op (hops op List.mem_cons_self) new
        rw [List.foldl_cons, List.foldl_cons, Operation.step, Operation.step, ← hop,
          List.append_assoc, List.append_assoc]
        exact ih (fun op hop => hops op (List.mem_cons_of_mem _ hop)) _
  obtain ⟨new, hnew, hnew'⟩ := hfold []
  rw [List.append_nil] at hnew hnew'
  exact ⟨new, hnew, hnew'⟩

/-- The same operation, which attaches no bounds of its own. -/
def Operation.unattached : Operation → Operation
  | .withBounds a _ _ => .withBounds a none none
  | op => op

theorem Operation.bare_apply_unattached (op : Operation) (es : List (Expr Float)) :
    (op.unattached.apply es).map Expr.bare = (op.apply es).map Expr.bare := by
  cases op with
  | withBounds a lower upper =>
      show ((a.expr es).map _).map Expr.bare = ((a.expr es).map _).map Expr.bare
      rw [Option.map_map, Option.map_map]
      rfl
  | _ => rfl

theorem Operation.bare_step_eq {es es' : List (Expr Float)}
    (hes : es.map Expr.bare = es'.map Expr.bare) {op op' : Operation}
    (hop : op.unattached = op'.unattached) :
    (op.step es).map Expr.bare = (op'.step es').map Expr.bare := by
  have happly : (op.apply es).map Expr.bare = (op'.apply es').map Expr.bare := by
    rw [← op.bare_apply_unattached, hop, op'.bare_apply_unattached, bare_apply_eq hes]
  have htoList (o : Option (Expr Float)) : o.toList.map Expr.bare = (o.map Expr.bare).toList := by
    cases o <;> rfl
  unfold step
  rw [List.map_append, List.map_append, hes, htoList, happly, ← htoList]

/-- Two runs that differ in the bounds they attach reach the same terms. -/
theorem bare_run_eq {ops ops' : List Operation}
    (h : ops.map Operation.unattached = ops'.map Operation.unattached) :
    (run ops).map Expr.bare = (run ops').map Expr.bare := by
  have hfold {es es' : List (Expr Float)} (hes : es.map Expr.bare = es'.map Expr.bare) :
      (ops.foldl Operation.step es).map Expr.bare =
        (ops'.foldl Operation.step es').map Expr.bare := by
    induction ops generalizing ops' es es' with
    | nil =>
        obtain rfl := List.map_eq_nil_iff.1 h.symm
        exact hes
    | cons op rest ih =>
        obtain ⟨op', rest', rfl, hop, hrest⟩ := List.map_eq_cons_iff.1 h.symm
        exact ih hrest.symm (Operation.bare_step_eq hes hop.symm)
  exact hfold rfl

/-- **Bounds never leak.** Operands that differ in their bounds alone give the same
results, rows and errors. Arithmetic results carry no bounds, a comparison bounds the
sides that its sense selects and no others, and pruning and removing the constant keep
both bounds. Whatever is reached by a chain that keeps no bounds from before it is the
same for all bounds that were attached before it. -/
theorem Expr.bounds_never_leak :
    (∀ (a a' : Expr Float) (o o' : Operand Float), a.bare = a'.bare → o.bare = o'.bare →
      Indistinguishable a a' o o') ∧
    (∀ o o' p p' : Operand Float, o.bare = o'.bare → p.bare = p'.bare →
      o.add p = o'.add p' ∧ o.sub p = o'.sub p' ∧ o.mul p = o'.mul p' ∧
        o.div? p = o'.div? p') ∧
    (∀ os os' : List (Operand Float), os.map Operand.bare = os'.map Operand.bare →
      sum os = sum os') ∧
    (∀ es es' : List (Expr Float), es.map bare = es'.map bare →
      linearSum es = linearSum es') ∧
    (∀ (es : List (Expr Float)) (op : Operation), op.isArithmetic = true →
      ∀ e ∈ op.apply es, e.isBounded = false) ∧
    (∀ (a : Expr Float) (o : Operand Float) (s : ComparisonSense),
      (a.compare o s).lower =
        (if s = .lessEqual then none else some (0 - (a.minus o).constant)) ∧
      (a.compare o s).upper =
        (if s = .greaterEqual then none else some (0 - (a.minus o).constant))) ∧
    (∀ a : Expr Float, a.pruned.lower = a.lower ∧ a.pruned.upper = a.upper ∧
      a.withoutConstant.lower = a.lower ∧ a.withoutConstant.upper = a.upper) ∧
    (∀ (es es' : List (Expr Float)) (ops : List Operation), es.map bare = es'.map bare →
      (∀ op ∈ ops, ∀ i ∈ op.keptFrom, es.length ≤ i) →
      ∃ new, ops.foldl Operation.step es = es ++ new ∧
        ops.foldl Operation.step es' = es' ++ new) ∧
    (∀ before before' after : List Operation,
      before.map Operation.unattached = before'.map Operation.unattached →
      (∀ op ∈ after, ∀ i ∈ op.keptFrom, (run before).length ≤ i) →
      ∃ new, run (before ++ after) = run before ++ new ∧
        run (before' ++ after) = run before' ++ new) := by
  refine ⟨fun a a' o o' => indistinguishable_of_bare_eq, fun o o' p p' ho hp => ⟨?_, ?_, ?_, ?_⟩,
    fun os os' => sum_eq_of_bare_eq, fun es es' => linearSum_eq_of_bare_eq,
    fun es op => Operation.isBounded_apply, sides_compare, fun a => ⟨rfl, rfl, rfl, rfl⟩,
    fun es es' ops => exists_foldl_step_eq_append, fun before before' after hbefore hafter => ?_⟩
  · rw [← Operand.add_bare, ho, hp, Operand.add_bare]
  · rw [← Operand.sub_bare, ho, hp, Operand.sub_bare]
  · rw [← Operand.mul_bare, ho, hp, Operand.mul_bare]
  · rw [← Operand.div?_bare, ho, hp, Operand.div?_bare]
  · unfold run
    rw [List.foldl_append, List.foldl_append]
    exact exists_foldl_step_eq_append (bare_run_eq hbefore) hafter

/-- A variable between zero and one. -/
def unitVariable : Expr Float := (Expr.var ⟨"x"⟩).withBounds (some 0) (some 1)

/-- A variable, and the variable between the given bounds. -/
def boundedVariable (lower upper : Option Float) : List Operation :=
  [.term ⟨"x"⟩ 1, .withBounds (.reached 0) lower upper]

/-- The sum with a number, the sum without its zeros, and that compared with a variable. -/
def sumAtMost : List Operation :=
  [.plus (.reached 1) (.scalar 2), .pruned (.reached 2), .atMost (.reached 3) (.variable ⟨"y"⟩)]

theorem Expr.bounds_never_leak_unitVariable_sumAtMost :
    unitVariable.isBounded = true ∧ (var ⟨"x"⟩ : Expr Float).isBounded = false ∧
    unitVariable.bare = (var ⟨"x"⟩).bare ∧
    Indistinguishable unitVariable (var ⟨"x"⟩) unitVariable (.expr (var ⟨"x"⟩)) ∧
    Operand.mul (.expr unitVariable) (.expr unitVariable) =
      Operand.mul (.expr (var ⟨"x"⟩)) (.expr (var ⟨"x"⟩)) ∧
    sum [.expr unitVariable, .scalar 2] = sum [.expr (var ⟨"x"⟩), .scalar 2] ∧
    linearSum [unitVariable, unitVariable] = linearSum [var ⟨"x"⟩, var ⟨"x"⟩] ∧
    (∀ e ∈ (Operation.tryDiv (.reached 0) (.scalar 2)).apply [unitVariable],
      e.isBounded = false) ∧
    (∃ new, [Operation.neg (.reached 0)].foldl Operation.step [unitVariable] =
        [unitVariable] ++ new ∧
      [Operation.neg (.reached 0)].foldl Operation.step [var ⟨"x"⟩] = [var ⟨"x"⟩] ++ new) ∧
    (boundedVariable (some 0) (some 1)).map Operation.unattached =
      (boundedVariable none none).map Operation.unattached ∧
    (∀ op ∈ sumAtMost, ∀ i ∈ op.keptFrom,
      (run (boundedVariable (some 0) (some 1))).length ≤ i) ∧
    ∃ new, new.length = 3 ∧
      run (boundedVariable (some 0) (some 1) ++ sumAtMost) =
        run (boundedVariable (some 0) (some 1)) ++ new ∧
      run (boundedVariable none none ++ sumAtMost) =
        run (boundedVariable none none) ++ new := by
  have hbare : unitVariable.bare = (var ⟨"x"⟩).bare := rfl
  have hunattached : (boundedVariable (some 0) (some 1)).map Operation.unattached =
      (boundedVariable none none).map Operation.unattached := rfl
  have hkept : ∀ op ∈ sumAtMost, ∀ i ∈ op.keptFrom,
      (run (boundedVariable (some 0) (some 1))).length ≤ i := by decide
  obtain ⟨hpair, hoperators, hsum, hlinearSum, harithmetic, -, -, hchain, hruns⟩ :=
    bounds_never_leak
  obtain ⟨-, -, hmul, -⟩ := hoperators unitVariable (.expr (var ⟨"x"⟩)) unitVariable
    (.expr (var ⟨"x"⟩)) rfl rfl
  obtain ⟨new, hnew, hnew'⟩ := hruns _ _ _ hunattached hkept
  have hlength : (run (boundedVariable (some 0) (some 1) ++ sumAtMost)).length = 2 + 3 := rfl
  rw [hnew, List.length_append] at hlength
  exact ⟨rfl, rfl, hbare, hpair _ _ _ _ hbare rfl, hmul, hsum _ _ rfl, hlinearSum _ _ rfl,
    harithmetic _ _ rfl, hchain _ _ _ rfl (by decide), hunattached, hkept, new,
    Nat.add_left_cancel hlength, hnew, hnew'⟩

end PolyRow
