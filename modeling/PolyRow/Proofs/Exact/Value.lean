import Mathlib
import PolyRow.Expr.Arithmetic
import PolyRow.Expr.Evaluation
import PolyRow.Proofs.Terms.Accumulation

/-!
# The value of an exact polynomial

Over exact rationals a polynomial has a value at every point: the sum, over its
stored terms, of the coefficient times the values of the factors. The value does
not depend on the order of terms or factors, so it is what evaluation computes
and what every operation of the algebra acts on. Each operation has one equation
here, and later modules never look behind these equations.

An assignment may be partial. `Covers` says that it gives a point's values to the
variables of an expression; evaluation then succeeds, whatever it leaves out
elsewhere.

## Main results

* `evaluate_eq_value`: evaluation under an assignment that covers an expression
  succeeds with its value.
* `value_add`, `value_scale`, `value_mul`: the value is additive and
  multiplicative.
* `Terms.value_erase`: the value without one of the entries.
* `covers_plus`, `covers_scale`, `covers_times`: no operation brings in a variable
  of its own.
-/

namespace PolyRow

variable (v : Variable → Rat)

/-! ## Monomials -/

namespace Monomial

/-- The product of the values of the factors. -/
def value (m : Monomial) : Rat := (m.factors.map v).prod

@[simp] theorem value_one : (1 : Monomial).value v = 1 := rfl

@[simp] theorem value_single (x : Variable) : (single x).value v = v x := by
  simp [value]

theorem value_ofList (xs : List Variable) : (ofList xs).value v = (xs.map v).prod :=
  ((factors_perm_ofList xs).map v).prod_eq

@[simp] theorem value_mul (m n : Monomial) : (m * n).value v = m.value v * n.value v := by
  have hprod : (m * n).value v = ((m.factors ++ n.factors).map v).prod :=
    value_ofList v _
  rw [hprod, List.map_append, List.prod_append]
  rfl

end Monomial

/-! ## Term lists and tables -/

namespace Terms

/-- The sum of coefficients times values of monomials. -/
def entriesValue (es : List (Monomial × Rat)) : Rat :=
  (es.map fun e => e.2 * e.1.value v).sum

@[simp] theorem entriesValue_nil : entriesValue v [] = 0 := rfl

@[simp] theorem entriesValue_cons (e : Monomial × Rat) (es : List (Monomial × Rat)) :
    entriesValue v (e :: es) = e.2 * e.1.value v + entriesValue v es := by
  simp [entriesValue]

theorem entriesValue_append (es fs : List (Monomial × Rat)) :
    entriesValue v (es ++ fs) = entriesValue v es + entriesValue v fs := by
  simp [entriesValue]

/-- The value of the polynomial that a table stores. -/
def value (t : Terms Rat) : Rat := entriesValue v t.entries

@[simp] theorem value_empty : (empty : Terms Rat).value v = 0 := rfl

private theorem entriesValue_alterEntries (m : Monomial) (c : Rat)
    (es : List (Monomial × Rat)) :
    entriesValue v (alterEntries m (fun old => old.getD 0 + c) es) =
      entriesValue v es + c * m.value v := by
  induction es with
  | nil =>
      simp only [alterEntries, entriesValue_cons, entriesValue_nil, Option.getD_none]
      ring
  | cons e rest ih =>
      obtain ⟨n, d⟩ := e
      simp only [alterEntries]
      split
      · simp only [entriesValue_cons, Option.getD_none]
        ring
      · split
        · rename_i heq
          subst heq
          simp only [entriesValue_cons, Option.getD_some]
          ring
        · rw [entriesValue_cons, entriesValue_cons, ih]
          ring

/-- Adding `c` to the coefficient of `m` adds `c` times the value of `m`, whether
an entry is met on the way or a new one put in its place. -/
theorem value_accumulate (t : Terms Rat) (m : Monomial) (c : Rat) :
    (t.accumulate m c).value v = t.value v + c * m.value v :=
  entriesValue_alterEntries v m c t.entries

theorem value_accumulateAll (t : Terms Rat) (es : List (Monomial × Rat)) :
    (t.accumulateAll es).value v = t.value v + entriesValue v es := by
  induction es generalizing t with
  | nil => simp
  | cons e rest ih =>
      rw [accumulateAll_cons, ih, value_accumulate, entriesValue_cons, add_assoc]

theorem value_ofList (es : List (Monomial × Rat)) :
    (ofList es).value v = entriesValue v es := by
  rw [ofList_eq_foldl, value_accumulateAll, value_empty, zero_add]

theorem value_add (s t : Terms Rat) : (s.add t).value v = s.value v + t.value v := by
  rw [add_eq_foldl, value_accumulateAll]
  rfl

theorem value_map_mul (t : Terms Rat) (c : Rat) :
    (t.map (· * c)).value v = t.value v * c := by
  show entriesValue v (t.entries.map fun e => (e.1, e.2 * c)) = entriesValue v t.entries * c
  induction t.entries with
  | nil => simp
  | cons e rest ih =>
      rw [List.map_cons, entriesValue_cons, ih, entriesValue_cons]
      ring

/-- The products with one term have its multiple of the value. -/
private theorem entriesValue_map_term (l : Monomial × Rat) (fs : List (Monomial × Rat)) :
    entriesValue v (fs.map fun r => (l.1 * r.1, l.2 * r.2)) =
      l.2 * l.1.value v * entriesValue v fs := by
  induction fs with
  | nil => simp
  | cons r rest ih =>
      rw [List.map_cons, entriesValue_cons, ih, entriesValue_cons, Monomial.value_mul]
      ring

theorem entriesValue_products (s t : Terms Rat) :
    entriesValue v (s.products t) = s.value v * t.value v := by
  unfold products value
  induction s.entries with
  | nil => simp
  | cons l rest ih =>
      rw [List.flatMap_cons, entriesValue_append, ih, entriesValue_map_term,
        entriesValue_cons]
      ring

/-- Dropping the terms of one monomial takes their sum away. -/
private theorem entriesValue_filter_key (es : List (Monomial × Rat)) (m : Monomial) :
    entriesValue v (es.filter fun e => e.1 != m) =
      entriesValue v es - (coefficientsOf es m).sum * m.value v := by
  induction es with
  | nil => simp [coefficientsOf]
  | cons e rest ih =>
      rw [coefficientsOf_cons, List.filter_cons]
      by_cases hm : e.1 = m
      · rw [if_pos hm, if_neg (by simp [hm]), ih, entriesValue_cons, List.sum_cons, hm]
        ring
      · rw [if_neg hm, if_pos (by simp [hm]), entriesValue_cons, ih, entriesValue_cons]
        ring

/-- Without the entry of `m`, its coefficient times the value of `m` is missing. -/
theorem value_erase (t : Terms Rat) (m : Monomial) :
    (t.erase m).value v = t.value v - (t.get? m).getD 0 * m.value v := by
  have hsum : (coefficientsOf t.entries m).sum = (t.get? m).getD 0 := by
    rw [coefficientsOf_eq_toList t.sorted, get?]
    cases t.entries.lookup m <;> simp
  rw [← hsum]
  exact entriesValue_filter_key v t.entries m

end Terms

/-! ## Expressions -/

namespace Expr

/-- The value of the polynomial at a point; bounds play no part. -/
def value (e : Expr Rat) : Rat := e.terms.value v

theorem value_ofTerms (ts : List (Monomial × Rat)) :
    (ofTerms ts).value v = Terms.entriesValue v ts :=
  Terms.value_ofList v ts

@[simp] theorem value_empty : (empty : Expr Rat).value v = 0 := rfl

@[simp] theorem value_const (c : Rat) : (const c).value v = c := by
  rw [const, value_ofTerms]
  simp

@[simp] theorem value_var (x : Variable) : (var x : Expr Rat).value v = v x := by
  rw [var, term, value_ofTerms]
  simp

@[simp] theorem value_scale (e : Expr Rat) (c : Rat) :
    (e.scale c).value v = e.value v * c :=
  Terms.value_map_mul v e.terms c

@[simp] theorem value_add (a b : Expr Rat) : (a.add b).value v = a.value v + b.value v :=
  Terms.value_add v a.terms b.terms

@[simp] theorem value_mul (a b : Expr Rat) : (a.mul b).value v = a.value v * b.value v := by
  rw [mul]
  exact (Terms.value_ofList v _).trans (Terms.entriesValue_products v a.terms b.terms)

/-- Sums, with a number added in place. -/
@[simp] theorem value_plus (e : Expr Rat) (o : Operand Rat) :
    (e.plus o).value v = e.value v + o.toExpr.value v := by
  obtain b | x | c := o
  · exact value_add v e b
  · exact value_add v e (var x)
  · show (e.terms.accumulate 1 c).value v = e.terms.value v + (const c).value v
    rw [Terms.value_accumulate, Monomial.value_one, mul_one, value_const]

@[simp] theorem value_neg (e : Expr Rat) : e.neg.value v = -e.value v := by
  rw [neg, value_scale]
  ring

@[simp] theorem value_minus (e : Expr Rat) (o : Operand Rat) :
    (e.minus o).value v = e.value v - o.toExpr.value v := by
  rw [minus, value_add, value_scale]
  ring

/-- Products, with every coefficient multiplied in place by a number. -/
@[simp] theorem value_times (e : Expr Rat) (o : Operand Rat) :
    (e.times o).value v = e.value v * o.toExpr.value v := by
  obtain b | x | c := o
  · exact value_mul v e b
  · exact value_mul v e (var x)
  · show (e.scale c).value v = e.value v * (const c).value v
    rw [value_scale, value_const]

/-- A sum of operands has the sum of their values. -/
theorem value_sum (items : List (Operand Rat)) :
    (sum items).value v = (items.map fun o => o.toExpr.value v).sum := by
  have hfold (start : Expr Rat) : (items.foldl plus start).value v =
      start.value v + (items.map fun o => o.toExpr.value v).sum := by
    induction items generalizing start with
    | nil => simp
    | cons o rest ih =>
        rw [List.foldl_cons, ih, value_plus, List.map_cons, List.sum_cons, add_assoc]
  rw [sum, hfold, value_empty, zero_add]

end Expr

/-! ## Evaluation

Evaluation is the same loop for every kind of scalar, and it computes the value
wherever the scalars it meets are a copy of the exact numbers. Over the rationals
the copy is the identity; in a larger arithmetic it may be the finite part. -/

section Evaluation

variable {κ : Type} [Scalar κ]

/-- The scalars `ι q` are a copy of the exact numbers: they are added and
multiplied as these are. -/
structure ExactCopy (ι : Rat → κ) : Prop where
  zero : ι 0 = 0
  add : ∀ p q : Rat, ι (p + q) = ι p + ι q
  mul : ∀ p q : Rat, ι (p * q) = ι p * ι q

/-- The rationals are a copy of themselves. -/
theorem exactCopy_id : ExactCopy (id : Rat → Rat) where
  zero := rfl
  add _ _ := rfl
  mul _ _ := rfl

variable {ι : Rat → κ} {f : Variable → Option κ}

theorem Monomial.evaluate_eq_value (hι : ExactCopy ι) (m : Monomial) (c : Rat)
    (hf : ∀ x ∈ m.factors, f x = some (ι (v x))) :
    m.evaluate f (ι c) = .ok (ι (c * m.value v)) := by
  unfold Monomial.evaluate Monomial.value
  generalize m.factors = xs at hf ⊢
  induction xs generalizing c with
  | nil => simp [pure, Except.pure]
  | cons x xs ih =>
      have hx : f x = some (ι (v x)) := hf x List.mem_cons_self
      have hxs : ∀ y ∈ xs, f y = some (ι (v y)) := fun y hy => hf y (List.mem_cons_of_mem x hy)
      simp only [List.foldlM_cons, hx, List.map_cons, List.prod_cons]
      rw [← hι.mul, ← mul_assoc]
      exact ih (c * v x) hxs

/-- Terms whose coefficients and variables take exact values add up to the exact
sum. -/
theorem Expr.evaluate_eq_entriesValue (hι : ExactCopy ι) (e : Expr κ)
    {es : List (Monomial × Rat)} (hes : e.terms.entries = es.map fun t => (t.1, ι t.2))
    (hf : ∀ t ∈ es, ∀ x ∈ t.1.factors, f x = some (ι (v x))) :
    e.evaluate f = .ok (ι (Terms.entriesValue v es)) := by
  unfold Expr.evaluate
  rw [hes, ← hι.zero, ← zero_add (Terms.entriesValue v es)]
  clear hes
  generalize (0 : Rat) = total
  induction es generalizing total with
  | nil => simp [pure, Except.pure]
  | cons t rest ih =>
      have hterm := t.1.evaluate_eq_value v hι t.2 (hf t List.mem_cons_self)
      have hrest := ih fun u hu => hf u (List.mem_cons_of_mem t hu)
      simp only [List.map_cons, List.foldlM_cons, hterm, Terms.entriesValue_cons]
      rw [← add_assoc, ← hrest, hι.add]
      rfl

end Evaluation

/-! ## Assignments that cover an expression -/

namespace Expr

section Covers

variable {κ : Type}

/-- The assignment gives the values of the point to every variable that occurs in
a stored term, those with coefficient zero included. -/
def Covers (f : Variable → Option κ) (u : Variable → κ) (e : Expr κ) : Prop :=
  ∀ m ∈ e.terms.keys, ∀ x ∈ m.factors, f x = some (u x)

theorem mem_variableList {e : Expr κ} {x : Variable} :
    x ∈ e.variableList ↔ ∃ m ∈ e.terms.keys, x ∈ m.factors := by
  rw [variableList, (Variable.sort_perm _).mem_iff, List.mem_eraseDups, List.mem_flatMap]

theorem forall_mem_variableList {e : Expr κ} {p : Variable → Prop} :
    (∀ x ∈ e.variableList, p x) ↔ ∀ m ∈ e.terms.keys, ∀ x ∈ m.factors, p x := by
  simp only [mem_variableList]
  exact ⟨fun h m hm x hx => h x ⟨m, hm, hx⟩, fun h x ⟨m, hm, hx⟩ => h m hm x hx⟩

theorem covers_iff {f : Variable → Option κ} {u : Variable → κ} {e : Expr κ} :
    e.Covers f u ↔ ∀ x ∈ e.variableList, f x = some (u x) :=
  forall_mem_variableList.symm

variable {f : Variable → Option κ} {u : Variable → κ}

theorem covers_empty : (empty : Expr κ).Covers f u := by
  intro m hm
  exact absurd hm List.not_mem_nil

variable [Scalar κ]

theorem covers_const (c : κ) : (const c).Covers f u := by
  intro m hm x hx
  obtain rfl := (mem_keys_const c m).1 hm
  exact absurd hx List.not_mem_nil

theorem covers_var {x : Variable} (hx : f x = some (u x)) : (var x : Expr κ).Covers f u := by
  intro m hm y hy
  have hsingle : m = .single x := by
    simpa [var, term, ofTerms, Terms.mem_keys_ofList] using hm
  subst hsingle
  rw [List.mem_singleton.1 hy, hx]

theorem covers_scale {e : Expr κ} (he : e.Covers f u) (c : κ) : (e.scale c).Covers f u := by
  intro m hm
  rw [keys_scale] at hm
  exact he m hm

theorem covers_plus {e : Expr κ} {o : Operand κ} (he : e.Covers f u)
    (ho : o.toExpr.Covers f u) : (e.plus o).Covers f u := by
  intro m hm
  exact ((mem_keys_plus e o m).1 hm).elim (he m) (ho m)

theorem covers_minus {e : Expr κ} {o : Operand κ} (he : e.Covers f u)
    (ho : o.toExpr.Covers f u) : (e.minus o).Covers f u := by
  intro m hm
  exact ((mem_keys_minus e o m).1 hm).elim (he m) (ho m)

theorem covers_times {e : Expr κ} {o : Operand κ} (he : e.Covers f u)
    (ho : o.toExpr.Covers f u) : (e.times o).Covers f u := by
  intro m hm x hx
  obtain ⟨k, hk, l, hl, rfl⟩ := (mem_keys_times e o m).1 hm
  exact (Monomial.mem_factors_mul.1 hx).elim (he k hk x) (ho l hl x)

theorem covers_sum {items : List (Operand κ)} (h : ∀ o ∈ items, o.toExpr.Covers f u) :
    (sum items).Covers f u := by
  have hfold {start : Expr κ} (hstart : start.Covers f u) :
      (items.foldl plus start).Covers f u := by
    induction items generalizing start with
    | nil => exact hstart
    | cons o rest ih =>
        have hplus := covers_plus hstart (h o List.mem_cons_self)
        exact ih (fun p hp => h p (List.mem_cons_of_mem o hp)) hplus
  exact hfold covers_empty

end Covers

/-- **Evaluation computes the value.** It succeeds under every assignment that
covers the expression. -/
theorem evaluate_eq_value {f : Variable → Option Rat} {e : Expr Rat} (he : e.Covers f v) :
    e.evaluate f = .ok (e.value v) := by
  refine evaluate_eq_entriesValue v exactCopy_id e (by simp) fun t ht => ?_
  exact he t.1 (List.mem_map_of_mem ht)

end Expr

end PolyRow
