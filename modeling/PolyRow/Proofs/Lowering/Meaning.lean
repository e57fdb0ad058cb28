import Mathlib
import PolyRow.Lowering.Row
import PolyRow.Proofs.Exact.Comparison
import PolyRow.Proofs.Exact.ExtendedRat

/-!
# The meaning of rows

A lowered expression stands for the sum of its parts, and a constraint row for
the condition that this sum lies between its bounds. Lowering keeps both under
exact arithmetic: every term goes into exactly one part, the constant moves into
the bounds with its sign turned, and dropping exact zeros loses nothing.

The sum of the parts is computed over the rationals first. A row needs the
infinities of `ExtendedRat`, but a row that comes out has finite coefficients
only, and a copy of the exact numbers is lowered like the numbers themselves.

## Main results

* `Lowered.ofExpr_eq_ok_iff`: when lowering succeeds, and with which terms.
* `Lowered.constant_add_partsSum`: the parts of a list of terms add up to its
  value.
* `Lowered.ofTerms_map`: lowering commutes with a copy of the exact numbers.
* `ConstraintRow.refines_expr`: a row and its expression admit the same points.
-/

namespace PolyRow

namespace Lowered

/-! ## The sum of the parts -/

/-- The sum of the linear, bilinear and higher terms at a point. -/
def partsSum {κ : Type} [Scalar κ] (l : Lowered κ) (u : Variable → κ) : κ :=
  (l.linear.map fun t => t.2 * u t.1).sum
    + (l.bilinear.map fun t => t.2.2 * u t.1 * u t.2.1).sum
    + (l.higher.map fun t => t.1.factors.foldl (fun p x => p * u x) t.2).sum

private theorem foldl_mul (v : Variable → Rat) (xs : List Variable) (c : Rat) :
    xs.foldl (fun p x => p * v x) c = c * (xs.map v).prod := by
  induction xs generalizing c with
  | nil => simp
  | cons x rest ih => rw [List.foldl_cons, ih, List.map_cons, List.prod_cons, mul_assoc]

private theorem sum_map_filter {α : Type} (p : α → Bool) (g : α → Rat) (ts : List α) :
    ((ts.filter p).map g).sum = (ts.map fun t => if p t then g t else 0).sum := by
  induction ts with
  | nil => rfl
  | cons t rest ih =>
      by_cases hp : p t = true
      · simp [hp, ih]
      · simp [hp, ih]

private theorem sum_map_filterMap {α β : Type} (h : α → Option β) (g : β → Rat)
    (ts : List α) :
    ((ts.filterMap h).map g).sum = (ts.map fun t => ((h t).map g).getD 0).sum := by
  induction ts with
  | nil => rfl
  | cons t rest ih =>
      cases ht : h t with
      | none => simp [ht, ih]
      | some b => simp [ht, ih]

/-- What a term adds to the constant and to each of the three parts. The cases are
the four shapes of a list of factors: none, one, two, and three or more. -/
private theorem contributions (v : Variable → Rat) (t : Monomial × Rat) :
    (if t.1.isConstant then t.2 else 0)
      + (((linearTerm? t).map fun s => s.2 * v s.1).getD 0
        + ((bilinearTerm? t).map fun s => s.2.2 * v s.1 * v s.2.1).getD 0
        + if 2 < t.1.degree then t.1.factors.foldl (fun p x => p * v x) t.2 else 0)
      = t.2 * t.1.value v := by
  rw [foldl_mul]
  obtain ⟨⟨xs, hxs⟩, c⟩ := t
  match xs, hxs with
  | [], hxs =>
      show c + (0 + 0 + 0) = c * 1
      ring
  | [x], hxs =>
      show 0 + (c * v x + 0 + 0) = c * (v x * 1)
      ring
  | [x, y], hxs =>
      show 0 + (0 + c * v x * v y + 0) = c * (v x * (v y * 1))
      ring
  | x :: y :: z :: zs, hxs =>
      have hdegree : 2 < (x :: y :: z :: zs).length := by simp
      show 0 + (0 + 0 + if 2 < (x :: y :: z :: zs).length then _ else 0) = _
      rw [if_pos hdegree]
      show 0 + (0 + 0 + c * ((x :: y :: z :: zs).map v).prod) = _
      rw [zero_add, zero_add, zero_add]
      rfl

/-- **Every term goes into exactly one part**, and nothing else does. -/
theorem constant_add_partsSum (v : Variable → Rat) (ts : List (Monomial × Rat)) :
    (ofTerms ts).constant + (ofTerms ts).partsSum v = Terms.entriesValue v ts := by
  have hconstant : (ofTerms ts).constant =
      ((ts.filter fun t => t.1.isConstant).map Prod.snd).sum := by
    rw [List.sum_eq_foldl]
    rfl
  have hparts : (ofTerms ts).partsSum v =
      ((ts.filterMap linearTerm?).map fun t => t.2 * v t.1).sum
        + ((ts.filterMap bilinearTerm?).map fun t => t.2.2 * v t.1 * v t.2.1).sum
        + ((ts.filter fun t => decide (2 < t.1.degree)).map
            fun t => t.1.factors.foldl (fun p x => p * v x) t.2).sum := rfl
  rw [hconstant, hparts, sum_map_filter, sum_map_filterMap, sum_map_filterMap,
    sum_map_filter, ← List.sum_map_add, ← List.sum_map_add, ← List.sum_map_add]
  unfold Terms.entriesValue
  congr 1
  refine List.map_congr_left fun t _ => ?_
  simpa only [decide_eq_true_eq] using contributions v t

/-! ## When lowering succeeds -/

/-- Lowering succeeds if no term is refused, and then sorts those that are kept. -/
theorem ofExpr_eq_ok_iff {κ : Type} [Scalar κ] {e : Expr κ} {config : LowerConfig κ}
    {l : Lowered κ} :
    ofExpr e config = .ok l ↔
      (∀ t ∈ e.terms.entries, config.refusal? t = none) ∧
        ofTerms (e.terms.entries.filter fun t => !config.drops t.2) = l := by
  unfold ofExpr
  rw [← List.findSome?_eq_none_iff]
  cases e.terms.entries.findSome? config.refusal? with
  | none => simp
  | some error => simp

/-- A term that is not refused has a finite coefficient. -/
theorem isFinite_of_refusal?_eq_none {κ : Type} [Scalar κ] {config : LowerConfig κ}
    {t : Monomial × κ} (h : config.refusal? t = none) : Scalar.isFinite t.2 = true := by
  unfold LowerConfig.refusal? at h
  by_cases hfinite : Scalar.isFinite t.2 = true
  · exact hfinite
  · rw [Bool.not_eq_true] at hfinite
    simp [hfinite] at h

/-- Terms are not refused for bounds, of which they have none. -/
theorem ofExpr_ne_invalidBounds {κ : Type} [Scalar κ] {e : Expr κ} {config : LowerConfig κ}
    {lower upper : κ} : ofExpr e config ≠ .error (.invalidBounds lower upper) := by
  intro h
  unfold ofExpr at h
  cases hfind : e.terms.entries.findSome? config.refusal? with
  | none => simp [hfind] at h
  | some error =>
      rw [hfind] at h
      obtain ⟨t, _, ht⟩ := List.exists_of_findSome?_eq_some hfind
      rw [Except.error.inj h] at ht
      unfold LowerConfig.refusal? at ht
      split at ht
      · simp at ht
      · split at ht
        · simp at ht
        · split at ht <;> simp at ht

/-! ## Copies of the exact numbers -/

section Copy

variable {κ : Type} [Scalar κ] {ι : Rat → κ}

/-- The parts with every coefficient copied. -/
def map (ι : Rat → κ) (l : Lowered Rat) : Lowered κ where
  constant := ι l.constant
  linear := l.linear.map fun t => (t.1, ι t.2)
  bilinear := l.bilinear.map fun t => (t.1, t.2.1, ι t.2.2)
  higher := l.higher.map fun t => (t.1, ι t.2)

private theorem sum_map_copy (hι : ExactCopy ι) (qs : List Rat) :
    (qs.map ι).sum = ι qs.sum := by
  induction qs with
  | nil => exact hι.zero.symm
  | cons q rest ih => rw [List.map_cons, List.sum_cons, ih, ← hι.add, List.sum_cons]

private theorem foldl_add_copy (hι : ExactCopy ι) (qs : List Rat) (q : Rat) :
    (qs.map ι).foldl (· + ·) (ι q) = ι (qs.foldl (· + ·) q) := by
  rw [List.foldl_map]
  exact List.foldl_hom ι fun p r => (hι.add p r).symm

private theorem foldl_mul_copy (hι : ExactCopy ι) (v : Variable → Rat) (xs : List Variable)
    (c : Rat) :
    xs.foldl (fun p x => p * ι (v x)) (ι c) = ι (xs.foldl (fun p x => p * v x) c) :=
  List.foldl_hom ι fun p x => (hι.mul p (v x)).symm

/-- Terms with copied coefficients are sorted like the terms themselves. -/
theorem ofTerms_map (hι : ExactCopy ι) (ts : List (Monomial × Rat)) :
    ofTerms (ts.map fun t => (t.1, ι t.2)) = (ofTerms ts).map ι := by
  have hlinear (t : Monomial × Rat) : linearTerm? (t.1, ι t.2) =
      (linearTerm? t).map fun s => (s.1, ι s.2) := by
    obtain ⟨⟨xs, _⟩, c⟩ := t
    match xs with
    | [] => rfl
    | [x] => rfl
    | x :: y :: zs => rfl
  have hbilinear (t : Monomial × Rat) : bilinearTerm? (t.1, ι t.2) =
      (bilinearTerm? t).map fun s => (s.1, s.2.1, ι s.2.2) := by
    obtain ⟨⟨xs, _⟩, c⟩ := t
    match xs with
    | [] => rfl
    | [x] => rfl
    | [x, y] => rfl
    | x :: y :: z :: zs => rfl
  have hconstant := foldl_add_copy hι ((ts.filter fun t => t.1.isConstant).map Prod.snd) 0
  rw [hι.zero] at hconstant
  unfold ofTerms map
  congr 1
  · rw [← hconstant, List.filter_map, List.map_map, List.map_map]
    rfl
  · rw [List.filterMap_map, List.map_filterMap]
    exact congrArg (ts.filterMap ·) (funext hlinear)
  · rw [List.filterMap_map, List.map_filterMap]
    exact congrArg (ts.filterMap ·) (funext hbilinear)
  · rw [List.filter_map]
    rfl

/-- The sum of copied parts at a copied point is the copy of the sum. -/
theorem partsSum_map (hι : ExactCopy ι) (l : Lowered Rat) (v : Variable → Rat) :
    (l.map ι).partsSum (fun x => ι (v x)) = ι (l.partsSum v) := by
  have hlinear : (l.map ι).linear.map (fun t => t.2 * ι (v t.1)) =
      (l.linear.map fun t => t.2 * v t.1).map ι := by
    simp [map, hι.mul]
  have hbilinear : (l.map ι).bilinear.map (fun t => t.2.2 * ι (v t.1) * ι (v t.2.1)) =
      (l.bilinear.map fun t => t.2.2 * v t.1 * v t.2.1).map ι := by
    simp [map, hι.mul]
  have hhigher : (l.map ι).higher.map
        (fun t => t.1.factors.foldl (fun p x => p * ι (v x)) t.2) =
      (l.higher.map fun t => t.1.factors.foldl (fun p x => p * v x) t.2).map ι := by
    simp [map, foldl_mul_copy hι]
  unfold partsSum
  rw [hlinear, hbilinear, hhigher, sum_map_copy hι, sum_map_copy hι, sum_map_copy hι,
    ← hι.add, ← hι.add]

end Copy

end Lowered

/-! ## Exact lowering -/

/-- Without a tolerance only an exact zero is dropped. -/
theorem LowerConfig.eq_zero_of_drops {config : LowerConfig ExtendedRat}
    (hconfig : config.simplifyLevel = .none ∨ config.zeroTolerance = none) {q : Rat}
    (h : config.drops (.finite q) = true) : q = 0 := by
  unfold drops at h
  cases hlevel : config.simplifyLevel with
  | none =>
      rw [hlevel] at h
      exact absurd h Bool.false_ne_true
  | light =>
      have htolerance : config.zeroTolerance = none := by
        rcases hconfig with hnone | hnone
        · rw [hlevel] at hnone
          exact absurd hnone SimplifyLevel.noConfusion
        · exact hnone
      rw [hlevel, htolerance] at h
      have hle : ExtendedRat.finite |q| ≤ .finite 0 := of_decide_eq_true h
      exact abs_nonpos_iff.1 (ExtendedRat.finite_le_finite.1 hle)

namespace Lowered

private theorem exists_finite_entries {ts : List (Monomial × ExtendedRat)}
    (h : ∀ t ∈ ts, Scalar.isFinite t.2 = true) :
    ∃ es : List (Monomial × Rat), (es.map fun t => (t.1, .finite t.2)) = ts := by
  have hentry : ∀ t ∈ ts, ∃ e : Monomial × Rat, (e.1, .finite e.2) = t := by
    intro t ht
    obtain ⟨q, hq⟩ := ExtendedRat.isFinite_iff.1 (h t ht)
    exact ⟨(t.1, q), by rw [← hq]⟩
  exact (Set.range_list_map fun e : Monomial × Rat => (e.1, ExtendedRat.finite e.2)).ge hentry

private theorem entriesValue_filter {p : Monomial × Rat → Bool} (v : Variable → Rat)
    {es : List (Monomial × Rat)} (hzero : ∀ t ∈ es, p t = false → t.2 = 0) :
    Terms.entriesValue v (es.filter p) = Terms.entriesValue v es := by
  induction es with
  | nil => rfl
  | cons t rest ih =>
      have hrest := ih fun u hu => hzero u (List.mem_cons_of_mem t hu)
      by_cases hp : p t = true
      · rw [List.filter_cons_of_pos hp, Terms.entriesValue_cons, Terms.entriesValue_cons, hrest]
      · have ht : t.2 = 0 := hzero t List.mem_cons_self (Bool.not_eq_true _ ▸ hp)
        rw [List.filter_cons_of_neg hp, Terms.entriesValue_cons, hrest, ht]
        ring

/-- **What a lowered expression stands for.** Its constant and, at every point, the
sum of its parts are finite, and together they are the value of the expression. -/
theorem evaluate_of_ofExpr {e : Expr ExtendedRat} {config : LowerConfig ExtendedRat}
    (hconfig : config.simplifyLevel = .none ∨ config.zeroTolerance = none)
    {l : Lowered ExtendedRat} (h : ofExpr e config = .ok l) :
    ∃ k : Rat, l.constant = .finite k ∧
      ∀ (v : Variable → Rat) (f : Variable → Option ExtendedRat),
        e.Covers f (fun x => .finite (v x)) →
        ∃ s : Rat, l.partsSum (fun x => .finite (v x)) = .finite s ∧
          e.evaluate f = .ok (.finite (k + s)) := by
  obtain ⟨hrefusal, hterms⟩ := ofExpr_eq_ok_iff.1 h
  obtain ⟨es, hes⟩ :=
    exists_finite_entries fun t ht => isFinite_of_refusal?_eq_none (hrefusal t ht)
  let kept := es.filter fun t => !config.drops (.finite t.2)
  have hkept : ofTerms (kept.map fun t => (t.1, .finite t.2)) = l := by
    rw [← hterms, ← hes, List.filter_map]
    rfl
  rw [ofTerms_map ExtendedRat.exactCopy_finite] at hkept
  subst hkept
  refine ⟨(ofTerms kept).constant, rfl, fun v f hf => ⟨(ofTerms kept).partsSum v, ?_, ?_⟩⟩
  · exact partsSum_map ExtendedRat.exactCopy_finite (ofTerms kept) v
  · have hvalue : Terms.entriesValue v kept = Terms.entriesValue v es := by
      refine entriesValue_filter v fun t _ hdropped => ?_
      have hdrops : config.drops (.finite t.2) = true := by simpa using hdropped
      exact LowerConfig.eq_zero_of_drops hconfig hdrops
    rw [constant_add_partsSum, hvalue]
    refine Expr.evaluate_eq_entriesValue v ExtendedRat.exactCopy_finite e hes.symm fun t ht => ?_
    refine hf t.1 (List.mem_map.2 ⟨(t.1, .finite t.2), ?_, rfl⟩)
    rw [← hes]
    exact List.mem_map_of_mem ht

end Lowered

/-! ## Rows -/

namespace ConstraintRow

/-- The sum of the terms at a point lies between the bounds. -/
def Admits {κ : Type} [Scalar κ] (row : ConstraintRow κ) (u : Variable → κ) : Prop :=
  row.bounds.lower ≤ row.terms.partsSum u ∧ row.terms.partsSum u ≤ row.bounds.upper

end ConstraintRow

/-- A side that is not set restricts no number. -/
theorem Expr.admits_iff_ofOptions {e : Expr ExtendedRat} {t : Rat} :
    e.Admits (.finite t) ↔
      (Bounds.ofOptions e.lower e.upper).lower ≤ .finite t ∧
        .finite t ≤ (Bounds.ofOptions e.lower e.upper).upper := by
  unfold Expr.Admits Bounds.ofOptions
  refine and_congr ?_ ?_
  · cases e.lower with
    | none => exact iff_of_true (fun l hl => nomatch hl) (ExtendedRat.negInfinity_le_finite t)
    | some l => simp
  · cases e.upper with
    | none => exact iff_of_true (fun u hu => nomatch hu) (ExtendedRat.finite_le_infinity t)
    | some u => simp

namespace ConstraintRow

/-- The constant moved across: the bounds of the row admit what is left of a value
when the expression admits the value. -/
theorem boundsOf_admits_iff {e : Expr ExtendedRat} {l : Lowered ExtendedRat} {k s : Rat}
    (hk : l.constant = .finite k) :
    (boundsOf e l).lower ≤ .finite s ∧ .finite s ≤ (boundsOf e l).upper ↔
      e.Admits (.finite (k + s)) := by
  unfold boundsOf Bounds.shifted
  rw [hk, ExtendedRat.sub_finite_le_iff, ExtendedRat.le_sub_finite_iff,
    ← Expr.admits_iff_ofOptions]

/-- When a row comes out: the terms are lowered, and the bounds are not crossed. -/
theorem ofExpr_eq_ok_iff {κ : Type} [ExtendedScalar κ] {e : Expr κ} {config : LowerConfig κ}
    {row : ConstraintRow κ} :
    ofExpr e config = .ok row ↔
      ∃ l, Lowered.ofExpr e config = .ok l ∧ (boundsOf e l).isValid = true ∧
        row = { terms := { l with constant := 0 }, bounds := boundsOf e l } := by
  unfold ofExpr
  cases Lowered.ofExpr e config with
  | error error => simp
  | ok l =>
      show (if (boundsOf e l).isValid then _ else _) = _ ↔ _
      by_cases hvalid : (boundsOf e l).isValid = true
      · rw [if_pos hvalid]
        constructor
        · intro h
          exact ⟨l, rfl, hvalid, (Except.ok.inj h).symm⟩
        · rintro ⟨_, ⟨⟩, _, rfl⟩
          rfl
      · rw [if_neg hvalid]
        constructor
        · intro h
          exact nomatch h
        · rintro ⟨_, ⟨⟩, h, _⟩
          exact absurd h hvalid

/-- When there is none because of the bounds. -/
theorem boundsOf_invalid_of_ofExpr {κ : Type} [ExtendedScalar κ] {e : Expr κ}
    {config : LowerConfig κ} {lower upper : κ}
    (h : ofExpr e config = .error (.invalidBounds lower upper)) :
    ∃ l, Lowered.ofExpr e config = .ok l ∧ (boundsOf e l).isValid = false := by
  unfold ofExpr at h
  cases hl : Lowered.ofExpr e config with
  | error error =>
      rw [hl] at h
      rw [Except.error.inj h] at hl
      exact absurd hl Lowered.ofExpr_ne_invalidBounds
  | ok l =>
      refine ⟨l, rfl, ?_⟩
      by_cases hvalid : (boundsOf e l).isValid = true
      · simp [hl, hvalid] at h
      · exact Bool.not_eq_true _ ▸ hvalid

/-- **A row means what its expression means.** When lowering drops nothing but
exact zeros, the row that comes out admits the points at which every bound set on
the expression holds for its value. When none comes out because the bounds are
crossed, there are no such points. -/
theorem refines_expr (e : Expr ExtendedRat) (config : LowerConfig ExtendedRat)
    (hconfig : config.simplifyLevel = .none ∨ config.zeroTolerance = none) :
    (∀ row, ofExpr e config = .ok row →
      ∀ (v : Variable → Rat) (f : Variable → Option ExtendedRat),
        (∀ x ∈ e.variableList, f x = some (.finite (v x))) →
        ∃ s t : Rat, row.terms.partsSum (fun x => .finite (v x)) = .finite s ∧
          e.evaluate f = .ok (.finite t) ∧
          (row.Admits (fun x => .finite (v x)) ↔ e.Admits (.finite t))) ∧
    (∀ lower upper, ofExpr e config = .error (.invalidBounds lower upper) →
      ∀ (v : Variable → Rat) (f : Variable → Option ExtendedRat),
        (∀ x ∈ e.variableList, f x = some (.finite (v x))) →
        ∃ t : Rat, e.evaluate f = .ok (.finite t) ∧ ¬ e.Admits (.finite t)) := by
  constructor
  · intro row hrow v f hf
    obtain ⟨l, hl, _, rfl⟩ := ofExpr_eq_ok_iff.1 hrow
    obtain ⟨k, hk, hvalue⟩ := Lowered.evaluate_of_ofExpr hconfig hl
    obtain ⟨s, hs, hevaluate⟩ := hvalue v f (Expr.covers_iff.2 hf)
    refine ⟨s, k + s, hs, hevaluate, ?_⟩
    rw [← boundsOf_admits_iff hk, ← hs]
    rfl
  · intro lower upper herror v f hf
    obtain ⟨l, hl, hinvalid⟩ := boundsOf_invalid_of_ofExpr herror
    obtain ⟨k, hk, hvalue⟩ := Lowered.evaluate_of_ofExpr hconfig hl
    obtain ⟨s, _, hevaluate⟩ := hvalue v f (Expr.covers_iff.2 hf)
    refine ⟨k + s, hevaluate, fun hadmits => ?_⟩
    -- A number between the sides would put them in order.
    obtain ⟨hlower, hupper⟩ := (boundsOf_admits_iff hk).2 hadmits
    have hvalid : (boundsOf e l).isValid = true :=
      decide_eq_true (ExtendedRat.le_trans hlower hupper)
    rw [hinvalid] at hvalid
    exact Bool.false_ne_true hvalid

/-- `2 * x * y + 0 * x * z + 3 * x + 4`, at most 20. -/
def withLeftovers : Expr ExtendedRat :=
  (Expr.ofTerms [(.ofList [⟨"x"⟩, ⟨"y"⟩], .finite 2), (.ofList [⟨"x"⟩, ⟨"z"⟩], .finite 0),
    (.single ⟨"x"⟩, .finite 3), (1, .finite 4)]).withBounds none (some (.finite 20))

/-- `x - 1`, at least 2 and at most 0. -/
def withCrossedBounds : Expr ExtendedRat :=
  ((Expr.var ⟨"x"⟩).minus (.scalar (.finite 1))).withBounds (some (.finite 2))
    (some (.finite 0))

theorem refines_expr_leftovers_crossedBounds :
    (∃ row, ofExpr withLeftovers { simplify := some .light } = .ok row ∧
      row.terms.bilinear = [(⟨"x"⟩, ⟨"y"⟩, .finite 2)] ∧
      row.bounds = ⟨.negInfinity, .finite 16⟩ ∧
      ∃ s t : Rat, row.terms.partsSum (fun _ => .finite 1) = .finite s ∧
        withLeftovers.evaluate (fun _ => some (.finite 1)) = .ok (.finite t) ∧
        (row.Admits (fun _ => .finite 1) ↔ withLeftovers.Admits (.finite t))) ∧
    ofExpr withCrossedBounds { simplify := some .light } =
      .error (.invalidBounds (.finite 3) (.finite 1)) ∧
    ∃ t : Rat, withCrossedBounds.evaluate (fun _ => some (.finite 1)) = .ok (.finite t) ∧
      ¬ withCrossedBounds.Admits (.finite t) := by
  have hrow : ofExpr withLeftovers { simplify := some .light } = .ok
      { terms := { constant := 0, linear := [(⟨"x"⟩, .finite 3)],
                   bilinear := [(⟨"x"⟩, ⟨"y"⟩, .finite 2)] },
        bounds := ⟨.negInfinity, .finite 16⟩ } := by cbv
  have hcrossed : ofExpr withCrossedBounds { simplify := some .light } =
      .error (.invalidBounds (.finite 3) (.finite 1)) := by cbv
  refine ⟨⟨_, hrow, rfl, rfl, ?_⟩, hcrossed, ?_⟩
  · exact (refines_expr withLeftovers _ (.inr rfl)).1 _ hrow (fun _ => 1) _ fun _ _ => rfl
  · exact (refines_expr withCrossedBounds _ (.inr rfl)).2 _ _ hcrossed (fun _ => 1) _
      fun _ _ => rfl

end ConstraintRow

end PolyRow
