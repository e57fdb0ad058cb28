import Mathlib
import PolyRow.Proofs.Double.Zero
import PolyRow.Proofs.Terms.Accumulation
import PolyRow.Proofs.Wire.InRange

/-!
# Expressions on the wire and back

An expression is written as it is stored and read by building it anew, so what
comes back is not always what was written. A coefficient that is not finite is
written as `null` and refused by the reader. A bound that is not finite is written
as `null`, too, and there that is how an unset bound is written. And every
coefficient is added to zero when it is read, which shows in a negative zero.

What was read once has none of these, so from then on the round trip changes
nothing.

## Main results

* `Expr.ofJson?_toJson`: what comes back, for every expression.
* `Expr.Settled`: what an expression needs to come back unchanged.
* `Expr.settled_of_ofJson?`, `Expr.settled_of_ofText?`: what is read has it.
* `Expr.round_trip`: all of this in one statement.
-/

namespace PolyRow

/-! ## Numbers -/

namespace Json

/-- A double is read back unless it was written as `null`. -/
theorem toFloat?_ofFloat (x : Float) :
    (ofFloat x).toFloat? = if Scalar.isFinite x = true then some x else none := by
  show (if x.isFinite = true then number (.double x) else null).toFloat? =
    if x.isFinite = true then some x else none
  split_ifs <;> rfl

/-- A bound that is not finite is read back as no bound. -/
theorem toOptionalFloat?_ofOption (b : Option Float) :
    toOptionalFloat? (some (ofOption ofFloat b)) = some (b.filter Scalar.isFinite) := by
  cases b with
  | none => rfl
  | some x =>
      show toOptionalFloat? (some (if x.isFinite = true then number (.double x) else null)) =
        some (if x.isFinite = true then some x else none)
      split_ifs <;> rfl

end Json

/-! ## Terms -/

theorem Monomial.ofJson?_toJson (m : Monomial) : Monomial.ofJson? m.toJson = some m := by
  show ((m.factors.map Variable.toJson).mapM Variable.ofJson?).map ofList = some m
  have hnames : (m.factors.map Variable.toJson).mapM Variable.ofJson? = some m.factors := by
    rw [List.mapM_map]
    exact List.mapM_pure.trans (congrArg some (List.map_id _))
  rw [hnames]
  exact congrArg some m.ofList_factors

theorem termOfJson?_termToJson (t : Monomial × Float) :
    termOfJson? (termToJson t) = if Scalar.isFinite t.2 = true then some t else none := by
  show (do return (← Monomial.ofJson? t.1.toJson, ← (Json.ofFloat t.2).toFloat?)) = _
  rw [Monomial.ofJson?_toJson, Json.toFloat?_ofFloat]
  split_ifs <;> rfl

/-- Written terms are read back if all coefficients are finite. -/
theorem termsOfJson?_map_termToJson (ts : List (Monomial × Float)) :
    termsOfJson? (.array (ts.map termToJson)) =
      if ts.all (fun t => Scalar.isFinite t.2) = true then some ts else none := by
  show (ts.map termToJson).mapM termOfJson? = _
  induction ts with
  | nil => rfl
  | cons t rest ih =>
      rw [List.map_cons, List.mapM_cons, ih, termOfJson?_termToJson, List.all_cons]
      cases Scalar.isFinite t.2 with
      | false => rfl
      | true => cases rest.all fun s => Scalar.isFinite s.2 <;> rfl

/-- Entries collected anew are each added to zero. -/
theorem Terms.ofList_entries {κ : Type} [Scalar κ] (t : Terms κ) :
    ofList t.entries = t.map (0 + ·) := by
  refine ext_get? fun m => ?_
  have hentries : coefficientsOf t.entries m = (t.get? m).toList :=
    coefficientsOf_eq_toList t.sorted m
  rw [get?_ofList, get?_map, hentries]
  cases t.get? m <;> rfl

/-- Replacing coefficients changes nothing if it changes none of those stored. -/
theorem Terms.map_eq_self_iff {κ : Type} {f : κ → κ} {t : Terms κ} :
    t.map f = t ↔ ∀ e ∈ t.entries, f e.2 = e.2 := by
  constructor
  · intro h e he
    have hget : t.get? e.1 = some e.2 := get?_eq_some_iff.2 he
    have hmap : (t.map f).get? e.1 = some (f e.2) := by rw [get?_map, hget, Option.map_some]
    rw [h, hget] at hmap
    exact (Option.some.inj hmap).symm
  · intro h
    refine Terms.ext ((List.map_congr_left fun e he => ?_).trans (List.map_id _))
    exact congrArg (Prod.mk e.1) (h e he)

namespace Expr

/-! ## What comes back -/

/-- Every coefficient is a number proper. -/
def HasFiniteCoefficients (e : Expr Float) : Prop :=
  ∀ t ∈ e.terms.entries, Scalar.isFinite t.2 = true

theorem hasFiniteCoefficients_iff {e : Expr Float} :
    e.HasFiniteCoefficients ↔ e.terms.entries.all (fun t => Scalar.isFinite t.2) = true :=
  List.all_eq_true.symm

instance (e : Expr Float) : Decidable e.HasFiniteCoefficients :=
  decidable_of_iff _ hasFiniteCoefficients_iff.symm

/-- What is read from an expression that was written. -/
def reread (e : Expr Float) : Expr Float where
  terms := e.terms.map (0 + ·)
  lower := e.lower.filter Scalar.isFinite
  upper := e.upper.filter Scalar.isFinite

/-- **What comes back**, for every expression. -/
theorem ofJson?_toJson (e : Expr Float) :
    ofJson? e.toJson = if e.HasFiniteCoefficients then some e.reread else none := by
  show (do
    let ts ← termsOfJson? (.array (e.terms.entries.map termToJson))
    let l ← Json.toOptionalFloat? (some (.ofOption .ofFloat e.lower))
    let u ← Json.toOptionalFloat? (some (.ofOption .ofFloat e.upper))
    return (ofTerms ts).withBounds l u) = _
  rw [termsOfJson?_map_termToJson, Json.toOptionalFloat?_ofOption,
    Json.toOptionalFloat?_ofOption]
  by_cases hfinite : e.HasFiniteCoefficients
  · rw [if_pos hfinite, if_pos (hasFiniteCoefficients_iff.1 hfinite)]
    exact congrArg some (Expr.ext e.terms.ofList_entries rfl rfl)
  · rw [if_neg hfinite, if_neg fun h => hfinite (hasFiniteCoefficients_iff.2 h)]
    rfl

/-! ## What comes back unchanged -/

/-- No coefficient is a negative zero, and no bound is other than finite. -/
structure Settled (e : Expr Float) : Prop where
  coefficients : ∀ t ∈ e.terms.entries, t.2 ≠ -0
  lower : ∀ b, e.lower = some b → Scalar.isFinite b = true
  upper : ∀ b, e.upper = some b → Scalar.isFinite b = true

private theorem filter_isFinite {b : Option Float}
    (h : ∀ x, b = some x → Scalar.isFinite x = true) : b.filter Scalar.isFinite = b := by
  cases b with
  | none => rfl
  | some x => exact Option.filter_some_pos (h x rfl)

private theorem isFinite_of_filter {b : Option Float} (h : b.filter Scalar.isFinite = b) {x : Float}
    (hx : b = some x) : Scalar.isFinite x = true := by
  rw [← h, Option.filter_eq_some_iff] at hx
  exact hx.2

private theorem zero_add_eq_self_iff {x : Float} : 0 + x = x ↔ x ≠ -0 := by
  rw [Double.zero_add_eq]
  split_ifs with hx
  · subst hx
    exact iff_of_false (by decide) fun h => h rfl
  · exact iff_of_true rfl hx

theorem reread_eq_iff {e : Expr Float} : e.reread = e ↔ e.Settled := by
  have hentries : e.terms.map (0 + ·) = e.terms ↔ ∀ t ∈ e.terms.entries, t.2 ≠ -0 := by
    rw [Terms.map_eq_self_iff]
    exact forall₂_congr fun t _ => zero_add_eq_self_iff
  constructor
  · intro h
    exact ⟨hentries.1 (congrArg terms h), fun b => isFinite_of_filter (congrArg lower h),
      fun b => isFinite_of_filter (congrArg upper h)⟩
  · intro h
    exact Expr.ext (hentries.2 h.coefficients) (filter_isFinite h.lower) (filter_isFinite h.upper)

/-! ## What was read -/

/-- No coefficient of a table that is built from terms is a negative zero. -/
theorem ne_negZero_of_mem_ofTerms {ts : List (Monomial × Float)} {t : Monomial × Float}
    (ht : t ∈ (ofTerms ts).terms.entries) : t.2 ≠ -0 := by
  have hget : Terms.sum? (Terms.coefficientsOf ts t.1) = some t.2 :=
    (Terms.get?_ofList ts t.1).symm.trans (Terms.get?_eq_some_iff.2 ht)
  cases hcs : Terms.coefficientsOf ts t.1 with
  | nil =>
      rw [hcs] at hget
      exact nomatch hget
  | cons c rest =>
      rw [hcs] at hget
      have hsum : (c :: rest).foldl (· + ·) 0 = t.2 := Option.some.inj hget
      rw [← hsum]
      exact Double.foldl_add_ne_negZero (by decide) (c :: rest)

/-- What is read from the values of the fields. -/
theorem settled_of_ofFields? {terms lower upper : Option Json} {d : Expr Float}
    (hlower : ∀ j, lower = some j → j.InRange) (hupper : ∀ j, upper = some j → j.InRange)
    (h : ofFields? terms lower upper = some d) : d.Settled := by
  obtain ⟨j, _, h⟩ := Option.bind_eq_some_iff.1 h
  obtain ⟨ts, _, h⟩ := Option.bind_eq_some_iff.1 h
  obtain ⟨l, hl, h⟩ := Option.bind_eq_some_iff.1 h
  obtain ⟨u, hu, h⟩ := Option.bind_eq_some_iff.1 h
  obtain rfl := Option.some.inj h
  exact ⟨fun t ht => ne_negZero_of_mem_ofTerms ht,
    fun b hb => Json.isFinite_of_toOptionalFloat? hlower hl hb,
    fun b hb => Json.isFinite_of_toOptionalFloat? hupper hu hb⟩

/-- **What is read from a tree in range is settled.** -/
theorem settled_of_ofJson? {j : Json} {d : Expr Float} (hj : j.InRange)
    (h : ofJson? j = some d) : d.Settled := by
  have hmissing : ∀ k : Json, none = some k → k.InRange := fun k hk => nomatch hk
  have hgiven {k : Json} (hk : k.InRange) : ∀ k', some k = some k' → k'.InRange :=
    fun k' hk' => Option.some.inj hk' ▸ hk
  cases hj with
  | object hmembers =>
      exact settled_of_ofFields? (fun k => Json.inRange_of_member? hmembers)
        (fun k => Json.inRange_of_member? hmembers) h
  | @array items hitems =>
      match items with
      | [terms] => exact settled_of_ofFields? hmissing hmissing h
      | [terms, lower] =>
          exact settled_of_ofFields? (hgiven (hitems lower (by simp))) hmissing h
      | [terms, lower, upper] =>
          exact settled_of_ofFields? (hgiven (hitems lower (by simp)))
            (hgiven (hitems upper (by simp))) h
      | [] => exact nomatch h
      | _ :: _ :: _ :: _ :: _ => exact nomatch h
  | _ => exact nomatch h

/-- **What is read from text is settled.** -/
theorem settled_of_ofText? {text : String} {d : Expr Float} (h : ofText? text = some d) :
    d.Settled := by
  obtain ⟨document, _, h⟩ := Option.bind_eq_some_iff.1 h
  obtain ⟨fields, _, h⟩ := Option.bind_eq_some_iff.1 h
  obtain ⟨j, hj, h⟩ := Option.bind_eq_some_iff.1 h
  exact settled_of_ofJson? (Json.Document.inRange_of_toJson? fields j hj) h
/-- What is written is in range. -/
theorem inRange_toJson (e : Expr Float) : e.toJson.InRange := by
  have hdouble (x : Float) : (Json.ofFloat x).InRange := by
    show (if x.isFinite = true then Json.number (.double x) else .null).InRange
    split_ifs with hx
    · exact .number hx
    · exact .null
  have hbound (b : Option Float) : (Json.ofOption Json.ofFloat b).InRange := by
    cases b with
    | none => exact .null
    | some x => exact hdouble x
  have hmonomial (m : Monomial) : m.toJson.InRange := by
    refine .array (List.forall_mem_map.2 fun x _ => ?_)
    exact .string x.name
  have hterm (t : Monomial × Float) : (termToJson t).InRange :=
    .array (by simpa using ⟨hmonomial t.1, hdouble t.2⟩)
  have hterms : (Json.array (e.terms.entries.map termToJson)).InRange :=
    .array (List.forall_mem_map.2 fun t _ => hterm t)
  exact .object (by simpa using ⟨hterms, hbound e.lower, hbound e.upper⟩)

/-- An expression that was read, from a tree in range or from text. -/
def WasRead (e : Expr Float) : Prop :=
  (∃ j : Json, j.InRange ∧ ofJson? j = some e) ∨ ∃ text : String, ofText? text = some e

theorem WasRead.settled {e : Expr Float} (h : e.WasRead) : e.Settled := by
  rcases h with ⟨j, hj, h⟩ | ⟨text, h⟩
  · exact settled_of_ofJson? hj h
  · exact settled_of_ofText? h

/-- What comes back is as good as what was read. -/
theorem wasRead_of_ofJson?_toJson {e d : Expr Float} (h : ofJson? e.toJson = some d) :
    d.WasRead :=
  .inl ⟨e.toJson, e.inRange_toJson, h⟩

/-- **The round trip of expressions.** It succeeds if and only if all coefficients are
finite. Then it keeps the monomials, adds each coefficient to zero, which makes a
negative zero positive and touches no other bit, and unsets the bounds that are
not finite. An expression that was read before comes back bit for bit. -/
theorem round_trip (e : Expr Float) :
    ((ofJson? e.toJson).isSome = true ↔ e.HasFiniteCoefficients) ∧
    (∀ d, ofJson? e.toJson = some d →
      d.terms.keys = e.terms.keys ∧
      (∀ m c, e.get? m = some c →
        d.get? m = some (0 + c) ∧ (0 + c == c) = true ∧ 0 + c = if c = -0 then 0 else c) ∧
      d.lower = e.lower.filter Scalar.isFinite ∧ d.upper = e.upper.filter Scalar.isFinite) ∧
    (e.WasRead → e.HasFiniteCoefficients → ofJson? e.toJson = some e) := by
  have hread := ofJson?_toJson e
  refine ⟨?_, ?_, ?_⟩
  · rw [hread]
    split_ifs with hfinite
    · exact iff_of_true rfl hfinite
    · exact iff_of_false Bool.false_ne_true hfinite
  · intro d hd
    rw [hread] at hd
    split_ifs at hd with hfinite
    obtain rfl := Option.some.inj hd
    refine ⟨Terms.keys_map _ _, fun m c hc => ⟨?_, ?_, Double.zero_add_eq c⟩, rfl, rfl⟩
    · show (e.terms.map (0 + ·)).get? m = some (0 + c)
      have hget : e.terms.get? m = some c := hc
      rw [Terms.get?_map, hget, Option.map_some]
    · exact Double.zero_add_beq (hfinite (m, c) (Terms.get?_eq_some_iff.1 hc))
  · intro hwas hfinite
    rw [hread, if_pos hfinite, reread_eq_iff.2 hwas.settled]

/-- `2.5 * x - 0.0` at most 7, and more than minus infinity. -/
def withMinusZero : Expr Float where
  terms := { entries := [(1, -0.0), (.single ⟨"x"⟩, 2.5)], sorted := by decide }
  lower := some (-ExtendedScalar.infinity)
  upper := some 7.0

/-- `2.5 * x + 0.0` at most 7. -/
def withPlusZero : Expr Float where
  terms := { entries := [(1, 0.0), (.single ⟨"x"⟩, 2.5)], sorted := by decide }
  upper := some 7.0

theorem round_trip_withMinusZero :
    ofJson? withMinusZero.toJson = some withPlusZero ∧
    withPlusZero.terms.keys = withMinusZero.terms.keys ∧
    withPlusZero.lower = withMinusZero.lower.filter Scalar.isFinite ∧
    withPlusZero.WasRead ∧ withPlusZero.HasFiniteCoefficients ∧
    ofJson? withPlusZero.toJson = some withPlusZero := by
  have hfinite : withMinusZero.HasFiniteCoefficients := by decide
  have hread : ofJson? withMinusZero.toJson = some withPlusZero := by
    rw [ofJson?_toJson, if_pos hfinite]
    rfl
  obtain ⟨hkeys, _, hlower, _⟩ := (round_trip withMinusZero).2.1 withPlusZero hread
  have hwas : withPlusZero.WasRead := wasRead_of_ofJson?_toJson hread
  have hplus : withPlusZero.HasFiniteCoefficients := by decide
  exact ⟨hread, hkeys, hlower, hwas, hplus, (round_trip withPlusZero).2.2 hwas hplus⟩

end Expr

end PolyRow
