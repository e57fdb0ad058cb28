import PolyRow.Proofs.Lowering.Meaning

/-!
# What lowering refuses

Lowering can be told as one pass over the terms that puts each into its part and stops
at the first that cannot be passed on. A term offends by a coefficient that is not
finite, whatever becomes of it otherwise, or by a degree that is too high, unless the
term is dropped. Terms are met in order of their monomials, so the error is that of the
offending term with the smallest monomial.

## Main results

* `Lowered.ofExpr_eq_foldlM`: lowering is a single pass.
* `LowerConfig.refusal?_eq_some_iff`: which terms offend, and with which error.
* `Lowered.ofExpr_eq_error_iff`: the error is that of the first offending term.
* `Lowered.refused_iff_offends`: when lowering fails, and how.
-/

namespace PolyRow

variable {κ : Type} [Scalar κ]

/-! ## A single pass -/

namespace Lowered

/-- Puts one more term behind the others of its part; a constant term is added to the
constant. -/
def insert (l : Lowered κ) (t : Monomial × κ) : Lowered κ :=
  match t.1.factors with
  | [] => { l with constant := l.constant + t.2 }
  | [x] => { l with linear := l.linear ++ [(x, t.2)] }
  | [x, y] => { l with bilinear := l.bilinear ++ [(x, y, t.2)] }
  | _ => { l with higher := l.higher ++ [t] }

/-- Takes one more term: its coefficient is looked at first, then whether it is dropped,
then its degree. -/
def step (config : LowerConfig κ) (l : Lowered κ) (t : Monomial × κ) :
    Except (LowerError κ) (Lowered κ) :=
  if !Scalar.isFinite t.2 then .error (.invalidCoefficient t.2)
  else if config.drops t.2 then .ok l
  else if config.degreeLimit < t.1.degree then .error (.degreeTooHigh t.1 config.degreeLimit)
  else .ok (l.insert t)

/-- Terms that are put in one after the other stand in each part as they came. -/
theorem foldl_insert (ts : List (Monomial × κ)) (l : Lowered κ) :
    ts.foldl insert l =
      { constant := ((ts.filter fun t => t.1.isConstant).map Prod.snd).foldl (· + ·) l.constant
        linear := l.linear ++ ts.filterMap linearTerm?
        bilinear := l.bilinear ++ ts.filterMap bilinearTerm?
        higher := l.higher ++ ts.filter fun t => decide (2 < t.1.degree) } := by
  induction ts generalizing l with
  | nil => simp
  | cons t rest ih =>
      obtain ⟨⟨xs, hxs⟩, c⟩ := t
      rw [List.foldl_cons, ih]
      -- The shapes of a list of factors: none, one, two, and three or more.
      rcases xs with _ | ⟨x, _ | ⟨y, _ | ⟨z, zs⟩⟩⟩ <;>
        simp [insert, List.filterMap_cons, Monomial.isConstant, Monomial.degree, linearTerm?,
          bilinearTerm?]

theorem foldl_insert_zero (ts : List (Monomial × κ)) :
    ts.foldl insert { constant := (0 : κ) } = ofTerms ts := by
  rw [foldl_insert]
  rfl

/-- A step refuses what lowering refuses, and takes what is kept. -/
theorem step_eq (config : LowerConfig κ) (l : Lowered κ) (t : Monomial × κ) :
    step config l t =
      match config.refusal? t with
      | some error => .error error
      | none => .ok (if config.drops t.2 then l else l.insert t) := by
  unfold step LowerConfig.refusal?
  by_cases hfinite : Scalar.isFinite t.2 = true
  · by_cases hdrops : config.drops t.2 = true
    · simp [hfinite, hdrops]
    · by_cases hdegree : config.degreeLimit < t.1.degree
      · simp [hfinite, hdrops, hdegree]
      · simp [hfinite, hdrops, hdegree]
  · simp [hfinite]

/-- The steps stop at the first refusal. Without one they take all terms that are kept. -/
theorem foldlM_step (config : LowerConfig κ) (ts : List (Monomial × κ)) (l : Lowered κ) :
    ts.foldlM (step config) l =
      match ts.findSome? config.refusal? with
      | some error => .error error
      | none => .ok ((ts.filter fun t => !config.drops t.2).foldl insert l) := by
  induction ts generalizing l with
  | nil => rfl
  | cons t rest ih =>
      rw [List.foldlM_cons, List.findSome?_cons, step_eq]
      cases config.refusal? t with
      | some error => rfl
      | none =>
          show rest.foldlM (step config) (if config.drops t.2 then l else l.insert t) = _
          rw [ih]
          by_cases hdrops : config.drops t.2 = true
          · simp [hdrops]
          · simp [hdrops]

/-- **Lowering is a single pass** that ends at the first error. -/
theorem ofExpr_eq_foldlM (e : Expr κ) (config : LowerConfig κ) :
    ofExpr e config = e.terms.entries.foldlM (step config) { constant := 0 } := by
  rw [foldlM_step, foldl_insert_zero]
  rfl

end Lowered

/-! ## The first offending term -/

namespace LowerConfig

variable {config : LowerConfig κ} {t : Monomial × κ} {error : LowerError κ}

/-- Terms within a tolerance are dropped. -/
def light (tolerance : Option κ) (maxDegree : Option Nat) : LowerConfig κ :=
  { simplify := some .light, zeroTolerance := tolerance, maxDegree }

theorem drops_light (tolerance : Option κ) (maxDegree : Option Nat) (c : κ) :
    drops (light tolerance maxDegree) c = decide (Scalar.abs c ≤ tolerance.getD 0) := rfl

/-- A term that lowering cannot pass on: its coefficient is not finite, or it is kept
and has too high a degree. -/
def Offends (config : LowerConfig κ) (t : Monomial × κ) : Prop :=
  Scalar.isFinite t.2 = false ∨ config.drops t.2 = false ∧ config.degreeLimit < t.1.degree

/-- The error of an offending term. The degree is named only if the coefficient is
finite. -/
def Explains (config : LowerConfig κ) (t : Monomial × κ) (error : LowerError κ) : Prop :=
  Scalar.isFinite t.2 = false ∧ error = .invalidCoefficient t.2 ∨
    Scalar.isFinite t.2 = true ∧ error = .degreeTooHigh t.1 config.degreeLimit

theorem refusal?_eq_some_iff :
    config.refusal? t = some error ↔ config.Offends t ∧ config.Explains t error := by
  unfold refusal? Offends Explains
  cases hfinite : Scalar.isFinite t.2 with
  | false => simp [@eq_comm _ error]
  | true =>
      cases hdrops : config.drops t.2 with
      | true => simp
      | false =>
          by_cases hdegree : config.degreeLimit < t.1.degree
          · simp [hdegree, @eq_comm _ error]
          · simp [hdegree]

theorem refusal?_eq_none_iff : config.refusal? t = none ↔ ¬ config.Offends t := by
  unfold refusal? Offends
  cases hfinite : Scalar.isFinite t.2 with
  | false => simp
  | true =>
      cases hdrops : config.drops t.2 with
      | true => simp
      | false => simp

end LowerConfig

namespace Lowered

/-- What is lowered has no offending term. -/
theorem not_offends_of_ofExpr {e : Expr κ} {config : LowerConfig κ} {l : Lowered κ}
    (h : ofExpr e config = .ok l) : ∀ t ∈ e.terms.entries, ¬ config.Offends t := by
  intro t ht
  exact LowerConfig.refusal?_eq_none_iff.1 ((ofExpr_eq_ok_iff.1 h).1 t ht)

/-- **The error is that of the first offending term**, in the order of monomials. What
stands before it in an expression is exactly what is smaller. -/
theorem ofExpr_eq_error_iff {e : Expr κ} {config : LowerConfig κ} {error : LowerError κ} :
    ofExpr e config = .error error ↔
      ∃ t ∈ e.terms.entries, config.Offends t ∧
        (∀ u ∈ e.terms.entries, u.1 < t.1 → ¬ config.Offends u) ∧ config.Explains t error := by
  have hfirst : ofExpr e config = .error error ↔
      e.terms.entries.findSome? config.refusal? = some error := by
    unfold ofExpr
    cases e.terms.entries.findSome? config.refusal? with
    | none => simp
    | some error' => simp
  rw [hfirst, Terms.findSome?_entries_eq_some_iff]
  refine exists_congr fun t => and_congr_right fun _ => ?_
  simp only [LowerConfig.refusal?_eq_some_iff, LowerConfig.refusal?_eq_none_iff]
  rw [and_assoc, and_comm (a := config.Explains t error)]

/-- **When lowering fails, and how.** It fails exactly when some coefficient is not
finite or some term that is kept has too high a degree. The error is that of the first
such term: its coefficient, if that is not finite, and otherwise its monomial with the
highest degree accepted. A dropped term is never blamed for its degree. -/
theorem refused_iff_offends (e : Expr κ) (config : LowerConfig κ) :
    ((∃ error, ofExpr e config = .error error) ↔
      ∃ t ∈ e.terms.entries, Scalar.isFinite t.2 = false ∨
        config.drops t.2 = false ∧ config.degreeLimit < t.1.degree) ∧
    (∀ error, ofExpr e config = .error error ↔
      ∃ t ∈ e.terms.entries, config.Offends t ∧
        (∀ u ∈ e.terms.entries, u.1 < t.1 → ¬ config.Offends u) ∧
        (Scalar.isFinite t.2 = false ∧ error = .invalidCoefficient t.2 ∨
          Scalar.isFinite t.2 = true ∧ error = .degreeTooHigh t.1 config.degreeLimit)) ∧
    ∀ m limit, ofExpr e config = .error (.degreeTooHigh m limit) →
      limit = config.degreeLimit ∧
        ∃ c, (m, c) ∈ e.terms.entries ∧ config.drops c = false ∧ limit < m.degree := by
  refine ⟨?_, fun error => ofExpr_eq_error_iff, ?_⟩
  · constructor
    · intro ⟨error, h⟩
      obtain ⟨t, ht, hoffends, _⟩ := ofExpr_eq_error_iff.1 h
      exact ⟨t, ht, hoffends⟩
    · intro ⟨t, ht, hoffends⟩
      cases h : ofExpr e config with
      | error error => exact ⟨error, rfl⟩
      | ok l =>
          have hrefusal := (ofExpr_eq_ok_iff.1 h).1 t ht
          exact absurd hoffends (LowerConfig.refusal?_eq_none_iff.1 hrefusal)
  · intro m limit h
    obtain ⟨t, ht, hoffends, _, hexplains⟩ := ofExpr_eq_error_iff.1 h
    rcases hexplains with ⟨_, herror⟩ | ⟨hfinite, herror⟩
    · exact nomatch herror
    · injection herror with hm hlimit
      subst hm hlimit
      rcases hoffends with hnotFinite | ⟨hkept, hdegree⟩
      · simp [hfinite] at hnotFinite
      · exact ⟨rfl, t.2, ht, hkept, hdegree⟩

/-- A small constant, a small cube, and two terms that offend. The first of these has a
finite coefficient and too high a degree, the second is linear. -/
def ofTwoOffenders : Expr Float where
  terms :=
    { entries :=
        [(1, -0.25), (⟨[⟨"x"⟩, ⟨"x"⟩, ⟨"x"⟩], by decide⟩, 0.5),
          (⟨[⟨"x"⟩, ⟨"x"⟩, ⟨"y"⟩], by decide⟩, 2.0), (.single ⟨"y"⟩, ExtendedScalar.infinity)]
      sorted := by decide }

/-- With a tolerance of one half the small cube is passed over; with an infinite one both
cubes are, and the infinite coefficient is still refused. -/
theorem refused_iff_offends_ofTwoOffenders :
    ofExpr ofTwoOffenders (.light (some 0.5) none) =
      .error (.degreeTooHigh ⟨[⟨"x"⟩, ⟨"x"⟩, ⟨"y"⟩], by decide⟩ 2) ∧
    ofExpr ofTwoOffenders (.light (some ExtendedScalar.infinity) none) =
      .error (.invalidCoefficient ExtendedScalar.infinity) ∧
    ∃ c : Float, (⟨[⟨"x"⟩, ⟨"x"⟩, ⟨"y"⟩], by decide⟩, c) ∈ ofTwoOffenders.terms.entries ∧
      LowerConfig.drops (.light (some 0.5) none) c = false := by
  have hcube : ofExpr ofTwoOffenders (.light (some 0.5) none) =
      .error (.degreeTooHigh ⟨[⟨"x"⟩, ⟨"x"⟩, ⟨"y"⟩], by decide⟩ 2) := by rfl
  have hinfinite : ofExpr ofTwoOffenders (.light (some ExtendedScalar.infinity) none) =
      .error (.invalidCoefficient ExtendedScalar.infinity) := by rfl
  obtain ⟨_, c, hc, hkept, _⟩ :=
    (refused_iff_offends ofTwoOffenders (.light (some 0.5) none)).2.2 _ _ hcube
  exact ⟨hcube, hinfinite, c, hc, hkept⟩

end Lowered

end PolyRow
