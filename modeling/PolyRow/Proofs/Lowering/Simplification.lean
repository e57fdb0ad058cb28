import PolyRow.Proofs.Double.Arithmetic
import PolyRow.Proofs.Lowering.Refusal

/-!
# Simplification

Light simplification drops terms while they are lowered. It does what filtering first and
lowering everything would do, failures included: a dropped term is passed over before its
degree is looked at, and a coefficient that is not finite is refused either way. What is
lost is small. Under exact arithmetic the value changes by the dropped terms only, and
each of these is within the tolerance times its monomial.

## Main results

* `Lowered.ofExpr_light`: simplification is filtering, over all scalars.
* `Lowered.ofExpr_light_eq_ofExpr_filtered`: the same for doubles, where an unset
  tolerance stands for pruning.
* `Terms.abs_entriesValue_le`: terms with small coefficients have a small value.
* `Lowered.evaluate_sub_lowered_le`: what simplification does to the value.
-/

namespace PolyRow

/-! ## Filtering first -/

section Filtering

variable {κ : Type} [Scalar κ]

namespace LowerConfig

/-- Nothing is dropped. -/
def full (maxDegree : Option Nat) : LowerConfig κ :=
  { simplify := some .none, maxDegree }

theorem drops_full (maxDegree : Option Nat) (c : κ) : drops (full maxDegree) c = false := rfl

end LowerConfig

/-- Whether a coefficient is a number within the tolerance; zero stands for a tolerance
that is not set. -/
def negligible (tolerance : Option κ) (c : κ) : Bool :=
  Scalar.isFinite c && decide (Scalar.abs c ≤ tolerance.getD 0)

/-- The expression without the terms that have a negligible coefficient, between the same
bounds. -/
def Expr.withoutNegligible (e : Expr κ) (tolerance : Option κ) : Expr κ :=
  { e with terms := e.terms.filter fun t => !negligible tolerance t.2 }

namespace Lowered

/-- A light step passes a negligible term over, and deals with every other term as
if nothing was dropped. -/
theorem step_light (tolerance : Option κ) (maxDegree : Option Nat) (l : Lowered κ)
    (t : Monomial × κ) :
    step (.light tolerance maxDegree) l t =
      if negligible tolerance t.2 then .ok l else step (.full maxDegree) l t := by
  unfold step negligible
  rw [LowerConfig.drops_light, LowerConfig.drops_full]
  by_cases hfinite : Scalar.isFinite t.2 = true
  · by_cases hle : Scalar.abs t.2 ≤ tolerance.getD 0
    · simp [hfinite, hle]
    · simp only [hfinite, hle, decide_false, Bool.and_false, Bool.false_eq_true, if_false]
      -- What is left looks at the degree, and both settings accept the same degrees.
      rfl
  · simp [hfinite]

/-- A light run over some terms is a full run over those that are not negligible. -/
theorem foldlM_step_light (tolerance : Option κ) (maxDegree : Option Nat)
    (ts : List (Monomial × κ)) (l : Lowered κ) :
    ts.foldlM (step (.light tolerance maxDegree)) l =
      (ts.filter fun t => !negligible tolerance t.2).foldlM (step (.full maxDegree)) l := by
  induction ts generalizing l with
  | nil => rfl
  | cons t rest ih =>
      rw [List.foldlM_cons, step_light]
      by_cases hnegligible : negligible tolerance t.2 = true
      · -- The light run goes on with what it has, and the full run never meets the term.
        rw [if_pos hnegligible, List.filter_cons_of_neg (by simp [hnegligible]), ← ih]
        rfl
      · rw [if_neg hnegligible, List.filter_cons_of_pos (by simp [hnegligible]),
          List.foldlM_cons]
        exact congrArg _ (funext ih)

/-- **Simplification is filtering first.** -/
theorem ofExpr_light (e : Expr κ) (tolerance : Option κ) (maxDegree : Option Nat) :
    ofExpr e (.light tolerance maxDegree) =
      ofExpr (e.withoutNegligible tolerance) (.full maxDegree) := by
  rw [ofExpr_eq_foldlM, ofExpr_eq_foldlM]
  exact foldlM_step_light tolerance maxDegree e.terms.entries { constant := 0 }

end Lowered

end Filtering

/-- Zero is the only number whose magnitude is at most zero. -/
theorem ExtendedRat.negligible_none (a : ExtendedRat) : negligible none a = (a == 0) := by
  cases a with
  | finite q =>
      have hiff : finite |q| ≤ finite 0 ↔ q = 0 := finite_le_finite.trans abs_nonpos_iff
      show (true && decide (finite |q| ≤ finite 0)) = ExtendedRat.beq (finite q) (finite 0)
      simp [hiff, ExtendedRat.beq]
  | infinity => rfl
  | negInfinity => rfl
  | undefined => rfl

/-- Without a tolerance the negligible doubles are the two zeros. -/
theorem Double.negligible_none (x : Float) : negligible none x = (x == 0) := by
  have hnumber : negligible none x = negligible none (number x) := by
    have hfinite := isFinite_iff.trans (ExtendedRat.isFinite_iff (a := number x)).symm
    have hle : Scalar.abs x ≤ 0 ↔ Scalar.abs (number x) ≤ 0 := by
      rw [le_iff_number, number_abs, number_zero]
      rfl
    unfold negligible
    rw [Bool.eq_iff_iff, Bool.and_eq_true, Bool.and_eq_true, decide_eq_true_iff,
      decide_eq_true_iff]
    exact and_congr hfinite hle
  rw [hnumber, ExtendedRat.negligible_none, Bool.eq_iff_iff, beq_iff_number, number_zero]
  rfl

/-- Terms that count as zero when no tolerance is set are those that pruning removes. -/
theorem Expr.withoutNegligible_none (e : Expr Float) : e.withoutNegligible none = e.pruned := by
  unfold withoutNegligible pruned
  simp only [Double.negligible_none]
  rfl

namespace Lowered

/-- **Light simplification of doubles gives the same result as filtering first**, with the
same error if there is one. A coefficient that is infinite or undefined is never filtered
out, whatever the tolerance is. Without a tolerance the filter is pruning. -/
theorem ofExpr_light_eq_ofExpr_filtered (e : Expr Float) (tolerance : Option Float)
    (maxDegree : Option Nat) :
    ofExpr e (.light tolerance maxDegree) =
      ofExpr (e.withoutNegligible tolerance) (.full maxDegree) ∧
    ofExpr e (.light none maxDegree) = ofExpr e.pruned (.full maxDegree) := by
  constructor
  · exact ofExpr_light e tolerance maxDegree
  · rw [← Expr.withoutNegligible_none]
    exact ofExpr_light e none maxDegree

end Lowered

/-! ## The error of simplification -/

/-- The stored terms that are dropped. -/
def Expr.dropped {κ : Type} [Scalar κ] (e : Expr κ) (config : LowerConfig κ) :
    List (Monomial × κ) :=
  e.terms.entries.filter fun t => config.drops t.2

/-- The magnitudes that the dropped monomials have at a point, added up. The empty
product has magnitude one. -/
def Expr.droppedMagnitude (e : Expr Rat) (config : LowerConfig Rat) (v : Variable → Rat) :
    Rat :=
  ((e.dropped config).map fun t => |t.1.value v|).sum

namespace Terms

variable (v : Variable → Rat)

/-- The value of a list of terms is that of the terms that are kept and of those that are
dropped. -/
theorem entriesValue_filter_add (drops : Monomial × Rat → Bool) (ts : List (Monomial × Rat)) :
    entriesValue v (ts.filter fun t => !drops t) + entriesValue v (ts.filter drops) =
      entriesValue v ts := by
  have hperm := List.filter_append_perm drops ts
  rw [add_comm, ← entriesValue_append]
  exact (hperm.map _).sum_eq

/-- **Terms with small coefficients have a small value.** Each term is at most the
tolerance times the magnitude of its monomial. -/
theorem abs_entriesValue_le {tolerance : Rat} {ts : List (Monomial × Rat)}
    (h : ∀ t ∈ ts, |t.2| ≤ tolerance) :
    |entriesValue v ts| ≤ tolerance * (ts.map fun t => |t.1.value v|).sum := by
  induction ts with
  | nil => simp
  | cons t rest ih =>
      have hrest := ih fun u hu => h u (List.mem_cons_of_mem t hu)
      have hfirst : |t.2| * |t.1.value v| ≤ tolerance * |t.1.value v| :=
        mul_le_mul_of_nonneg_right (h t List.mem_cons_self) (abs_nonneg _)
      rw [entriesValue_cons, List.map_cons, List.sum_cons]
      calc |t.2 * t.1.value v + entriesValue v rest|
          ≤ |t.2 * t.1.value v| + |entriesValue v rest| := abs_add_le _ _
        _ = |t.2| * |t.1.value v| + |entriesValue v rest| := by rw [abs_mul]
        _ ≤ tolerance * |t.1.value v| +
              tolerance * (rest.map fun u => |u.1.value v|).sum := add_le_add hfirst hrest
        _ = tolerance * (|t.1.value v| + (rest.map fun u => |u.1.value v|).sum) := by ring

end Terms

/-- A rational coefficient is dropped by light simplification if its magnitude is within
the tolerance. -/
theorem LowerConfig.drops_light_iff {tolerance c : Rat} {maxDegree : Option Nat} :
    drops (light (some tolerance) maxDegree) c = true ↔ |c| ≤ tolerance := by
  have habs : Scalar.abs c = |c| := by
    rcases le_total 0 c with h | h
    · exact (Rat.abs_of_nonneg h).trans (abs_of_nonneg h).symm
    · exact (Rat.abs_of_nonpos h).trans (abs_of_nonpos h).symm
  rw [drops_light, decide_eq_true_iff, habs]
  rfl

/-- When an objective row comes out: the terms are lowered. -/
theorem ObjectiveRow.ofExpr_eq_ok_iff {κ : Type} [Scalar κ] {e : Expr κ} {sense : Sense}
    {config : LowerConfig κ} {row : ObjectiveRow κ} :
    ofExpr e sense config = .ok row ↔
      ∃ terms, Lowered.ofExpr e config = .ok terms ∧ { sense, terms } = row := by
  unfold ofExpr
  cases Lowered.ofExpr e config with
  | error error => simp [Except.map]
  | ok terms => simp [Except.map]

namespace Lowered

/-- What is lost is the value of the dropped terms. -/
theorem value_sub_lowered {e : Expr Rat} {config : LowerConfig Rat} {l : Lowered Rat}
    (h : ofExpr e config = .ok l) (v : Variable → Rat) :
    e.value v - (l.constant + l.partsSum v) = Terms.entriesValue v (e.dropped config) := by
  obtain ⟨_, rfl⟩ := ofExpr_eq_ok_iff.1 h
  rw [constant_add_partsSum]
  have hsplit := Terms.entriesValue_filter_add v (fun t => config.drops t.2) e.terms.entries
  show Terms.entriesValue v e.terms.entries - _ = _
  rw [← hsplit, add_sub_cancel_left]
  rfl

/-- **The error of light simplification.** An expression that is lowered with a tolerance
keeps its value up to the tolerance times the magnitudes of the dropped monomials, and so
does the objective row made of it. The constant can be among what is dropped. -/
theorem evaluate_sub_lowered_le (e : Expr Rat) (tolerance : Rat) (maxDegree : Option Nat)
    (v : Variable → Rat) (f : Variable → Option Rat)
    (hf : ∀ x ∈ e.variableList, f x = some (v x)) :
    ∃ value, e.evaluate f = .ok value ∧
      (∀ l, ofExpr e (.light (some tolerance) maxDegree) = .ok l →
        |value - (l.constant + l.partsSum v)| ≤
          tolerance * e.droppedMagnitude (.light (some tolerance) maxDegree) v) ∧
      ∀ sense row, ObjectiveRow.ofExpr e sense (.light (some tolerance) maxDegree) = .ok row →
        |value - (row.offset + row.terms.partsSum v)| ≤
          tolerance * e.droppedMagnitude (.light (some tolerance) maxDegree) v := by
  have hsmall : ∀ t ∈ e.dropped (.light (some tolerance) maxDegree), |t.2| ≤ tolerance := by
    intro t ht
    exact LowerConfig.drops_light_iff.1 (List.mem_filter.1 ht).2
  have hlowered (l : Lowered Rat) (h : ofExpr e (.light (some tolerance) maxDegree) = .ok l) :
      |e.value v - (l.constant + l.partsSum v)| ≤
        tolerance * e.droppedMagnitude (.light (some tolerance) maxDegree) v := by
    rw [value_sub_lowered h]
    exact Terms.abs_entriesValue_le v hsmall
  refine ⟨e.value v, Expr.evaluate_eq_value v (Expr.covers_iff.2 hf), hlowered, ?_⟩
  intro sense row hrow
  obtain ⟨l, hl, rfl⟩ := ObjectiveRow.ofExpr_eq_ok_iff.1 hrow
  exact hlowered l hl

/-- `1/4 + 2 * x - 1/2 * x * y * y`. -/
def withSmallCube : Expr Rat where
  terms :=
    { entries :=
        [(1, 1 / 4), (.single ⟨"x"⟩, 2), (⟨[⟨"x"⟩, ⟨"y"⟩, ⟨"y"⟩], by decide⟩, -1 / 2)]
      sorted := by decide }

/-- `2 * x`, lowered. -/
def twiceX : Lowered Rat where
  constant := 0
  linear := [(⟨"x"⟩, 2)]

/-- Three at `x`, minus one everywhere else. -/
def threeAtX (z : Variable) : Rat := if z = ⟨"x"⟩ then 3 else -1

/-- The constant and the cube are dropped, which are 1 and 3 without their
coefficients. -/
theorem evaluate_sub_lowered_le_withSmallCube :
    withSmallCube.evaluate (fun z => some (threeAtX z)) = .ok (19 / 4) ∧
    ofExpr withSmallCube (.light (some (1 / 2)) none) = .ok twiceX ∧
    |19 / 4 - (twiceX.constant + twiceX.partsSum threeAtX)| ≤ 1 / 2 * (1 + 3) := by
  have hevaluate : withSmallCube.evaluate (fun z => some (threeAtX z)) = .ok (19 / 4) := by
    decide +kernel
  have hlowered : ofExpr withSmallCube (.light (some (1 / 2)) none) = .ok twiceX := by
    decide +kernel
  have hmagnitude : withSmallCube.droppedMagnitude (.light (some (1 / 2)) none) threeAtX =
      1 + 3 := by
    decide +kernel
  obtain ⟨value, hvalue, hbound, _⟩ :=
    evaluate_sub_lowered_le withSmallCube (1 / 2) none threeAtX _ fun _ _ => rfl
  rw [hevaluate] at hvalue
  obtain rfl := Except.ok.inj hvalue
  rw [hmagnitude] at hbound
  exact ⟨hevaluate, hlowered, hbound twiceX hlowered⟩

end Lowered

end PolyRow
