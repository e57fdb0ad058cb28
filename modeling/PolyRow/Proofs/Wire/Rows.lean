import Mathlib
import PolyRow.Json.Writer
import PolyRow.Proofs.Lowering.Overflow
import PolyRow.Proofs.Lowering.Partition
import PolyRow.Proofs.Wire.RoundTrip

/-!
# Rows on the wire

The bounds of a row mark a side without a bound by an infinity, and JSON has no
infinity: both sides of free bounds are written as `null`. The reader of bounds
takes numbers only, so bounds with an unset side do not come back. A reader of rows
would not know better: which infinity a `null` was is told by the other side alone,
and rows that have no finite side at all are written alike.

All else of a row is told apart. Coefficients of a row are finite, and so they are
written as numbers.

## Main results

* `Bounds.ofJson?_toJson`: what comes back of bounds.
* `Bounds.read_back_iff_set`: valid bounds come back if both sides are set.
* `Lowered.agrees_toJson`: lowered terms are written alike if they are equal.
* `ConstraintRow.toJson_agrees_iff`: the rows that are written alike.
-/

namespace PolyRow

/-- Equal doubles are both finite, or none of them is. -/
theorem Double.isFinite_eq_of_beq {x y : Float} (h : (x == y) = true) :
    Scalar.isFinite x = Scalar.isFinite y := by
  rcases Float.beq_iff_ne_nan_and_eq.1 h with ⟨_, _, rfl | ⟨rfl, rfl⟩ | ⟨rfl, rfl⟩⟩
  · rfl
  · rfl
  · rfl

theorem Double.beq_infinity_iff {x : Float} :
    (x == ExtendedScalar.infinity) = true ↔ Double.number x = .infinity := by
  rw [Double.beq_iff_number, Double.number_infinity, ExtendedRat.beq_iff_compare]
  cases Double.number x <;> simp [ExtendedRat.compare]

theorem Double.beq_negInfinity_iff {x : Float} :
    (x == -ExtendedScalar.infinity) = true ↔ Double.number x = .negInfinity := by
  have hnumber : Double.number (-ExtendedScalar.infinity) = .negInfinity := by
    rw [Double.number_neg, Double.number_infinity]
    rfl
  rw [Double.beq_iff_number, hnumber, ExtendedRat.beq_iff_compare]
  cases Double.number x <;> simp [ExtendedRat.compare]

/-! ## Equality of trees -/

namespace Json

mutual

/-- Equality of trees. Numbers are compared as doubles, and members of objects in
their order. -/
def agrees : Json → Json → Bool
  | .null, .null => true
  | .bool a, .bool b => a == b
  | .number m, .number n => m.toFloat == n.toFloat
  | .string s, .string t => s == t
  | .array xs, .array ys => itemsAgree xs ys
  | .object ms, .object ns => membersAgree ms ns
  | _, _ => false

/-- Equality of the items of arrays. -/
def itemsAgree : List Json → List Json → Bool
  | [], [] => true
  | x :: xs, y :: ys => x.agrees y && itemsAgree xs ys
  | _, _ => false

/-- Equality of the members of objects. -/
def membersAgree : List (String × Json) → List (String × Json) → Bool
  | [], [] => true
  | (k, x) :: ms, (l, y) :: ns => k == l && x.agrees y && membersAgree ms ns
  | _, _ => false

end

/-- Doubles are written alike if they are equal, or neither of them is finite. -/
theorem agrees_ofFloat (x y : Float) :
    (ofFloat x).agrees (ofFloat y) = true ↔
      (x == y) = true ∨ Scalar.isFinite x = false ∧ Scalar.isFinite y = false := by
  have hwritten : (ofFloat x).agrees (ofFloat y) =
      (if x.isFinite = true then number (.double x) else null).agrees
        (if y.isFinite = true then number (.double y) else null) := rfl
  have hequal : (x == y) = true → x.isFinite = y.isFinite := Double.isFinite_eq_of_beq
  show _ ↔ (x == y) = true ∨ x.isFinite = false ∧ y.isFinite = false
  rw [hwritten]
  cases hx : x.isFinite with
  | true =>
      cases hy : y.isFinite with
      | true => simp [agrees, Number.toFloat]
      | false =>
          rw [hx, hy] at hequal
          simpa [agrees] using hequal
  | false =>
      cases hy : y.isFinite with
      | true =>
          rw [hx, hy] at hequal
          simpa [agrees] using hequal
      | false => simp [agrees]

theorem agrees_ofFloat_of_isFinite {x y : Float} (hx : Scalar.isFinite x = true) :
    (ofFloat x).agrees (ofFloat y) = (x == y) := by
  rw [Bool.eq_iff_iff, agrees_ofFloat, hx]
  simp

/-- Lists of items are written alike if they are equal, provided that their items are. -/
theorem itemsAgree_map {α : Type} [BEq α] {f : α → Json} {xs ys : List α}
    (h : ∀ x ∈ xs, ∀ y ∈ ys, (f x).agrees (f y) = (x == y)) :
    itemsAgree (xs.map f) (ys.map f) = (xs == ys) := by
  induction xs generalizing ys with
  | nil => cases ys <;> rfl
  | cons x xs ih =>
      cases ys with
      | nil => rfl
      | cons y ys =>
          have hrest := ih fun a ha b hb =>
            h a (List.mem_cons_of_mem x ha) b (List.mem_cons_of_mem y hb)
          show ((f x).agrees (f y) && itemsAgree (xs.map f) (ys.map f)) = (x == y && xs == ys)
          rw [h x List.mem_cons_self y List.mem_cons_self, hrest]

end Json

/-! ## Equality of rows -/

/-- Equality of the parts: the same terms in the same order, numerically equal
coefficients. -/
def Lowered.equal {κ : Type} [Scalar κ] (l k : Lowered κ) : Bool :=
  l.constant == k.constant && l.linear == k.linear && l.bilinear == k.bilinear &&
    l.higher == k.higher

/-- Numerical equality of both sides. -/
def Bounds.equal {κ : Type} [Scalar κ] (b c : Bounds κ) : Bool :=
  b.lower == c.lower && b.upper == c.upper

/-- Equality of terms and bounds. -/
def ConstraintRow.equal {κ : Type} [Scalar κ] (r s : ConstraintRow κ) : Bool :=
  r.terms.equal s.terms && r.bounds.equal s.bounds

/-! ## Terms -/

theorem Variable.agrees_toJson (x y : Variable) : x.toJson.agrees y.toJson = (x == y) := by
  show (x.name == y.name) = (x == y)
  rw [Bool.eq_iff_iff, beq_iff_eq, beq_iff_eq]
  exact ⟨fun h => by cases x; cases y; exact congrArg Variable.mk h, congrArg Variable.name⟩

theorem Monomial.agrees_toJson (m n : Monomial) : m.toJson.agrees n.toJson = (m == n) := by
  have hfactors : m.toJson.agrees n.toJson = (m.factors == n.factors) :=
    Json.itemsAgree_map fun x _ y _ => x.agrees_toJson y
  rw [hfactors, Bool.eq_iff_iff, beq_iff_eq, beq_iff_eq]
  exact ⟨ext, congrArg factors⟩

theorem agrees_termToJson {s : Monomial × Float} (hs : Scalar.isFinite s.2 = true)
    (t : Monomial × Float) : (termToJson s).agrees (termToJson t) = (s == t) := by
  show (s.1.toJson.agrees t.1.toJson && ((Json.ofFloat s.2).agrees (.ofFloat t.2) && true)) =
    (s.1 == t.1 && s.2 == t.2)
  rw [Monomial.agrees_toJson, Json.agrees_ofFloat_of_isFinite hs, Bool.and_true]

/-- How a term of degree one is written. -/
def linearTermToJson (t : Variable × Float) : Json := .array [t.1.toJson, .ofFloat t.2]

/-- How a term of degree two is written. -/
def bilinearTermToJson (t : Variable × Variable × Float) : Json :=
  .array [t.1.toJson, t.2.1.toJson, .ofFloat t.2.2]

theorem agrees_linearTermToJson {s : Variable × Float} (hs : Scalar.isFinite s.2 = true)
    (t : Variable × Float) : (linearTermToJson s).agrees (linearTermToJson t) = (s == t) := by
  show (s.1.toJson.agrees t.1.toJson && ((Json.ofFloat s.2).agrees (.ofFloat t.2) && true)) =
    (s.1 == t.1 && s.2 == t.2)
  rw [Variable.agrees_toJson, Json.agrees_ofFloat_of_isFinite hs, Bool.and_true]

theorem agrees_bilinearTermToJson {s : Variable × Variable × Float}
    (hs : Scalar.isFinite s.2.2 = true) (t : Variable × Variable × Float) :
    (bilinearTermToJson s).agrees (bilinearTermToJson t) = (s == t) := by
  show (s.1.toJson.agrees t.1.toJson && (s.2.1.toJson.agrees t.2.1.toJson &&
      ((Json.ofFloat s.2.2).agrees (.ofFloat t.2.2) && true))) =
    (s.1 == t.1 && (s.2.1 == t.2.1 && s.2.2 == t.2.2))
  rw [Variable.agrees_toJson, Variable.agrees_toJson, Json.agrees_ofFloat_of_isFinite hs,
    Bool.and_true]

/-- **Lowered terms are written alike if they are equal**, the coefficients of one of
them being finite. -/
theorem Lowered.agrees_toJson {l : Lowered Float}
    (hl : ∀ t ∈ l.entries, Scalar.isFinite t.2 = true) (k : Lowered Float) :
    l.toJson.agrees k.toJson = l.equal k := by
  obtain ⟨hconstant, hrest⟩ := List.forall_mem_cons.1 hl
  obtain ⟨hlinear, hrest⟩ := List.forall_mem_append.1 hrest
  obtain ⟨hbilinear, hhigher⟩ := List.forall_mem_append.1 hrest
  have hconstantItem : (Json.ofFloat l.constant).agrees (.ofFloat k.constant) =
      (l.constant == k.constant) := Json.agrees_ofFloat_of_isFinite hconstant
  have hlinearItems : Json.itemsAgree (l.linear.map linearTermToJson)
      (k.linear.map linearTermToJson) = (l.linear == k.linear) :=
    Json.itemsAgree_map fun s hs t _ =>
      agrees_linearTermToJson (hlinear (linearEntry s) (List.mem_map_of_mem hs)) t
  have hbilinearItems : Json.itemsAgree (l.bilinear.map bilinearTermToJson)
      (k.bilinear.map bilinearTermToJson) = (l.bilinear == k.bilinear) :=
    Json.itemsAgree_map fun s hs t _ =>
      agrees_bilinearTermToJson (hbilinear (bilinearEntry s) (List.mem_map_of_mem hs)) t
  have hhigherItems : Json.itemsAgree (l.higher.map termToJson) (k.higher.map termToJson) =
      (l.higher == k.higher) :=
    Json.itemsAgree_map fun s hs t _ => agrees_termToJson (hhigher s hs) t
  have hwritten : l.toJson.agrees k.toJson =
      ((Json.ofFloat l.constant).agrees (.ofFloat k.constant) &&
        (Json.itemsAgree (l.linear.map linearTermToJson) (k.linear.map linearTermToJson) &&
          (Json.itemsAgree (l.bilinear.map bilinearTermToJson)
              (k.bilinear.map bilinearTermToJson) &&
            (Json.itemsAgree (l.higher.map termToJson) (k.higher.map termToJson) && true)))) :=
    rfl
  rw [hwritten, hconstantItem, hlinearItems, hbilinearItems, hhigherItems, Bool.and_true]
  unfold equal
  rw [Bool.and_assoc, Bool.and_assoc]

/-! ## Bounds -/

namespace Bounds

/-- Whether a side is marked as being without a bound. -/
def hasUnsetSide (b : Bounds Float) : Bool :=
  b.lower == -ExtendedScalar.infinity || b.upper == ExtendedScalar.infinity

/-- Whether a side is a number proper. -/
def hasFiniteSide (b : Bounds Float) : Bool :=
  Scalar.isFinite b.lower || Scalar.isFinite b.upper

/-- **What comes back of bounds**: both sides have to be finite. -/
theorem ofJson?_toJson (b : Bounds Float) :
    ofJson? b.toJson =
      if (Scalar.isFinite b.lower && Scalar.isFinite b.upper) = true then some b else none := by
  show (do
    let lower ← (Json.ofFloat b.lower).toFloat?
    let upper ← (Json.ofFloat b.upper).toFloat?
    return (⟨lower, upper⟩ : Bounds Float)) = _
  rw [Json.toFloat?_ofFloat, Json.toFloat?_ofFloat]
  cases Scalar.isFinite b.lower <;> cases Scalar.isFinite b.upper <;> rfl

private theorem isFinite_iff_of_le {x y : Float} (h : x ≤ y) :
    (Scalar.isFinite x = true ∧ Scalar.isFinite y = true) ↔
      Double.number x ≠ .negInfinity ∧ Double.number y ≠ .infinity := by
  have hle := Double.le_iff_number.1 h
  rw [ExtendedRat.le_iff] at hle
  rw [Double.isFinite_iff, Double.isFinite_iff]
  generalize Double.number x = a at hle ⊢
  generalize Double.number y = c at hle ⊢
  cases a <;> cases c <;> simp_all [ExtendedRat.le]

/-- Valid bounds have a side that is not finite only if a side is unset. -/
theorem hasUnsetSide_of_isValid {b : Bounds Float} (h : b.isValid = true) :
    b.hasUnsetSide = !(Scalar.isFinite b.lower && Scalar.isFinite b.upper) := by
  have hlower : (b.lower == -ExtendedScalar.infinity) = true ↔
      Double.number b.lower = .negInfinity := Double.beq_negInfinity_iff
  have hupper : (b.upper == ExtendedScalar.infinity) = true ↔
      Double.number b.upper = .infinity := Double.beq_infinity_iff
  have hfinite := isFinite_iff_of_le (of_decide_eq_true h)
  unfold hasUnsetSide
  rw [Bool.eq_iff_iff, Bool.or_eq_true, hlower, hupper, Bool.not_eq_true', ← Bool.not_eq_true,
    Bool.and_eq_true, hfinite, not_and_or, not_ne_iff, not_ne_iff]

/-- **Valid bounds come back if and only if neither side is unset**, and then as they
were. -/
theorem read_back_iff_set {b : Bounds Float} (h : b.isValid = true) :
    ofJson? b.toJson = if b.hasUnsetSide = true then none else some b := by
  rw [ofJson?_toJson, hasUnsetSide_of_isValid h]
  cases Scalar.isFinite b.lower <;> cases Scalar.isFinite b.upper <;> rfl

/-- At least -2 and at most 5. -/
def twoSided : Bounds Float := ⟨-2.0, 5.0⟩

/-- At most 5. -/
def oneSided : Bounds Float := .ofOptions none (some 5.0)

theorem read_back_iff_set_twoSided :
    twoSided.isValid = true ∧ twoSided.hasUnsetSide = false ∧
      ofJson? twoSided.toJson = some twoSided ∧
      oneSided.isValid = true ∧ ofJson? oneSided.toJson = none := by
  have htwo : twoSided.isValid = true := by decide
  have hone : oneSided.isValid = true := by decide
  exact ⟨htwo, by decide, read_back_iff_set htwo, hone, read_back_iff_set hone⟩

/-- Bounds with one side, and bounds with none, are valid and do not come back, neither
from the tree nor from the text. -/
theorem not_read_back_oneSided :
    (oneSided.isValid = true ∧ ofJson? oneSided.toJson = none ∧
      oneSided.toJson.text = "\x7b\"lower\":null,\"upper\":5.0\x7d" ∧
      ofText? oneSided.toJson.text = none) ∧
    (free : Bounds Float).isValid = true ∧ ofJson? (free : Bounds Float).toJson = none := by
  have htext : oneSided.toJson.text = "\x7b\"lower\":null,\"upper\":5.0\x7d" := by
    decide +kernel
  have hread : ofText? "\x7b\"lower\":null,\"upper\":5.0\x7d" = none := by decide +kernel
  refine ⟨⟨by decide, ?_, htext, ?_⟩, by decide, ?_⟩
  · rw [ofJson?_toJson]
    rfl
  · rw [htext, hread]
  · rw [ofJson?_toJson]
    rfl

/-- Below a finite side a side that is not finite is unset. -/
private theorem lower_beq_of_isValid {b : Bounds Float} (h : b.isValid = true)
    (hlower : Scalar.isFinite b.lower = false) (hupper : Scalar.isFinite b.upper = true) :
    (b.lower == -ExtendedScalar.infinity) = true := by
  have hunset := hasUnsetSide_of_isValid h
  rw [hlower] at hunset
  rcases Bool.or_eq_true_iff.1 hunset with hequal | hequal
  · exact hequal
  · exact absurd (hupper.symm.trans (Double.isFinite_eq_of_beq hequal)) (by decide)

/-- Above a finite side likewise. -/
private theorem upper_beq_of_isValid {b : Bounds Float} (h : b.isValid = true)
    (hlower : Scalar.isFinite b.lower = true) (hupper : Scalar.isFinite b.upper = false) :
    (b.upper == ExtendedScalar.infinity) = true := by
  have hunset := hasUnsetSide_of_isValid h
  rw [hupper, Bool.and_false] at hunset
  rcases Bool.or_eq_true_iff.1 hunset with hequal | hequal
  · exact absurd (hlower.symm.trans (Double.isFinite_eq_of_beq hequal)) (by decide)
  · exact hequal

/-- **Valid bounds are written alike** if they are equal, or if neither of the two has
a finite side. -/
theorem agrees_toJson_iff {b c : Bounds Float} (hb : b.isValid = true) (hc : c.isValid = true) :
    b.toJson.agrees c.toJson = true ↔
      b.equal c = true ∨ b.hasFiniteSide = false ∧ c.hasFiniteSide = false := by
  have hwritten : b.toJson.agrees c.toJson =
      ((Json.ofFloat b.lower).agrees (.ofFloat c.lower) &&
        ((Json.ofFloat b.upper).agrees (.ofFloat c.upper) && true)) := rfl
  rw [hwritten, Bool.and_true, Bool.and_eq_true, Json.agrees_ofFloat, Json.agrees_ofFloat]
  unfold equal hasFiniteSide
  rw [Bool.and_eq_true, Bool.or_eq_false_iff, Bool.or_eq_false_iff]
  constructor
  · rintro ⟨hlower | ⟨hbLower, hcLower⟩, hupper | ⟨hbUpper, hcUpper⟩⟩
    · exact .inl ⟨hlower, hupper⟩
    · have hsame := Double.isFinite_eq_of_beq hlower
      cases hfinite : Scalar.isFinite b.lower with
      | true =>
          have hbUnset := upper_beq_of_isValid hb hfinite hbUpper
          have hcUnset := upper_beq_of_isValid hc (hsame.symm.trans hfinite) hcUpper
          exact .inl ⟨hlower, BEq.trans hbUnset (BEq.symm hcUnset)⟩
      | false => exact .inr ⟨⟨rfl, hbUpper⟩, hsame.symm.trans hfinite, hcUpper⟩
    · have hsame := Double.isFinite_eq_of_beq hupper
      cases hfinite : Scalar.isFinite b.upper with
      | true =>
          have hbUnset := lower_beq_of_isValid hb hbLower hfinite
          have hcUnset := lower_beq_of_isValid hc hcLower (hsame.symm.trans hfinite)
          exact .inl ⟨BEq.trans hbUnset (BEq.symm hcUnset), hupper⟩
      | false => exact .inr ⟨⟨hbLower, rfl⟩, hcLower, hsame.symm.trans hfinite⟩
    · exact .inr ⟨⟨hbLower, hbUpper⟩, hcLower, hcUpper⟩
  · rintro (⟨hlower, hupper⟩ | ⟨⟨hbLower, hbUpper⟩, hcLower, hcUpper⟩)
    · exact ⟨.inl hlower, .inl hupper⟩
    · exact ⟨.inr ⟨hbLower, hcLower⟩, .inr ⟨hbUpper, hcUpper⟩⟩

end Bounds

/-! ## Rows -/

namespace ConstraintRow

variable {e : Expr Float} {config : LowerConfig Float} {row : ConstraintRow Float}

theorem isFinite_entries_of_ofExpr (h : ofExpr e config = .ok row) :
    ∀ t ∈ row.terms.entries, Scalar.isFinite t.2 = true := by
  obtain ⟨l, hl, _, rfl⟩ := ofExpr_eq_ok_iff.1 h
  have hzero : Scalar.isFinite (0 : Float) = true := by decide
  have hparts := (List.forall_mem_cons.1 (Lowered.isFinite_entries hl)).2
  exact List.forall_mem_cons.2 ⟨hzero, hparts⟩

theorem isValid_of_ofExpr (h : ofExpr e config = .ok row) : row.bounds.isValid = true := by
  obtain ⟨l, _, hvalid, rfl⟩ := ofExpr_eq_ok_iff.1 h
  exact hvalid

/-- **The rows that are written alike** have equal terms, and equal bounds unless none
of their sides is finite. -/
theorem toJson_agrees_iff {e' : Expr Float} {config' : LowerConfig Float}
    {row' : ConstraintRow Float} (h : ofExpr e config = .ok row)
    (h' : ofExpr e' config' = .ok row') :
    row.toJson.agrees row'.toJson = true ↔
      row.terms.equal row'.terms = true ∧
        (row.bounds.equal row'.bounds = true ∨
          row.bounds.hasFiniteSide = false ∧ row'.bounds.hasFiniteSide = false) := by
  have hwritten : row.toJson.agrees row'.toJson =
      (row.terms.toJson.agrees row'.terms.toJson &&
        (row.bounds.toJson.agrees row'.bounds.toJson && true)) := rfl
  rw [hwritten, Bool.and_true, Bool.and_eq_true,
    Lowered.agrees_toJson (isFinite_entries_of_ofExpr h),
    Bounds.agrees_toJson_iff (isValid_of_ofExpr h) (isValid_of_ofExpr h')]

/-- `x`, at most the given value. -/
def variableAtMost (bound : Float) : Expr Float where
  terms := { entries := [(.single ⟨"x"⟩, 1.0)], sorted := by decide }
  upper := some bound

theorem toJson_agrees_iff_zeros :
    ∃ row row', ofExpr (variableAtMost 0.0) {} = .ok row ∧
      ofExpr (variableAtMost (-0.0)) {} = .ok row' ∧
      (row.toJson.agrees row'.toJson = true ↔
        row.terms.equal row'.terms = true ∧
          (row.bounds.equal row'.bounds = true ∨
            row.bounds.hasFiniteSide = false ∧ row'.bounds.hasFiniteSide = false)) ∧
      row.toJson.agrees row'.toJson = true := by
  have hpositive : ofExpr (variableAtMost 0.0) {} = .ok
      { terms := { constant := 0, linear := [(⟨"x"⟩, 1.0)] },
        bounds := .ofOptions none (some 0.0) } := by
    rfl
  have hnegative : ofExpr (variableAtMost (-0.0)) {} = .ok
      { terms := { constant := 0, linear := [(⟨"x"⟩, 1.0)] },
        bounds := .ofOptions none (some (-0.0)) } := by
    rfl
  have hiff := toJson_agrees_iff hpositive hnegative
  exact ⟨_, _, hpositive, hnegative, hiff, hiff.2 ⟨by decide, .inl (by decide)⟩⟩

/-! ## Rows that are not told apart -/

/-- `x + 1e308`, at most `-1e308`. -/
def overflowing : Expr Float := aboveTheEnd.withBounds none (some (-large))

/-- `x` without bounds. -/
def unbounded : Expr Float where
  terms := { entries := [(.single ⟨"x"⟩, 1.0)], sorted := by decide }

/-- The row that nothing satisfies, as its bound overflowed, is written like the free
row. -/
theorem exists_rows_not_told_apart :
    (∀ t ∈ overflowing.terms.entries, Scalar.isFinite t.2 = true) ∧
    ∃ row row', ofExpr overflowing {} = .ok row ∧ ofExpr unbounded {} = .ok row' ∧
      row'.bounds.isFree = true ∧ row.bounds.isFree = false ∧ row.equal row' = false ∧
      row.toJson.agrees row'.toJson = true ∧ row.toJson.text = row'.toJson.text := by
  refine ⟨by decide, _, _, rfl, rfl, by decide, by decide, by decide, by decide, ?_⟩
  decide +kernel

end ConstraintRow

end PolyRow
