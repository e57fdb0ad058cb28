import Mathlib
import PolyRow.Proofs.Algebra.Agreement

/-!
# Equality and closeness

Two comparisons of expressions are at hand: equality of the parts, and closeness within
a tolerance. Closeness subtracts before it compares. For finite numbers that are equal
the difference is zero, which is within every tolerance. Equal infinities have no
difference: it is undefined and within no tolerance, not even an infinite one. So equal
expressions are close exactly if all of their numbers are finite, and an expression with
an infinite bound is not close to itself.

## Main results

* `Double.close_iff_isFinite`: equal doubles are close if they are finite.
* `Expr.approxEq_iff_isFinite`: equal expressions are close if all their numbers are
  finite.
* `Expr.exists_not_approxEq_self`: an expression that is not close to itself.
-/

namespace PolyRow

namespace Double

/-- The difference of the doubles is rounded, and then only compared. -/
theorem close_iff_number {t x y : Float} :
    Expr.close t x y = true ↔ Scalar.abs (number (x - y)) ≤ number t := by
  unfold Expr.close
  rw [decide_eq_true_iff, le_iff_number, number_abs]

/-- **Equal doubles are close if they are finite**, within any tolerance. -/
theorem close_iff_isFinite {t x y : Float} (ht : 0 ≤ t) (h : (x == y) = true) :
    Expr.close t x y = true ↔ Scalar.isFinite x = true := by
  have hsame : number x = number y := same_iff.1 (.inl h)
  have htolerance : ExtendedRat.finite 0 ≤ number t := le_iff_number.1 ht
  rw [close_iff_number, number_sub, ← hsame, rounded_sub_self, isFinite_iff,
    ← ExtendedRat.isFinite_iff]
  split_ifs with hfinite
  · have hmagnitude : Scalar.abs (ExtendedRat.finite 0) = .finite 0 :=
      congrArg ExtendedRat.finite abs_zero
    rw [hmagnitude]
    exact iff_of_true htolerance hfinite
  · exact iff_of_false Bool.false_ne_true hfinite

end Double

namespace Expr

/-- Every coefficient and every bound has a property. -/
structure All {κ : Type} (p : κ → Prop) (e : Expr κ) : Prop where
  coefficients : ∀ s ∈ e.terms.entries, p s.2
  lower : ∀ l ∈ e.lower, p l
  upper : ∀ u ∈ e.upper, p u

section Equal

variable {t : Float} {a b : Expr Float}

theorem beq_iff : (a == b) = true ↔
    (a.terms.entries == b.terms.entries) = true ∧ (a.lower == b.lower) = true ∧
      (a.upper == b.upper) = true := by
  show (a.terms.entries == b.terms.entries && a.lower == b.lower && a.upper == b.upper) = true ↔ _
  rw [Bool.and_eq_true, Bool.and_eq_true, and_assoc]

/-- Equal bounds are close if there is none, or if they are finite. -/
private theorem boundsClose_iff (ht : 0 ≤ t) {l l' : Option Float} (h : (l == l') = true) :
    boundsClose t l l' = true ↔ ∀ x ∈ l, Scalar.isFinite x = true := by
  cases l with
  | none =>
      cases l' with
      | none => simp [boundsClose]
      | some y => exact absurd h Bool.false_ne_true
  | some x =>
      cases l' with
      | none => exact absurd h Bool.false_ne_true
      | some y =>
          have hclose := Double.close_iff_isFinite ht h
          simpa [boundsClose] using hclose

/-- Where the entries are equal, the coefficients of a stored monomial are. -/
private theorem close_coefficient_iff (ht : 0 ≤ t)
    (h : List.Forall₂ (EntryRel fun c d => (c == d) = true) a.terms.entries b.terms.entries)
    {s : Monomial × Float} (hs : s ∈ a.terms.entries) :
    close t (a.coefficient s.1) (b.coefficient s.1) = true ↔ Scalar.isFinite s.2 = true := by
  have hleft : a.terms.get? s.1 = some s.2 := Terms.get?_eq_some_iff.2 hs
  have hfound : Option.Rel (fun c d => (c == d) = true) (a.terms.get? s.1) (b.terms.get? s.1) :=
    rel_lookup h s.1
  unfold coefficient get?
  rw [hleft] at hfound ⊢
  generalize b.terms.get? s.1 = d at hfound ⊢
  cases hfound with
  | some hequal => exact Double.close_iff_isFinite ht hequal

/-- Equal expressions store the same monomials, so no coefficient is missing. -/
private theorem coefficientsClose_iff (ht : 0 ≤ t)
    (h : (a.terms.entries == b.terms.entries) = true) :
    ((a.terms.keys ++ b.terms.keys).all
        fun m => close t (a.coefficient m) (b.coefficient m)) = true ↔
      ∀ s ∈ a.terms.entries, Scalar.isFinite s.2 = true := by
  have hentries := beq_iff_forall₂.1 h
  have hkeys : b.terms.keys = a.terms.keys := by
    unfold Terms.keys
    rw [← List.forall₂_eq_eq_eq, List.forall₂_map_left_iff, List.forall₂_map_right_iff]
    exact hentries.flip.imp fun _ _ hst => hst.1.symm
  rw [hkeys, List.all_append, Bool.and_self, List.all_eq_true]
  unfold Terms.keys
  rw [List.forall_mem_map]
  exact forall₂_congr fun s hs => close_coefficient_iff ht hentries hs

/-- Equal expressions are close if all their numbers are finite. -/
theorem approxEq_iff_of_beq (ht : 0 ≤ t) (h : (a == b) = true) :
    a.approxEq b t = true ↔ a.All (Scalar.isFinite · = true) := by
  obtain ⟨hentries, hlower, hupper⟩ := beq_iff.1 h
  unfold approxEq
  rw [Bool.and_eq_true, Bool.and_eq_true, coefficientsClose_iff ht hentries,
    boundsClose_iff ht hlower, boundsClose_iff ht hupper]
  constructor
  · rintro ⟨⟨hcoefficients, hl⟩, hu⟩
    exact ⟨hcoefficients, hl, hu⟩
  · rintro ⟨hcoefficients, hl, hu⟩
    exact ⟨⟨hcoefficients, hl⟩, hu⟩

end Equal

/-- An expression in which nothing is undefined is equal to itself. -/
theorem beq_self {e : Expr Float} (h : e.All (·.isNaN = false)) : (e == e) = true := by
  have hbounds {l : Option Float} (hl : ∀ x ∈ l, x.isNaN = false) : (l == l) = true := by
    cases l with
    | none => rfl
    | some x => exact (Double.same_refl x).beq (hl x rfl)
  refine beq_iff.2 ⟨beq_iff_forall₂.2 (List.forall₂_same.2 fun s hs => ?_), hbounds h.lower,
    hbounds h.upper⟩
  exact ⟨rfl, (Double.same_refl s.2).beq (h.coefficients s hs)⟩

/-- **Equal expressions are close exactly if all their numbers are finite**, and so is an
expression to itself if nothing in it is undefined. The tolerance plays no part. -/
theorem approxEq_iff_isFinite {t : Float} (ht : 0 ≤ t) :
    (∀ a b : Expr Float, (a == b) = true →
      (a.approxEq b t = true ↔ a.All (Scalar.isFinite · = true))) ∧
    ∀ e : Expr Float, e.All (·.isNaN = false) →
      (e == e) = true ∧ (e.approxEq e t = true ↔ e.All (Scalar.isFinite · = true)) := by
  refine ⟨fun a b h => approxEq_iff_of_beq ht h, fun e he => ?_⟩
  have hself := beq_self he
  exact ⟨hself, approxEq_iff_of_beq ht hself⟩

/-- `y`, at most `5` and with a lower bound that is infinite. -/
def halfOpen : Expr Float where
  terms := { entries := [(.single ⟨"y"⟩, 1.0)], sorted := by decide }
  lower := some (-ExtendedScalar.infinity)
  upper := some 5.0

/-- `x + 0 * y`. -/
def withZero : Expr Float where
  terms := { entries := [(.single ⟨"x"⟩, 1.0), (.single ⟨"y"⟩, 0.0)], sorted := by decide }

/-- Expressions that differ in the sign of a zero are close without any tolerance, and so
is either to itself. -/
theorem approxEq_iff_isFinite_withSignedZero :
    (0 : Float) ≤ 0 ∧ withSignedZero.approxEq withZero 0 = true ∧
      withSignedZero.approxEq withSignedZero 0 = true := by
  have hzero : (0 : Float) ≤ 0 := by decide
  have hunbounded {p : Float → Prop} : ∀ x ∈ (none : Option Float), p x := fun _ h => nomatch h
  have hfinite : withSignedZero.All (Scalar.isFinite · = true) :=
    ⟨by decide, hunbounded, hunbounded⟩
  have hdefined : withSignedZero.All (·.isNaN = false) := ⟨by decide, hunbounded, hunbounded⟩
  obtain ⟨hequal, hself⟩ := approxEq_iff_isFinite hzero
  exact ⟨hzero, (hequal _ _ (by decide)).2 hfinite, (hself _ hdefined).2.2 hfinite⟩

/-- **An expression that is equal to itself and not close to itself**, with a tolerance
of one and with an infinite one. -/
theorem exists_not_approxEq_self :
    halfOpen.All (·.isNaN = false) ∧ (halfOpen == halfOpen) = true ∧
    (0 : Float) ≤ 1 ∧ halfOpen.approxEq halfOpen 1 = false ∧
    (0 : Float) ≤ ExtendedScalar.infinity ∧
    halfOpen.approxEq halfOpen ExtendedScalar.infinity = false := by
  have hdefined : halfOpen.All (·.isNaN = false) := by
    refine ⟨by decide, fun l hl => ?_, fun u hu => ?_⟩
    · obtain rfl := Option.mem_some_iff.1 hl
      decide
    · obtain rfl := Option.mem_some_iff.1 hu
      decide
  exact ⟨hdefined, beq_self hdefined, by decide, by decide, by decide, by decide⟩

end Expr

end PolyRow
