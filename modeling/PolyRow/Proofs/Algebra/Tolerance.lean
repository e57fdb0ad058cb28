import Mathlib
import PolyRow.Proofs.Algebra.Cancellation
import PolyRow.Proofs.Algebra.Closeness

/-!
# Closeness and the tolerance

Closeness of expressions asks one question at every monomial: how far apart are two
coefficients, a missing one counting as zero? The distance does not depend on the order of
the two, and what is within one tolerance is within every greater one. With tolerance zero
the question is whether the coefficients are equal, as the difference of two finite doubles
is zero only if they are. Pruned expressions are equal under the same condition, since
pruning takes away what differs between a stored zero and none.

## Main results

* `Double.close_comm`, `Double.close_mono`, `Double.close_zero_iff`: two doubles.
* `Expr.approxEq_iff`: closeness as a condition on every monomial.
* `Expr.pruned_beq_iff`: when pruned expressions are equal.
* `Expr.approxEq_depends_on_tolerance`: all of this in one statement.
-/

namespace PolyRow

/-! ## Two doubles -/

namespace Double

theorem close_comm (t x y : Float) : Expr.close t x y = Expr.close t y x := by
  have hopposite : number (y - x) = -number (x - y) := by
    rw [number_sub, number_sub, ← ExtendedRat.neg_sub, rounded_neg]
  rw [Bool.eq_iff_iff, close_iff_number, close_iff_number, hopposite, ExtendedRat.abs_neg]

theorem close_mono {s t x y : Float} (hst : s ≤ t) (h : Expr.close s x y = true) :
    Expr.close t x y = true := by
  rw [close_iff_number] at h ⊢
  exact ExtendedRat.le_trans h (le_iff_number.1 hst)

/-- **Without tolerance, finite doubles are close if they are equal.** -/
theorem close_zero_iff {x y : Float} (hx : Scalar.isFinite x = true)
    (hy : Scalar.isFinite y = true) : Expr.close 0 x y = true ↔ (x == y) = true := by
  obtain ⟨p, hp⟩ := isFinite_iff.1 hx
  obtain ⟨q, hq⟩ := isFinite_iff.1 hy
  rw [close_iff_number, number_zero, ExtendedRat.abs_le_zero_iff, number_sub_eq_zero_iff hp hq,
    beq_iff_number, hp, hq, ExtendedRat.beq_iff_compare]
  exact (cmp_eq_eq_iff p q).symm.trans Option.some_inj.symm

end Double

namespace Expr

/-! ## Every monomial -/

section Doubles

variable {s t : Float} {a b : Expr Float}

theorem coefficient_of_notMem {κ : Type} [Scalar κ] {e : Expr κ} {m : Monomial}
    (h : m ∉ e.terms.keys) : e.coefficient m = 0 := by
  have hnone : e.get? m = none := Terms.lookup_eq_none_of_notMem h
  unfold coefficient
  rw [hnone]
  rfl

/-- Closeness asks about the monomials of either side, and about the bounds. -/
theorem approxEq_iff : a.approxEq b t = true ↔
    (∀ m, m ∈ a.terms.keys ∨ m ∈ b.terms.keys →
      close t (a.coefficient m) (b.coefficient m) = true) ∧
    boundsClose t a.lower b.lower = true ∧ boundsClose t a.upper b.upper = true := by
  unfold approxEq
  rw [Bool.and_eq_true, Bool.and_eq_true, and_assoc, List.all_eq_true]
  simp only [List.mem_append]

/-! ## Both sides alike -/

theorem boundsClose_comm (t : Float) (l l' : Option Float) :
    boundsClose t l l' = boundsClose t l' l := by
  cases l with
  | none => cases l' <;> rfl
  | some x =>
      cases l' with
      | none => rfl
      | some y => exact Double.close_comm t x y

/-- **Closeness does not depend on the order of its operands.** -/
theorem approxEq_comm (a b : Expr Float) (t : Float) : a.approxEq b t = b.approxEq a t := by
  rw [Bool.eq_iff_iff, approxEq_iff, approxEq_iff, boundsClose_comm t a.lower,
    boundsClose_comm t a.upper]
  refine and_congr_left fun _ => forall_congr' fun m => ?_
  rw [Double.close_comm, or_comm]

/-! ## A greater tolerance -/

theorem boundsClose_mono (hst : s ≤ t) {l l' : Option Float} (h : boundsClose s l l' = true) :
    boundsClose t l l' = true := by
  cases l with
  | none => cases l' <;> exact h
  | some x =>
      cases l' with
      | none => exact h
      | some y => exact Double.close_mono hst h

/-- **What is close within a tolerance is close within a greater one.** -/
theorem approxEq_mono (hst : s ≤ t) (h : a.approxEq b s = true) : a.approxEq b t = true := by
  rw [approxEq_iff] at h ⊢
  obtain ⟨hcoefficients, hlower, hupper⟩ := h
  exact ⟨fun m hm => Double.close_mono hst (hcoefficients m hm), boundsClose_mono hst hlower,
    boundsClose_mono hst hupper⟩

/-! ## No tolerance -/

/-- With zeros left out, coefficients are found alike if they are equal, a missing one
counting as zero. -/
private theorem rel_filter_iff (c d : Option Float) :
    Option.Rel (fun x y => (x == y) = true) (c.filter (· != 0)) (d.filter (· != 0)) ↔
      (c.getD 0 == d.getD 0) = true := by
  have hfilter (c : Option Float) :
      c.filter (· != 0) = if (c.getD 0 == 0) = true then none else some (c.getD 0) := by
    cases c with
    | none => rfl
    | some x => cases hx : x == 0 <;> simp [bne, hx]
  rw [hfilter, hfilter]
  generalize c.getD 0 = x, d.getD 0 = y
  have hsame (h : (x == y) = true) : (x == 0) = true ↔ (y == 0) = true := by
    rw [Double.beq_zero_iff_number, Double.beq_zero_iff_number, Double.same_iff.1 (.inl h)]
  by_cases hx : (x == 0) = true
  · rw [if_pos hx]
    by_cases hy : (y == 0) = true
    · rw [if_pos hy]
      have hnumbers : Double.number x = Double.number y := by
        rw [Double.beq_zero_iff_number.1 hx, Double.beq_zero_iff_number.1 hy]
      have hfinite : Scalar.isFinite y = true :=
        Double.isFinite_iff.2 ⟨0, Double.beq_zero_iff_number.1 hy⟩
      exact iff_of_true .none (Double.beq_of_number_eq hfinite hnumbers)
    · rw [if_neg hy]
      exact iff_of_false (fun h => nomatch h) fun h => hy ((hsame h).1 hx)
  · rw [if_neg hx]
    by_cases hy : (y == 0) = true
    · rw [if_pos hy]
      exact iff_of_false (fun h => nomatch h) fun h => hx ((hsame h).2 hy)
    · rw [if_neg hy]
      exact Option.rel_some_some

/-- **Pruned expressions are equal if the coefficients of every monomial are**, a missing
one counting as zero, and the bounds as well. -/
theorem pruned_beq_iff : (a.pruned == b.pruned) = true ↔
    (∀ m, (a.coefficient m == b.coefficient m) = true) ∧
      (a.lower == b.lower) = true ∧ (a.upper == b.upper) = true := by
  have hentries : List.Forall₂ (EntryRel fun c d => (c == d) = true) a.pruned.terms.entries
      b.pruned.terms.entries ↔ ∀ m, Option.Rel (fun c d => (c == d) = true)
        (a.pruned.terms.get? m) (b.pruned.terms.get? m) :=
    ⟨fun h m => rel_lookup h m, Terms.forall₂_entries a.pruned.terms.sorted b.pruned.terms.sorted⟩
  rw [beq_iff, beq_iff_forall₂, hentries]
  refine and_congr_left fun _ => forall_congr' fun m => ?_
  rw [get?_pruned, get?_pruned]
  exact rel_filter_iff (a.get? m) (b.get? m)

theorem boundsClose_zero_iff {l l' : Option Float} (hl : ∀ x ∈ l, Scalar.isFinite x = true)
    (hl' : ∀ x ∈ l', Scalar.isFinite x = true) :
    boundsClose 0 l l' = true ↔ (l == l') = true := by
  cases l with
  | none => cases l' <;> exact Iff.rfl
  | some x =>
      cases l' with
      | none => exact Iff.rfl
      | some y => exact Double.close_zero_iff (hl x rfl) (hl' y rfl)

/-- **Without tolerance, finite expressions are close if their pruned forms are equal.** -/
theorem approxEq_zero_iff (ha : a.All (Scalar.isFinite · = true))
    (hb : b.All (Scalar.isFinite · = true)) :
    a.approxEq b 0 = true ↔ (a.pruned == b.pruned) = true := by
  have hclose (m : Monomial) : close 0 (a.coefficient m) (b.coefficient m) = true ↔
      (a.coefficient m == b.coefficient m) = true :=
    Double.close_zero_iff (isFinite_coefficient ha.coefficients m)
      (isFinite_coefficient hb.coefficients m)
  rw [approxEq_iff, pruned_beq_iff, boundsClose_zero_iff ha.lower hb.lower,
    boundsClose_zero_iff ha.upper hb.upper]
  refine and_congr_left fun _ => forall_congr' fun m => ?_
  rw [hclose]
  -- A monomial of neither side has zero for its coefficient on both.
  refine ⟨fun h => ?_, fun h _ => h⟩
  by_cases hm : m ∈ a.terms.keys ∨ m ∈ b.terms.keys
  · exact h hm
  · rw [not_or] at hm
    rw [coefficient_of_notMem hm.1, coefficient_of_notMem hm.2]
    rfl

/-- **Closeness and the tolerance.** Without tolerance, expressions whose coefficients and
bounds are finite are close exactly if their pruned forms are equal. For any expressions,
those with infinite and undefined numbers included, closeness is the same for either order
of the operands, and it is kept when the tolerance grows. A comparable tolerance is not
undefined. -/
theorem approxEq_depends_on_tolerance :
    (∀ a b : Expr Float, a.All (Scalar.isFinite · = true) → b.All (Scalar.isFinite · = true) →
      (a.approxEq b 0 = true ↔ (a.pruned == b.pruned) = true)) ∧
    (∀ (a b : Expr Float) (t : Float), a.approxEq b t = b.approxEq a t) ∧
    ∀ (a b : Expr Float) (s t : Float), s ≤ t → a.approxEq b s = true → a.approxEq b t = true :=
  ⟨fun _ _ => approxEq_zero_iff, approxEq_comm, fun _ _ _ _ => approxEq_mono⟩

/-- `x + 0 * z`, with a zero that is negative. -/
def withOtherZero : Expr Float where
  terms := { entries := [(.single ⟨"x"⟩, 1.0), (.single ⟨"z"⟩, -0.0)], sorted := by decide }

/-- A multiple of `w` by a number of the least doubles above zero. -/
def leastTimes (n : UInt64) : Expr Float where
  terms := { entries := [(.single ⟨"w"⟩, Float.ofBits n)], sorted := List.pairwise_singleton _ _ }

/-- Zeros stored for different variables do not keep expressions apart, the least double
above zero does, and within that tolerance, or one, they are close from either side. -/
theorem approxEq_depends_on_tolerance_leastApart :
    withZero.All (Scalar.isFinite · = true) ∧ withOtherZero.All (Scalar.isFinite · = true) ∧
    withZero.approxEq withOtherZero 0 = true ∧
    (leastTimes 1).All (Scalar.isFinite · = true) ∧
    (leastTimes 2).All (Scalar.isFinite · = true) ∧
    (leastTimes 1).approxEq (leastTimes 2) 0 = false ∧
    Float.ofBits 1 ≤ 1 ∧ (leastTimes 1).approxEq (leastTimes 2) (Float.ofBits 1) = true ∧
    (leastTimes 2).approxEq (leastTimes 1) 1 = true := by
  have hunbounded : ∀ x ∈ (none : Option Float), Scalar.isFinite x = true := fun _ h => nomatch h
  have hzero : withZero.All (Scalar.isFinite · = true) := ⟨by decide, hunbounded, hunbounded⟩
  have hother : withOtherZero.All (Scalar.isFinite · = true) :=
    ⟨by decide, hunbounded, hunbounded⟩
  have hone : (leastTimes 1).All (Scalar.isFinite · = true) :=
    ⟨by decide, hunbounded, hunbounded⟩
  have htwo : (leastTimes 2).All (Scalar.isFinite · = true) :=
    ⟨by decide, hunbounded, hunbounded⟩
  have hleast : (leastTimes 1).approxEq (leastTimes 2) (Float.ofBits 1) = true := by decide
  have hbelow : Float.ofBits 1 ≤ 1 := by decide
  obtain ⟨hpruned, hcomm, hmono⟩ := approxEq_depends_on_tolerance
  refine ⟨hzero, hother, (hpruned _ _ hzero hother).2 (by decide), hone, htwo, ?_, hbelow,
    hleast, ?_⟩
  · rw [Bool.eq_false_iff, ne_eq, hpruned _ _ hone htwo]
    decide
  · rw [hcomm]
    exact hmono _ _ _ _ hbelow hleast

end Doubles

end Expr

end PolyRow
