import Mathlib
import PolyRow.Proofs.Lowering.Partition
import PolyRow.Proofs.Terms.Relation

/-!
# Mirrored rows

A relation between two sides can be written from either side. Over doubles the
two comparisons are not the same expression: each difference is rounded on its
own, a term of one side alone is passed on as it is in one direction and negated
in the other, and zeros take different signs. Still every number that comes out
is the negation of its counterpart, because rounding treats a number and its
negation alike, and lowering decides by magnitudes only.

`Expr.Mirrors` is the invariant: opposite coefficients at every monomial and
opposite bounds on opposite sides. A comparison and its converse satisfy it, and
lowering carries it to the rows, or to the errors.

## Main results

* `Double.opposite_iff`: opposite doubles stand for opposite numbers.
* `Expr.compare_mirrors`: a comparison and its converse.
* `Lowered.ofExpr_mirrors`: mirrored expressions are lowered alike.
* `ConstraintRow.ofExpr_compare_mirrors`: mirror symmetry of constraints.
-/

namespace PolyRow

/-! ## Opposite doubles -/

namespace Double

/-- The second double equals the negation of the first. -/
def Negated (x y : Float) : Prop := (y == -x) = true

/-- The second double is the negation of the first, or both are undefined. -/
def Opposite (x y : Float) : Prop := Negated x y ∨ x.isNaN = true ∧ y.isNaN = true

theorem negated_iff {x y : Float} :
    Negated x y ↔ number y = -number x ∧ number y ≠ .undefined := by
  unfold Negated
  rw [beq_iff_number, number_neg]
  show (number y).beq (-number x) = true ↔ _
  simp [ExtendedRat.beq, and_comm]

/-- **Opposite doubles stand for opposite numbers.** -/
theorem opposite_iff {x y : Float} : Opposite x y ↔ number y = -number x := by
  unfold Opposite
  rw [negated_iff, isNaN_iff, isNaN_iff]
  constructor
  · rintro (⟨h, _⟩ | ⟨hx, hy⟩)
    · exact h
    · rw [hx, hy]
      rfl
  · intro h
    by_cases hy : number y = .undefined
    · right
      rw [hy] at h
      refine ⟨?_, hy⟩
      rw [← ExtendedRat.neg_neg (number x), ← h]
      rfl
    · exact .inl ⟨h, hy⟩

theorem Opposite.number_eq {x y : Float} (h : Opposite x y) : number y = -number x :=
  opposite_iff.1 h

theorem Opposite.symm {x y : Float} (h : Opposite x y) : Opposite y x := by
  rw [opposite_iff, h.number_eq, ExtendedRat.neg_neg]

theorem opposite_zero : Opposite 0 0 := by
  rw [opposite_iff, number_zero]
  exact congrArg ExtendedRat.finite neg_zero.symm

/-- A difference and the difference the other way round. -/
theorem opposite_add_mul_neg_one (c d : Float) : Opposite (c + d * -1) (d + c * -1) := by
  rw [opposite_iff, number_add, number_add, number_mul_neg_one, number_mul_neg_one, ← rounded_neg,
    ExtendedRat.neg_add, ExtendedRat.neg_neg, ExtendedRat.add_comm]

theorem opposite_zero_add_mul_neg_one (c : Float) : Opposite c (0 + c * -1) := by
  rw [opposite_iff, number_zero_add, number_mul_neg_one]

theorem opposite_infinity :
    Opposite (ExtendedScalar.infinity : Float) (-ExtendedScalar.infinity) := by
  rw [opposite_iff, number_neg]

/-- Sums and differences of opposite numbers are opposite: rounding treats both
alike. -/
theorem Opposite.add {x y u w : Float} (hxy : Opposite x y) (huw : Opposite u w) :
    Opposite (x + u) (y + w) := by
  rw [opposite_iff, number_add, number_add, ← rounded_neg, hxy.number_eq, huw.number_eq,
    ExtendedRat.neg_add]

theorem Opposite.sub {x y u w : Float} (hxy : Opposite x y) (huw : Opposite u w) :
    Opposite (x - u) (y - w) := by
  rw [opposite_iff, number_sub, number_sub, ← rounded_neg, hxy.number_eq, huw.number_eq]
  show rounded (-number x + - -number u) = rounded (-(number x + -number u))
  rw [ExtendedRat.neg_add]

theorem Opposite.isFinite_eq {x y : Float} (h : Opposite x y) :
    Scalar.isFinite y = Scalar.isFinite x := by
  rw [Bool.eq_iff_iff, isFinite_iff, isFinite_iff, h.number_eq]
  constructor
  · rintro ⟨q, hq⟩
    refine ⟨-q, ?_⟩
    rw [← ExtendedRat.neg_neg (number x), hq]
    rfl
  · rintro ⟨q, hq⟩
    rw [hq]
    exact ⟨-q, rfl⟩

theorem opposite_getD {x y : Option Float} {c d : Float} (h : Option.Rel Opposite x y)
    (hcd : Opposite c d) : Opposite (x.getD c) (y.getD d) := by
  cases h with
  | none => exact hcd
  | some hxy => exact hxy

/-- Opposite numbers are negations of each other unless they are undefined. -/
theorem Opposite.negated {x y : Float} (h : Opposite x y) (hx : x.isNaN = false) :
    Negated x y := by
  rcases h with h | ⟨hnan, _⟩
  · exact h
  · rw [hx] at hnan
    exact absurd hnan Bool.false_ne_true

/-- Coefficients are dropped for their magnitude alone. -/
theorem Opposite.drops_eq {x y : Float} (h : Opposite x y) (config : LowerConfig Float) :
    config.drops y = config.drops x := by
  unfold LowerConfig.drops
  cases config.simplifyLevel with
  | none => rfl
  | light =>
      refine decide_eq_decide.2 ?_
      rw [le_iff_number, le_iff_number, number_abs, number_abs, h.number_eq, ExtendedRat.abs_neg]

end Double

/-! ## Mirrored expressions -/

open Double (Negated Opposite)

/-- The second expression says of the negated polynomial what the first says of the
polynomial: opposite coefficients, and opposite bounds on opposite sides. -/
structure Expr.Mirrors (p q : Expr Float) : Prop where
  coefficients : ∀ m, Option.Rel Opposite (p.get? m) (q.get? m)
  lower : Option.Rel Opposite p.upper q.lower
  upper : Option.Rel Opposite p.lower q.upper

namespace Expr

/-- Opposite coefficients are found in a difference and in the one the other way
round, also where one side has no term to be subtracted from. -/
private theorem rel_minus (a b : Expr Float) (m : Monomial) :
    Option.Rel Opposite ((a.minus (.expr b)).get? m) ((b.minus (.expr a)).get? m) := by
  show Option.Rel Opposite ((a.add (b.scale (-1))).get? m) ((b.add (a.scale (-1))).get? m)
  rw [get?_add, get?_add, get?_scale, get?_scale]
  cases a.get? m with
  | none =>
      cases b.get? m with
      | none => exact .none
      | some d => exact .some (Double.opposite_zero_add_mul_neg_one d).symm
  | some c =>
      cases b.get? m with
      | none => exact .some (Double.opposite_zero_add_mul_neg_one c)
      | some d => exact .some (Double.opposite_add_mul_neg_one c d)

private theorem opposite_constant_minus (a b : Expr Float) :
    Opposite (a.minus (.expr b)).constant (b.minus (.expr a)).constant := by
  exact Double.opposite_getD (rel_minus a b 1) Double.opposite_zero

/-- **A comparison and its converse**, with the sides exchanged. -/
theorem compare_mirrors (a b : Expr Float) (s : ComparisonSense) :
    (a.compare (.expr b) s).Mirrors (b.compare (.expr a) s.converse) := by
  have hthreshold :
      Opposite (0 - (a.minus (.expr b)).constant) (0 - (b.minus (.expr a)).constant) :=
    Double.opposite_zero.sub (opposite_constant_minus a b)
  constructor
  · intro m
    show Option.Rel Opposite (((a.minus (.expr b)).terms.erase 1).get? m)
      (((b.minus (.expr a)).terms.erase 1).get? m)
    rw [Terms.get?_erase, Terms.get?_erase]
    by_cases hone : m = 1
    · rw [if_pos hone, if_pos hone]
      exact .none
    · rw [if_neg hone, if_neg hone]
      exact rel_minus a b m
  · cases s with
    | lessEqual => exact .some hthreshold
    | greaterEqual => exact .none
    | equal => exact .some hthreshold
  · cases s with
    | lessEqual => exact .none
    | greaterEqual => exact .some hthreshold
    | equal => exact .some hthreshold

end Expr

/-! ## Mirrored outcomes -/

/-- Both fail, with related causes, or both succeed, with related results. -/
def Alike {ε α : Type} (E : ε → ε → Prop) (A : α → α → Prop) : Except ε α → Except ε α → Prop
  | .error x, .error y => E x y
  | .ok p, .ok q => A p q
  | _, _ => False

/-- The same cause: the same monomial and limit, opposite coefficients, opposite
bounds on opposite sides. -/
def LowerError.Mirrors : LowerError Float → LowerError Float → Prop
  | .degreeTooHigh m limit, .degreeTooHigh n limit' => m = n ∧ limit = limit'
  | .invalidCoefficient c, .invalidCoefficient d => Opposite c d
  | .invalidBounds l u, .invalidBounds l' u' => Opposite u l' ∧ Opposite l u'
  | _, _ => False

/-- The same variables, pairs and monomials in the same order, with negated
coefficients, and opposite constants. -/
structure Lowered.Mirrors (l l' : Lowered Float) : Prop where
  constant : Opposite l.constant l'.constant
  linear : List.Forall₂ (EntryRel Negated) l.linear l'.linear
  bilinear : List.Forall₂ (EntryRel (EntryRel Negated)) l.bilinear l'.bilinear
  higher : List.Forall₂ (EntryRel Negated) l.higher l'.higher

/-- Mirrored terms between negated bounds on opposite sides. -/
structure ConstraintRow.Mirrors (p q : ConstraintRow Float) : Prop where
  terms : p.terms.Mirrors q.terms
  lower : Negated p.bounds.upper q.bounds.lower
  upper : Negated p.bounds.lower q.bounds.upper

/-! ## Mirrored lowering -/

/-- A term and one with the opposite coefficient are refused alike. -/
private theorem rel_refusal? (config : LowerConfig Float) {s t : Monomial × Float}
    (h : EntryRel Opposite s t) :
    Option.Rel LowerError.Mirrors (config.refusal? s) (config.refusal? t) := by
  obtain ⟨m, c⟩ := s
  obtain ⟨n, d⟩ := t
  obtain ⟨rfl, hcd⟩ := h
  unfold LowerConfig.refusal?
  show Option.Rel LowerError.Mirrors (if !Scalar.isFinite c then _ else _)
    (if !Scalar.isFinite d then _ else _)
  rw [hcd.isFinite_eq, hcd.drops_eq]
  split_ifs
  · exact .some hcd
  · exact .none
  · exact .some ⟨rfl, rfl⟩
  · exact .none

private theorem rel_linearTerm? {R : Float → Float → Prop} {s t : Monomial × Float}
    (h : EntryRel R s t) :
    Option.Rel (EntryRel R) (Lowered.linearTerm? s) (Lowered.linearTerm? t) := by
  obtain ⟨⟨xs, hxs⟩, c⟩ := s
  obtain ⟨n, d⟩ := t
  obtain ⟨rfl, hcd⟩ := h
  match xs, hxs with
  | [], _ => exact .none
  | [x], _ => exact .some ⟨rfl, hcd⟩
  | x :: y :: zs, _ => exact .none

private theorem rel_bilinearTerm? {R : Float → Float → Prop} {s t : Monomial × Float}
    (h : EntryRel R s t) :
    Option.Rel (EntryRel (EntryRel R)) (Lowered.bilinearTerm? s) (Lowered.bilinearTerm? t) := by
  obtain ⟨⟨xs, hxs⟩, c⟩ := s
  obtain ⟨n, d⟩ := t
  obtain ⟨rfl, hcd⟩ := h
  match xs, hxs with
  | [], _ => exact .none
  | [x], _ => exact .none
  | [x, y], _ => exact .some ⟨rfl, rfl, hcd⟩
  | x :: y :: z :: zs, _ => exact .none

/-- **Mirrored expressions are lowered alike.** Terms are refused and dropped for
their magnitudes and monomials alone, so the same ones go the same way. -/
theorem Lowered.ofExpr_mirrors {p q : Expr Float} (h : p.Mirrors q) (config : LowerConfig Float) :
    Alike LowerError.Mirrors Lowered.Mirrors (ofExpr p config) (ofExpr q config) := by
  have hentries : List.Forall₂ (EntryRel Opposite) p.terms.entries q.terms.entries :=
    Terms.forall₂_entries p.terms.sorted q.terms.sorted h.coefficients
  have hrefusal := rel_findSome? (R := EntryRel Opposite) (fun s t => rel_refusal? config) hentries
  unfold ofExpr
  generalize hp : p.terms.entries.findSome? config.refusal? = x,
    q.terms.entries.findSome? config.refusal? = y at hrefusal ⊢
  cases hrefusal with
  | some herror => exact herror
  | none =>
      have hfinite : ∀ s ∈ p.terms.entries, Scalar.isFinite s.2 = true := fun s hs =>
        isFinite_of_refusal?_eq_none (List.findSome?_eq_none_iff.1 hp s hs)
      have hkept := rel_filter (f := fun s => !config.drops s.2)
        (fun s t (hst : EntryRel Opposite s t) => by rw [hst.2.drops_eq]) hentries
      have hnegated : List.Forall₂ (EntryRel Negated)
          (p.terms.entries.filter fun s => !config.drops s.2)
          (q.terms.entries.filter fun s => !config.drops s.2) := by
        have hboth := (List.forall₂_and_left _ _).2
          ⟨fun s hs => hfinite s (List.mem_of_mem_filter hs), hkept⟩
        refine hboth.imp fun s t ⟨hs, hst⟩ => ⟨hst.1, hst.2.negated ?_⟩
        exact Double.isNaN_eq_false hs
      have hconstants := rel_filter (f := fun s => s.1.isConstant)
        (fun s t (hst : EntryRel Opposite s t) => by rw [hst.1]) hkept
      constructor
      · refine List.rel_foldl (fun _ _ hsum _ _ hst => hsum.add hst) Double.opposite_zero ?_
        exact List.rel_map (fun s t hst => hst.2) hconstants
      · exact List.rel_filterMap (R := EntryRel Negated) (fun _ _ hst => rel_linearTerm? hst)
          hnegated
      · exact List.rel_filterMap (R := EntryRel Negated) (fun _ _ hst => rel_bilinearTerm? hst)
          hnegated
      · exact rel_filter (fun s t hst => by rw [hst.1]) hnegated

namespace ConstraintRow

/-- The bounds of mirrored expressions whose terms are lowered to mirrored parts. -/
private theorem opposite_boundsOf {p q : Expr Float} (h : p.Mirrors q) {l l' : Lowered Float}
    (hl : l.Mirrors l') :
    Opposite (boundsOf p l).upper (boundsOf q l').lower ∧
      Opposite (boundsOf p l).lower (boundsOf q l').upper := by
  have hlower : Opposite (p.upper.getD ExtendedScalar.infinity)
      (q.lower.getD (-ExtendedScalar.infinity)) :=
    Double.opposite_getD h.lower Double.opposite_infinity
  have hupper : Opposite (p.lower.getD (-ExtendedScalar.infinity))
      (q.upper.getD ExtendedScalar.infinity) :=
    Double.opposite_getD h.upper Double.opposite_infinity.symm
  exact ⟨hlower.sub hl.constant, hupper.sub hl.constant⟩

private theorem isNaN_eq_false_of_isValid {b : Bounds Float} (h : b.isValid = true) :
    b.lower.isNaN = false ∧ b.upper.isNaN = false := by
  obtain ⟨hlower, hupper⟩ :=
    ExtendedRat.ne_undefined_of_le (Double.le_iff_number.1 (of_decide_eq_true h))
  rw [← Bool.not_eq_true, ← Bool.not_eq_true, Double.isNaN_iff, Double.isNaN_iff]
  exact ⟨hlower, hupper⟩

/-- **Mirrored expressions give mirrored rows**, or fail for the same cause. -/
theorem ofExpr_mirrors {p q : Expr Float} (h : p.Mirrors q) (config : LowerConfig Float) :
    Alike LowerError.Mirrors Mirrors (ofExpr p config) (ofExpr q config) := by
  have hlowered := Lowered.ofExpr_mirrors h config
  unfold ofExpr
  generalize Lowered.ofExpr p config = x, Lowered.ofExpr q config = y at hlowered ⊢
  cases x with
  | error e =>
      cases y with
      | error e' => exact hlowered
      | ok l' => exact hlowered.elim
  | ok l =>
      cases y with
      | error e' => exact hlowered.elim
      | ok l' =>
          have hl : l.Mirrors l' := hlowered
          obtain ⟨hlower, hupper⟩ := opposite_boundsOf h hl
          have hvalid : (boundsOf q l').isValid = (boundsOf p l).isValid := by
            refine decide_eq_decide.2 ?_
            rw [Double.le_iff_number, Double.le_iff_number, hlower.number_eq, hupper.number_eq,
              ExtendedRat.neg_le_neg_iff]
          show Alike _ _ (if (boundsOf p l).isValid then _ else _)
            (if (boundsOf q l').isValid then _ else _)
          rw [hvalid]
          split_ifs with hbounds
          · obtain ⟨hlowerNumber, hupperNumber⟩ := isNaN_eq_false_of_isValid hbounds
            exact ⟨⟨Double.opposite_zero, hl.linear, hl.bilinear, hl.higher⟩,
              hlower.negated hupperNumber, hupper.negated hlowerNumber⟩
          · exact ⟨hlower, hupper⟩

/-- **Mirror symmetry of constraints.** A comparison and the converse one with its
sides exchanged either both become rows, with the same variables, pairs and
monomials in the same order, negated coefficients and negated bounds on opposite
sides, or both fail for the same cause. -/
theorem ofExpr_compare_mirrors (a b : Expr Float) (s : ComparisonSense)
    (config : LowerConfig Float) :
    Alike LowerError.Mirrors Mirrors (ofExpr (a.compare (.expr b) s) config)
      (ofExpr (b.compare (.expr a) s.converse) config) := by
  have hmirrors := Expr.compare_mirrors a b s
  exact ofExpr_mirrors hmirrors config

end ConstraintRow

end PolyRow
