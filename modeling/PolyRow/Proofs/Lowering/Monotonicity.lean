import PolyRow.Proofs.Double.Arithmetic
import PolyRow.Proofs.Lowering.Degree

/-!
# Lowering with less strict options

Options are less strict than others if they drop whatever these drop and accept whatever
degree these accept. A term that offends against them offends against the stricter ones
too, so what was lowered is lowered again, from fewer terms in the same order. If the same
terms are dropped, nothing changes at all.

A greater highest degree drops the same terms, and a greater tolerance accepts the same
degrees, so each by itself makes options less strict.

## Main results

* `LowerConfig.Offends.of_relaxes`: less strict options refuse less.
* `Lowered.exists_ofExpr_of_relaxes`: what is lowered under less strict options.
* `Lowered.ofExpr_of_drops_eq`: the same result if the same terms are dropped.
* `Lowered.ofExpr_mono`: both for doubles, as a highest degree or a tolerance grows.
-/

namespace PolyRow

variable {κ : Type} [Scalar κ]

/-! ## Less strict options -/

namespace LowerConfig

/-- Whatever the second options drop or accept, the first drop or accept as well. -/
structure Relaxes (relaxed config : LowerConfig κ) : Prop where
  drops : ∀ c, config.drops c = true → relaxed.drops c = true
  degreeLimit : config.degreeLimit ≤ relaxed.degreeLimit

variable {relaxed config : LowerConfig κ}

/-- Whatever is kept is kept under stricter options. -/
theorem Relaxes.kept (h : relaxed.Relaxes config) {c : κ} (hkept : relaxed.drops c = false) :
    config.drops c = false := by
  rw [Bool.eq_false_iff] at hkept ⊢
  exact fun hdropped => hkept (h.drops c hdropped)

/-- **Less strict options refuse less.** -/
theorem Offends.of_relaxes {t : Monomial × κ} (h : relaxed.Relaxes config)
    (hoffends : relaxed.Offends t) : config.Offends t := by
  rcases hoffends with hinfinite | ⟨hkept, hhigh⟩
  · exact .inl hinfinite
  · exact .inr ⟨h.kept hkept, h.degreeLimit.trans_lt hhigh⟩

end LowerConfig

namespace Lowered

/-! ## Fewer terms -/

/-- What is left of a lowered expression if more of its terms are dropped. -/
structure Simplifies (l' l : Lowered κ) : Prop where
  linear : l'.linear.Sublist l.linear
  bilinear : l'.bilinear.Sublist l.bilinear
  higher : l'.higher.Sublist l.higher
  constant : l'.constant = l.constant ∨ l'.constant = 0
  termCount : l'.termCount ≤ l.termCount
  degree : l'.degree ≤ l.degree

variable {e : Expr κ} {config relaxed : LowerConfig κ} {l : Lowered κ}

theorem refusal?_eq_none_of_relaxes (h : relaxed.Relaxes config) (hl : ofExpr e config = .ok l) :
    ∀ t ∈ e.terms.entries, relaxed.refusal? t = none := by
  intro t ht
  rw [LowerConfig.refusal?_eq_none_iff]
  exact fun hoffends => not_offends_of_ofExpr hl t ht (hoffends.of_relaxes h)

theorem entries_kept_sublist (h : relaxed.Relaxes config) (e : Expr κ) :
    (e.kept relaxed).terms.entries.Sublist (e.kept config).terms.entries := by
  refine List.monotone_filter_right e.terms.entries fun t ht => ?_
  have hkept : relaxed.drops t.2 = false := (Bool.not_eq_true' _).mp ht
  rw [h.kept hkept]
  rfl

/-- The constant is dropped or is what it was. -/
theorem constant_of_relaxes (h : relaxed.Relaxes config) (e : Expr κ) :
    (ofTerms (e.kept relaxed).terms.entries).constant =
        (ofTerms (e.kept config).terms.entries).constant ∨
      (ofTerms (e.kept relaxed).terms.entries).constant = 0 := by
  have hget (options : LowerConfig κ) :
      (e.kept options).get? 1 = (e.get? 1).filter fun c => !options.drops c :=
    Terms.get?_filter _ e.terms 1
  rw [constant_ofTerms, constant_ofTerms, hget, hget]
  cases e.get? 1 with
  | none => exact .inl rfl
  | some c =>
      cases hdropped : relaxed.drops c with
      | true =>
          right
          rw [Option.filter_some, hdropped]
          rfl
      | false =>
          left
          rw [Option.filter_some, Option.filter_some, hdropped, h.kept hdropped]

/-- **Less strict options lower what stricter ones lower**, and leave fewer terms. -/
theorem exists_ofExpr_of_relaxes (h : relaxed.Relaxes config) (hl : ofExpr e config = .ok l) :
    ∃ l', ofExpr e relaxed = .ok l' ∧ l'.Simplifies l := by
  have hrelaxed : ofExpr e relaxed = .ok (ofTerms (e.kept relaxed).terms.entries) :=
    ofExpr_eq_ok_iff.2 ⟨refusal?_eq_none_of_relaxes h hl, rfl⟩
  obtain ⟨_, hterms⟩ := ofExpr_eq_ok_iff.1 hl
  have hsublist := entries_kept_sublist h e
  have hlinear := hsublist.filterMap linearTerm?
  have hbilinear := hsublist.filterMap bilinearTerm?
  have hhigher := hsublist.filter fun t => decide (2 < t.1.degree)
  have hdegree : (e.kept relaxed).degree ≤ (e.kept config).degree :=
    Expr.degree_le_iff.2 fun m hm => Expr.degree_le_of_mem ((hsublist.map Prod.fst).subset hm)
  refine ⟨_, hrelaxed, ?_⟩
  rw [← (partitions_of_ofExpr hrelaxed).degree_eq, ← (partitions_of_ofExpr hl).degree_eq] at hdegree
  subst hterms
  exact {
    linear := hlinear
    bilinear := hbilinear
    higher := hhigher
    constant := constant_of_relaxes h e
    termCount := Nat.add_le_add (Nat.add_le_add hlinear.length_le hbilinear.length_le)
      hhigher.length_le
    degree := hdegree }

/-- **Nothing changes if the same terms are dropped.** -/
theorem ofExpr_of_drops_eq (hdrops : ∀ c, relaxed.drops c = config.drops c)
    (hlimit : config.degreeLimit ≤ relaxed.degreeLimit) (hl : ofExpr e config = .ok l) :
    ofExpr e relaxed = .ok l := by
  have hrelaxes : relaxed.Relaxes config :=
    { drops := fun c hdropped => (hdrops c).trans hdropped, degreeLimit := hlimit }
  refine ofExpr_eq_ok_iff.2 ⟨refusal?_eq_none_of_relaxes hrelaxes hl, ?_⟩
  simp only [hdrops]
  exact (ofExpr_eq_ok_iff.1 hl).2

end Lowered

/-! ## Doubles -/

/-- A greater tolerance is less strict. -/
theorem LowerConfig.relaxes_light {s t : Option Float} (hst : s.getD 0 ≤ t.getD 0)
    (maxDegree : Option Nat) : (light t maxDegree).Relaxes (light s maxDegree) where
  drops c hdropped := by
    rw [drops_light, decide_eq_true_iff, Double.le_iff_number] at hdropped ⊢
    exact ExtendedRat.le_trans hdropped (Double.le_iff_number.1 hst)
  degreeLimit := le_rfl

namespace Lowered

/-- **Lowering is monotone in its options.** For every expression: if it is lowered, it is
lowered to the same if a greater highest degree is accepted. If it is lowered with light
simplification under some tolerance, it is lowered under every greater one; each part is
then made of terms of the part before, in their order, the constant is what it was or zero,
and there are no more terms and no higher degree. An unset tolerance counts as zero and an
unset highest degree as two. -/
theorem ofExpr_mono (e : Expr Float) :
    (∀ (config : LowerConfig Float) (maxDegree : Option Nat) (l : Lowered Float),
      config.degreeLimit ≤ LowerConfig.degreeLimit { config with maxDegree } →
      ofExpr e config = .ok l → ofExpr e { config with maxDegree } = .ok l) ∧
    ∀ (s t : Option Float) (maxDegree : Option Nat) (l : Lowered Float),
      s.getD 0 ≤ t.getD 0 → ofExpr e (.light s maxDegree) = .ok l →
        ∃ l', ofExpr e (.light t maxDegree) = .ok l' ∧ l'.Simplifies l := by
  constructor
  · intro config maxDegree l hlimit hl
    -- Which terms are dropped does not depend on the highest degree.
    have hdrops (c : Float) : LowerConfig.drops { config with maxDegree } c = config.drops c := rfl
    exact ofExpr_of_drops_eq hdrops hlimit hl
  · intro s t maxDegree l hst hl
    exact exists_ofExpr_of_relaxes (LowerConfig.relaxes_light hst maxDegree) hl

/-- With a tolerance of two a product and the cubic term are gone, and with a greater highest
degree nothing changes. -/
theorem ofExpr_mono_ofEveryDegree :
    ofExpr ofEveryDegree coarse = .ok ofEveryDegreeParts ∧
    ofExpr ofEveryDegree { coarse with maxDegree := some 5 } = .ok ofEveryDegreeParts ∧
    ∃ l', ofExpr ofEveryDegree (.light (some 2.0) (some 3)) = .ok l' ∧
      l'.Simplifies ofEveryDegreeParts ∧ l'.degree = 2 ∧ l'.termCount = 2 := by
  have hlowered : ofExpr ofEveryDegree coarse = .ok ofEveryDegreeParts := by rfl
  have htwo : ofExpr ofEveryDegree (.light (some 2.0) (some 3)) =
      .ok { constant := -5.0, linear := [(⟨"y"⟩, 3.0)], bilinear := [(⟨"x"⟩, ⟨"x"⟩, 4.0)] } := by
    rfl
  obtain ⟨hraised, htolerance⟩ := ofExpr_mono ofEveryDegree
  obtain ⟨l', hl', hsimplifies⟩ := htolerance (some 0.5) (some 2.0) (some 3) _ (by decide) hlowered
  refine ⟨hlowered, hraised coarse (some 5) _ (by decide) hlowered, l', hl', hsimplifies, ?_⟩
  rw [htwo] at hl'
  obtain rfl := Except.ok.inj hl'
  exact ⟨rfl, rfl⟩

end Lowered

end PolyRow
