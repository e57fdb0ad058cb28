import Mathlib
import PolyRow.Expr.Comparison
import PolyRow.Proofs.Terms.Accumulation
import PolyRow.Proofs.Text.Reading

/-!
# Texts of expressions are unambiguous

Two expressions have the same text exactly if the same is shown of them. A text leaves
open which monomials are stored with a zero, what lies beyond the twelfth place of a
number, and nothing else: the words are found again in the text, terms and bounds in the
words, and a term that is shown tells the sign of its coefficient, the text of the
magnitude and, at a monomial other than the constant, whether the magnitude is one.

## Main results

* `Expr.map_shownTerms_eq_iff`: polynomials of which the same is shown.
* `Expr.text_eq_iff_shownAlike`: expressions with the same text.
* `Expr.text_of_constant`: the constant comes last.
* `Expr.text_unambiguous`: these in one statement.
-/

namespace PolyRow

open Text

namespace Expr

/-! ## What a text tells -/

/-- An expression whose text can be taken apart: names are identifiers, coefficients are
finite, and none but zero is below what twelve places can show. -/
structure Legible (e : Expr Float) : Prop where
  named : ∀ m ∈ e.terms.keys, ∀ x ∈ m.factors, x.isIdentifier = true
  finite : ∀ t ∈ e.terms.entries, Scalar.isFinite t.2 = true
  visible : ∀ t ∈ e.terms.entries, (t.2 != 0) = true → 1e-12 ≤ t.2.abs

/-- Coefficients of a monomial that are shown alike: of the same sign and with the same
text of the magnitude, which is left out for both or for neither. -/
structure AlikeAt (m : Monomial) (c d : Float) : Prop where
  sign : c < 0 ↔ d < 0
  magnitude : numberText c.abs = numberText d.abs
  one : m ≠ 1 → ((c.abs == 1) = true ↔ (d.abs == 1) = true)

/-- Expressions that differ in nothing but what their texts leave open: zeros, and what
lies beyond the twelfth place. -/
structure ShownAlike (a b : Expr Float) : Prop where
  keys : a.pruned.terms.keys = b.pruned.terms.keys
  coefficients : ∀ m c d, a.pruned.get? m = some c → b.pruned.get? m = some d → AlikeAt m c d
  shape : boundShape a.lower a.upper = boundShape b.lower b.upper
  lower : a.lower.map numberText = b.lower.map numberText
  upper : a.upper.map numberText = b.upper.map numberText

/-- Shown are the terms that pruning leaves. -/
theorem shownTerms_eq (e : Expr Float) :
    e.shownTerms = (e.pruned.terms.entries.filter fun t => !t.1.isConstant) ++
      e.pruned.terms.entries.filter fun t => t.1.isConstant := rfl

theorem mem_shownTerms {e : Expr Float} {t : Monomial × Float} :
    t ∈ e.shownTerms ↔ t ∈ e.pruned.terms.entries := by
  rw [shownTerms_eq, List.mem_append, List.mem_filter, List.mem_filter]
  cases t.1.isConstant <;> simp

theorem eq_of_mem_number_ofTerm {t : Monomial × Float} {w : String}
    (h : w ∈ (ShownTerm.ofTerm t).number) : w = numberText t.2.abs := by
  have hnumber : w ∈ if ShownTerm.isBare t.1 t.2 = true then none
      else some (numberText t.2.abs) := h
  split at hnumber
  · exact nomatch hnumber
  · exact (Option.some.inj hnumber).symm

theorem Legible.readable {e : Expr Float} (he : e.Legible) :
    ∀ s ∈ e.shownTerms.map ShownTerm.ofTerm, s.Readable := by
  intro s hs
  obtain ⟨t, ht, rfl⟩ := List.mem_map.1 hs
  have hpruned : t ∈ e.terms.entries ∧ (t.2 != 0) = true := List.mem_filter.1 (mem_shownTerms.1 ht)
  obtain ⟨hentry, hnonzero⟩ := hpruned
  have hfinite := he.finite t hentry
  exact {
    named := he.named t.1 (List.mem_map_of_mem hentry)
    words_ne_nil := ShownTerm.words_ofTerm_ne_nil t
    isNumeric := by
      intro w hw
      obtain ⟨c, cs, htext, hdigit⟩ := numberText_abs hfinite
      rw [eq_of_mem_number_ofTerm hw, Text.isNumeric, first?, htext]
      exact hdigit
    plain := by
      intro w hw
      rw [eq_of_mem_number_ofTerm hw]
      exact plain_numberText _
    ne_zero := by
      intro w hw
      rw [eq_of_mem_number_ofTerm hw]
      exact numberText_abs_ne_zero hfinite (he.visible t hentry hnonzero) }

/-- Coefficients are shown alike if the same is shown of them. -/
theorem ofTerm_eq_iff {m : Monomial} {c d : Float} :
    ShownTerm.ofTerm (m, c) = ShownTerm.ofTerm (m, d) ↔ AlikeAt m c d := by
  have hnumber (x : Float) : (ShownTerm.ofTerm (m, x)).number =
      if ShownTerm.isBare m x then none else some (numberText x.abs) := rfl
  have hnegative (x : Float) : (ShownTerm.ofTerm (m, x)).negative = decide (x < 0) := rfl
  have hone {x : Float} (hx : ShownTerm.isBare m x = true) : (x.abs == 1) = true :=
    (Bool.and_eq_true_iff.1 hx).2
  have hnotOne {x : Float} (hm : m ≠ 1) (hx : ¬ ShownTerm.isBare m x = true) :
      ¬ (x.abs == 1) = true := by
    intro heq
    have hconstant : m.isConstant = false :=
      Bool.eq_false_iff.2 fun h => hm (Monomial.isConstant_iff.1 h)
    exact hx (Bool.and_eq_true_iff.2 ⟨by rw [hconstant]; rfl, heq⟩)
  constructor
  · intro h
    have hsigns := congrArg ShownTerm.negative h
    have hnumbers := congrArg ShownTerm.number h
    rw [hnegative, hnegative, decide_eq_decide] at hsigns
    rw [hnumber, hnumber] at hnumbers
    split at hnumbers <;> split at hnumbers
    · rename_i hc hd
      have htexts : numberText c.abs = numberText d.abs :=
        (numberText_eq_of_beq (hone hc)).trans (numberText_eq_of_beq (hone hd)).symm
      exact ⟨hsigns, htexts, fun _ => iff_of_true (hone hc) (hone hd)⟩
    · exact nomatch hnumbers
    · exact nomatch hnumbers
    · rename_i hc hd
      exact ⟨hsigns, Option.some.inj hnumbers,
        fun hm => iff_of_false (hnotOne hm hc) (hnotOne hm hd)⟩
  · intro h
    have hbare : ShownTerm.isBare m c = ShownTerm.isBare m d := by
      unfold ShownTerm.isBare
      cases hm : m.isConstant with
      | true => rw [Bool.not_true, Bool.false_and, Bool.false_and]
      | false =>
          have hne : m ≠ 1 := fun heq => by rw [heq] at hm; exact nomatch hm
          exact congrArg (true && ·) (Bool.eq_iff_iff.2 (h.one hne))
    unfold ShownTerm.ofTerm
    dsimp only
    rw [hbare, h.magnitude, decide_eq_decide.2 h.sign]

/-- Which terms are shown, and in which order, can be told from what is shown of the
entries. -/
theorem map_shownTerms (e : Expr Float) :
    e.shownTerms.map ShownTerm.ofTerm =
      (e.pruned.terms.entries.map ShownTerm.ofTerm).filter (fun s => !s.monomial.isConstant) ++
        (e.pruned.terms.entries.map ShownTerm.ofTerm).filter
          (fun s => s.monomial.isConstant) := by
  rw [shownTerms_eq, List.filter_map, List.filter_map, ← List.map_append]
  rfl

theorem map_entries (e : Expr Float) :
    e.terms.entries.map ShownTerm.ofTerm =
      e.terms.keys.map fun m => ShownTerm.ofTerm (m, e.coefficient m) := by
  unfold Terms.keys
  rw [List.map_map]
  refine List.map_congr_left fun t ht => ?_
  have hget : e.get? t.1 = some t.2 := Terms.get?_eq_some_iff.2 ht
  show ShownTerm.ofTerm t = ShownTerm.ofTerm (t.1, (e.get? t.1).getD 0)
  rw [hget]
  rfl

variable {a b : Expr Float}

/-- The same is shown of two polynomials if they have the same keys, and coefficients at
them that are shown alike. -/
theorem map_shownTerms_eq_iff :
    a.shownTerms.map ShownTerm.ofTerm = b.shownTerms.map ShownTerm.ofTerm ↔
      a.pruned.terms.keys = b.pruned.terms.keys ∧
      ∀ m c d, a.pruned.get? m = some c → b.pruned.get? m = some d → AlikeAt m c d := by
  have hmem (e : Expr Float) (m : Monomial) (c : Float) :
      e.pruned.get? m = some c ↔ (m, c) ∈ e.shownTerms :=
    Terms.get?_eq_some_iff.trans mem_shownTerms.symm
  constructor
  · intro h
    have hkey (e : Expr Float) (m : Monomial) : m ∈ e.pruned.terms.keys ↔
        m ∈ (e.shownTerms.map ShownTerm.ofTerm).map ShownTerm.monomial := by
      unfold Terms.keys
      rw [List.map_map, List.mem_map, List.mem_map]
      simp only [mem_shownTerms]
      rfl
    refine ⟨Terms.keys_ext fun m => by rw [hkey, hkey, h], fun m c d hc hd => ?_⟩
    have hshown : ShownTerm.ofTerm (m, c) ∈ b.shownTerms.map ShownTerm.ofTerm :=
      h ▸ List.mem_map_of_mem ((hmem a m c).1 hc)
    obtain ⟨⟨n, x⟩, ht, heq⟩ := List.mem_map.1 hshown
    obtain rfl : n = m := congrArg ShownTerm.monomial heq
    obtain rfl : x = d := Option.some.inj (((hmem b n x).2 ht).symm.trans hd)
    exact ofTerm_eq_iff.1 heq.symm
  · rintro ⟨hkeys, halike⟩
    have hfound (e : Expr Float) {m : Monomial} (hm : m ∈ e.pruned.terms.keys) :
        e.pruned.get? m = some (e.pruned.coefficient m) := by
      obtain ⟨c, hc⟩ := Option.isSome_iff_exists.1 (Terms.mem_keys_iff.1 hm)
      have hget : e.pruned.get? m = some c := hc
      unfold coefficient
      rw [hget]
      rfl
    have hentries : a.pruned.terms.entries.map ShownTerm.ofTerm =
        b.pruned.terms.entries.map ShownTerm.ofTerm := by
      rw [map_entries, map_entries, ← hkeys]
      refine List.map_congr_left fun m hm => ofTerm_eq_iff.2 ?_
      exact halike m _ _ (hfound a hm) (hfound b (hkeys ▸ hm))
    rw [map_shownTerms, map_shownTerms, hentries]

theorem words_ne_nil (e : Expr Float) : e.words ≠ [] :=
  List.append_ne_nil_of_left_ne_nil
    (List.append_ne_nil_of_right_ne_nil _ (polynomialWords_ne_nil e.shownTerms)) _

theorem Legible.blank_notMem {e : Expr Float} (he : e.Legible) :
    ∀ w ∈ e.words, ' ' ∉ w.toList := by
  intro w hw
  have haround := (around_wordsAround e.lower e.upper).blank_notMem
  rcases List.mem_append.1 hw with hw | hw
  · rcases List.mem_append.1 hw with hw | hw
    · exact haround.1 w hw
    · exact fun hc => (plain_polynomialWords he.readable w hw ' ' hc).1 rfl
  · exact haround.2 w hw

/-- **Expressions with the same text** are those that are shown alike. -/
theorem text_eq_iff_shownAlike (ha : a.Legible) (hb : b.Legible) :
    a.text = b.text ↔ a.ShownAlike b := by
  constructor
  · intro h
    rw [text_eq_intercalate, text_eq_intercalate] at h
    have hwords : a.words = b.words :=
      eq_of_intercalate_eq rfl a.words_ne_nil b.words_ne_nil ha.blank_notMem hb.blank_notMem h
    obtain ⟨haround, hrows⟩ := eq_of_around_append_eq (around_wordsAround _ _)
      (around_wordsAround _ _) (plain_polynomialWords ha.readable)
      (plain_polynomialWords hb.readable) hwords
    have hbounds := congrArg readBounds haround
    rw [readBounds_wordsAround, readBounds_wordsAround] at hbounds
    obtain ⟨hshape, hsides⟩ := Prod.mk.inj hbounds
    obtain ⟨hlower, hupper⟩ := Prod.mk.inj hsides
    obtain ⟨hkeys, halike⟩ :=
      map_shownTerms_eq_iff.1 (eq_of_polynomialWords_eq ha.readable hb.readable hrows)
    exact ⟨hkeys, halike, hshape, hlower, hupper⟩
  · intro h
    have hshown := map_shownTerms_eq_iff.2 ⟨h.keys, h.coefficients⟩
    have haround : wordsAround a.lower a.upper = wordsAround b.lower b.upper := by
      unfold wordsAround
      rw [h.shape, h.lower, h.upper]
    rw [text_eq_intercalate, text_eq_intercalate]
    unfold words
    rw [haround, hshown]

/-! ## Zeros and the constant -/

/-- **Zeros never show.** -/
theorem text_pruned (e : Expr Float) : e.pruned.text = e.text := by
  have hpruned : e.pruned.pruned = e.pruned := by
    refine Expr.ext (Terms.ext ?_) rfl rfl
    exact List.filter_eq_self.2 fun t ht => (List.mem_filter.1 ht).2
  have hshown : e.pruned.shownTerms = e.shownTerms := by
    rw [shownTerms_eq, shownTerms_eq, hpruned]
  unfold text
  rw [hshown]
  rfl

/-- A constant that is not zero is shown behind the other terms. -/
theorem shownTerms_of_constant {e : Expr Float} {k : Float} (hk : e.pruned.get? 1 = some k) :
    e.shownTerms = e.withoutConstant.shownTerms ++ [(1, k)] := by
  have hconstant : (e.pruned.terms.entries.filter fun t => t.1.isConstant) = [(1, k)] := by
    have hget : e.pruned.terms.get? 1 = some k := hk
    rw [Terms.filter_isConstant, hget]
    rfl
  have hothers : e.withoutConstant.pruned.terms.entries =
      e.pruned.terms.entries.filter fun t => !t.1.isConstant := by
    show (e.terms.entries.filter fun t => t.1 != 1).filter (fun t => t.2 != 0) =
      (e.terms.entries.filter fun t => t.2 != 0).filter fun t => !t.1.isConstant
    rw [List.filter_filter, List.filter_filter]
    refine List.filter_congr fun t _ => ?_
    have hkey : (t.1 != 1) = !t.1.isConstant := by
      rw [bne, Bool.not_inj_iff, Bool.eq_iff_iff, beq_iff_eq, Monomial.isConstant_iff]
    rw [hkey, Bool.and_comm]
  have hnone : ((e.pruned.terms.entries.filter fun t => !t.1.isConstant).filter
      fun t => t.1.isConstant) = [] :=
    List.filter_eq_nil_iff.2 fun t ht hc => by simp [hc] at ht
  rw [shownTerms_eq e, shownTerms_eq e.withoutConstant, hothers, hconstant, hnone,
    List.append_nil, List.filter_eq_self.2 fun t ht => (List.mem_filter.1 ht).2]

/-- The polynomial up to the digits of its constant. -/
def upToConstant (e : Expr Float) (k : Float) : String :=
  match e.withoutConstant.shownTerms with
  | [] => if k < 0 then "-" else ""
  | t :: ts => polynomialText (t :: ts) ++ if k < 0 then " - " else " + "

/-- **The constant comes last**, just before the bound behind the polynomial. -/
theorem text_of_constant {e : Expr Float} {k : Float} (hk : e.pruned.get? 1 = some k) :
    e.text = (boundTexts e.lower e.upper).1 ++ e.upToConstant k ++ numberText k.abs ++
      (boundTexts e.lower e.upper).2 := by
  have hpolynomial : polynomialText (e.withoutConstant.shownTerms ++ [(1, k)]) =
      e.upToConstant k ++ numberText k.abs := by
    unfold upToConstant
    cases e.withoutConstant.shownTerms with
    | nil => exact String.append_empty
    | cons t ts =>
        have hrest : restText (ts ++ [(1, k)]) =
            restText ts ++ ((if k < 0 then " - " else " + ") ++ numberText k.abs) := by
          unfold restText
          rw [List.map_append, String.join_append]
          exact congrArg (_ ++ ·) (String.join_cons.trans String.append_empty)
        show (if t.2 < 0 then "-" else "") ++ termText t.1 t.2 ++ restText (ts ++ [(1, k)]) =
          (if t.2 < 0 then "-" else "") ++ termText t.1 t.2 ++ restText ts ++
            (if k < 0 then " - " else " + ") ++ numberText k.abs
        rw [hrest]
        simp only [String.append_assoc]
  have htext : e.text = (boundTexts e.lower e.upper).1 ++ polynomialText e.shownTerms ++
      (boundTexts e.lower e.upper).2 := rfl
  rw [htext, shownTerms_of_constant hk, hpolynomial]
  simp only [String.append_assoc]

/-- **Texts are unambiguous.** Two expressions of identifiers and of coefficients that
twelve places can show have the same text exactly if they have the same monomials when
pruned, at each of them coefficients that are shown alike, and bounds of the same layout
with the same texts. Whatever the names and the numbers are, zeros never show, and the
constant comes last. -/
theorem text_unambiguous (a b : Expr Float) :
    (a.Legible → b.Legible → (a.text = b.text ↔ a.ShownAlike b)) ∧
    a.pruned.text = a.text ∧
    ∀ k, a.pruned.get? 1 = some k →
      a.text = (boundTexts a.lower a.upper).1 ++ a.upToConstant k ++ numberText k.abs ++
        (boundTexts a.lower a.upper).2 :=
  ⟨text_eq_iff_shownAlike, text_pruned a, fun _ => text_of_constant⟩

/-- `2 - u + 0.5 * u * v + 0 * w`, equal to three. -/
def withStoredZero : Expr Float where
  terms := ⟨[(1, 2), (.single ⟨"u"⟩, -1), (⟨[⟨"u"⟩, ⟨"v"⟩], by decide⟩, 0.5),
    (.single ⟨"w"⟩, 0)], by decide⟩
  lower := some 3
  upper := some 3

/-- The same without the zero, and with a coefficient that is a half only when rounded. -/
def roundedToHalf : Expr Float where
  terms := ⟨[(1, 2), (.single ⟨"u"⟩, -1), (⟨[⟨"u"⟩, ⟨"v"⟩], by decide⟩, 0.5000000000001)],
    by decide⟩
  lower := some 3
  upper := some 3

theorem text_unambiguous_roundedToHalf :
    withStoredZero.Legible ∧ roundedToHalf.Legible ∧
    withStoredZero.text = "-u + 0.5 u*v + 2 == 3" ∧ withStoredZero.ShownAlike roundedToHalf ∧
    withStoredZero.pruned.text = withStoredZero.text ∧
    withStoredZero.pruned.get? 1 = some 2 ∧
    withStoredZero.text = "" ++ withStoredZero.upToConstant 2 ++ numberText 2 ++ " == 3" := by
  obtain ⟨halike, hpruned, hlast⟩ := text_unambiguous withStoredZero roundedToHalf
  have hzero : withStoredZero.Legible := ⟨by decide +kernel, by decide +kernel, by decide +kernel⟩
  have hhalf : roundedToHalf.Legible := ⟨by decide +kernel, by decide +kernel, by decide +kernel⟩
  have htext : withStoredZero.text = "-u + 0.5 u*v + 2 == 3" := by decide +kernel
  have hsame : withStoredZero.text = roundedToHalf.text := by decide +kernel
  have hconstant : withStoredZero.pruned.get? 1 = some 2 := by decide +kernel
  have haround : boundTexts (some 3) (some 3) = ("", " == 3") := by decide +kernel
  have hend := hlast 2 hconstant
  rw [show boundTexts withStoredZero.lower withStoredZero.upper = ("", " == 3") from haround,
    show (2 : Float).abs = 2 by decide +kernel] at hend
  exact ⟨hzero, hhalf, htext, (halike hzero hhalf).1 hsame, hpruned, hconstant, hend⟩

end Expr

end PolyRow
