import Mathlib
import PolyRow.Proofs.Text.Words

/-!
# Reading words back

What a word is can be told from how it begins, as long as names are identifiers and no
coefficient is so small that it is shown as zero: a number begins with a digit, a monomial
with a letter or an underscore, signs stand alone, and only the relation of a bound has an
equals sign in it. The first relation therefore ends the polynomial, or the lower bound of
a range; signs end the terms; and a word that is no number ends the number of a term. So
the words are taken apart from the outside inwards, with nothing left to choose.

## Main results

* `Monomial.eq_of_toString_eq`: a monomial is found again in its text.
* `Expr.eq_of_polynomialWords_eq`: terms are found again in the words of a polynomial.
* `Expr.eq_of_around_append_eq`: so are the words of the bounds around it.
* `Expr.readBounds_wordsAround`: and the bounds in those words.
-/

namespace PolyRow

/-! ## Words by how they begin -/

/-- A name of letters, digits and underscores that does not begin with a digit. -/
def Variable.isIdentifier (x : Variable) : Bool :=
  match x.name.toList with
  | [] => false
  | c :: cs => !c.isDigit && (c :: cs).all fun d => d.isAlphanum || d == '_'

namespace Text

/-- The first character, if there is one. -/
def first? (w : String) : Option Char := w.toList.head?

/-- Whether a word begins with a digit. -/
def isNumeric (w : String) : Bool := (first? w).any Char.isDigit

/-- A word that begins with no sign. -/
def Unsigned (w : String) : Prop := first? w ≠ some '+' ∧ first? w ≠ some '-'

instance (w : String) : Decidable (Unsigned w) :=
  inferInstanceAs (Decidable (first? w ≠ some '+' ∧ first? w ≠ some '-'))

/-- A word without blanks and equals signs. -/
def Plain (w : String) : Prop := ∀ c ∈ w.toList, c ≠ ' ' ∧ c ≠ '='

/-- A sign by itself. -/
def IsSign (w : String) : Prop := w = "+" ∨ w = "-"

/-- The relation of a bound. -/
def IsRelation (w : String) : Prop := w = "<=" ∨ w = ">=" ∨ w = "=="

theorem Unsigned.not_isSign {w : String} (h : Unsigned w) : ¬ IsSign w := by
  rintro (rfl | rfl)
  · exact h.1 rfl
  · exact h.2 rfl

theorem plain_of_toList_eq {w : String} {c : Char} (hw : w.toList = [c])
    (hc : c ≠ ' ' ∧ c ≠ '=') : Plain w := by
  intro d hd
  rw [hw] at hd
  exact List.mem_singleton.1 hd ▸ hc

theorem IsSign.plain {w : String} (h : IsSign w) : Plain w := by
  rcases h with rfl | rfl
  · exact plain_of_toList_eq (c := '+') rfl (by decide)
  · exact plain_of_toList_eq (c := '-') rfl (by decide)

theorem Plain.not_isRelation {w : String} (h : Plain w) : ¬ IsRelation w := by
  rintro (rfl | rfl | rfl)
  · exact (h '=' (.tail _ (.head _))).2 rfl
  · exact (h '=' (.tail _ (.head _))).2 rfl
  · exact (h '=' (.head _)).2 rfl

/-- What can stand in a name or in a number is neither a sign nor a separator. -/
theorem ne_of_isAlphanum_or {c : Char} (h : c.isAlphanum = true ∨ c = '_') :
    c ≠ ' ' ∧ c ≠ '=' ∧ c ≠ '*' ∧ c ≠ '+' ∧ c ≠ '-' := by
  refine ⟨?_, ?_, ?_, ?_, ?_⟩ <;> rintro rfl <;> revert h <;> decide

theorem unsigned_of_first? {w : String} {c : Char} (hw : first? w = some c)
    (hc : c.isAlphanum = true ∨ c = '_') : Unsigned w := by
  obtain ⟨-, -, -, hplus, hminus⟩ := ne_of_isAlphanum_or hc
  constructor
  · rw [hw]
    exact fun h => hplus (Option.some.inj h)
  · rw [hw]
    exact fun h => hminus (Option.some.inj h)

/-- The characters of a row are those of its words and of the separator. -/
theorem mem_intercalate {sep : String} {ws : List String} {c : Char}
    (h : c ∈ (sep.intercalate ws).toList) : c ∈ sep.toList ∨ ∃ w ∈ ws, c ∈ w.toList := by
  induction ws with
  | nil => exact absurd h List.not_mem_nil
  | cons w ws ih =>
      cases ws with
      | nil =>
          rw [String.intercalate_singleton] at h
          exact .inr ⟨w, List.mem_cons_self, h⟩
      | cons v ws =>
          rw [String.intercalate_cons_cons, String.toList_append, String.toList_append,
            List.mem_append, List.mem_append] at h
          rcases h with (h | h) | h
          · exact .inr ⟨w, List.mem_cons_self, h⟩
          · exact .inl h
          · rcases ih h with hsep | ⟨u, hu, hc⟩
            · exact .inl hsep
            · exact .inr ⟨u, List.mem_cons_of_mem _ hu, hc⟩

/-- A row begins with its first word. -/
theorem first?_intercalate {sep w : String} {ws : List String} {c : Char}
    (hw : first? w = some c) : first? (sep.intercalate (w :: ws)) = some c := by
  unfold first? at hw ⊢
  cases ws with
  | nil => rw [String.intercalate_singleton, hw]
  | cons v ws =>
      rw [String.intercalate_cons_cons, String.toList_append, String.toList_append,
        List.head?_append, List.head?_append, hw]
      rfl

end Text

open Text

/-! ## Monomials -/

namespace Variable

theorem exists_first?_name {x : Variable} (hx : x.isIdentifier = true) :
    ∃ c, first? x.name = some c ∧ c.isDigit = false ∧ (c.isAlphanum = true ∨ c = '_') := by
  unfold isIdentifier at hx
  unfold first?
  cases hname : x.name.toList with
  | nil => rw [hname] at hx; exact absurd hx Bool.false_ne_true
  | cons c cs =>
      rw [hname] at hx
      simp only [List.all_cons, Bool.and_eq_true, Bool.not_eq_true', Bool.or_eq_true,
        beq_iff_eq] at hx
      exact ⟨c, rfl, hx.1, hx.2.1⟩

theorem mem_name {x : Variable} (hx : x.isIdentifier = true) {c : Char}
    (hc : c ∈ x.name.toList) : c.isAlphanum = true ∨ c = '_' := by
  unfold isIdentifier at hx
  cases hname : x.name.toList with
  | nil => rw [hname] at hx; exact absurd hx Bool.false_ne_true
  | cons d ds =>
      rw [hname] at hx hc
      have hall := List.all_eq_true.1 (Bool.and_eq_true_iff.1 hx).2 c hc
      simpa using hall

end Variable

namespace Monomial

/-- A monomial of identifiers. -/
def Named (m : Monomial) : Prop := ∀ x ∈ m.factors, x.isIdentifier = true

theorem toString_of_ne_one {m : Monomial} (hm : m.isConstant = false) :
    toString m = "*".intercalate (m.factors.map Variable.name) := by
  show (if m.isConstant then "1" else "*".intercalate (m.factors.map Variable.name)) = _
  rw [hm]
  rfl

variable {m n : Monomial} (hm : m.Named)

include hm

theorem exists_first?_toString (hvariables : m.isConstant = false) :
    ∃ c, first? (toString m) = some c ∧ c.isDigit = false ∧
      (c.isAlphanum = true ∨ c = '_') := by
  rw [toString_of_ne_one hvariables]
  obtain ⟨x, xs, hfactors⟩ := List.exists_cons_of_ne_nil (List.isEmpty_eq_false_iff.1 hvariables)
  obtain ⟨c, hfirst, hc⟩ := Variable.exists_first?_name (hm x (hfactors ▸ List.mem_cons_self))
  rw [hfactors]
  exact ⟨c, first?_intercalate hfirst, hc⟩

theorem plain_toString (hvariables : m.isConstant = false) : Plain (toString m) := by
  rw [toString_of_ne_one hvariables]
  intro c hc
  rcases mem_intercalate hc with hstar | ⟨w, hw, hc⟩
  · rw [List.mem_singleton.1 hstar]
    decide
  · obtain ⟨x, hx, rfl⟩ := List.mem_map.1 hw
    obtain ⟨hblank, hequals, -⟩ := ne_of_isAlphanum_or (Variable.mem_name (hm x hx) hc)
    exact ⟨hblank, hequals⟩

/-- **A monomial is found again in its text.** -/
theorem eq_of_toString_eq (hn : n.Named) (hvariables : m.isConstant = false)
    (hvariables' : n.isConstant = false) (h : toString m = toString n) : m = n := by
  have hne {k : Monomial} (hk : k.isConstant = false) : k.factors.map Variable.name ≠ [] := by
    simpa using List.isEmpty_eq_false_iff.1 hk
  have hstar {k : Monomial} (hk : k.Named) :
      ∀ w ∈ k.factors.map Variable.name, '*' ∉ w.toList := by
    intro w hw hc
    obtain ⟨x, hx, rfl⟩ := List.mem_map.1 hw
    exact (ne_of_isAlphanum_or (Variable.mem_name (hk x hx) hc)).2.2.1 rfl
  have hname : Function.Injective Variable.name := by
    rintro ⟨x⟩ ⟨y⟩ rfl
    rfl
  rw [toString_of_ne_one hvariables, toString_of_ne_one hvariables'] at h
  have hnames := eq_of_intercalate_eq rfl (hne hvariables) (hne hvariables') (hstar hm)
    (hstar hn) h
  exact Monomial.ext (List.map_injective_iff.2 hname hnames)

end Monomial

namespace Expr

/-! ## Terms -/

namespace ShownTerm

/-- A shown term whose words can be told apart. -/
structure Readable (s : ShownTerm) : Prop where
  named : s.monomial.Named
  words_ne_nil : s.words ≠ []
  isNumeric : ∀ w ∈ s.number, isNumeric w = true
  plain : ∀ w ∈ s.number, Plain w
  ne_zero : ∀ w ∈ s.number, w ≠ "0"

variable {s t : ShownTerm}

theorem of_mem_names {w : String} (hw : w ∈ s.names) :
    s.monomial.isConstant = false ∧ w = toString s.monomial := by
  unfold names at hw
  split at hw
  · exact absurd hw List.not_mem_nil
  · rename_i hconstant
    exact ⟨Bool.eq_false_iff.2 hconstant, List.mem_singleton.1 hw⟩

namespace Readable

theorem isNumeric_names (hs : s.Readable) : ∀ w ∈ s.names, Text.isNumeric w = false := by
  intro w hw
  obtain ⟨hvariables, rfl⟩ := of_mem_names hw
  obtain ⟨c, hfirst, hdigit, -⟩ := Monomial.exists_first?_toString hs.named hvariables
  unfold Text.isNumeric
  rw [hfirst]
  exact hdigit

theorem unsigned_words (hs : s.Readable) : ∀ w ∈ s.words, Unsigned w := by
  intro w hw
  rcases List.mem_append.1 hw with hw | hw
  · have hnumeric := hs.isNumeric w (Option.mem_toList.1 hw)
    obtain ⟨c, hfirst, hdigit⟩ := (Option.any_eq_true _ _).1 hnumeric
    exact unsigned_of_first? hfirst (.inl (by rw [Char.isAlphanum, hdigit, Bool.or_true]))
  · obtain ⟨hvariables, rfl⟩ := of_mem_names hw
    obtain ⟨c, hfirst, -, hc⟩ := Monomial.exists_first?_toString hs.named hvariables
    exact unsigned_of_first? hfirst hc

theorem plain_words (hs : s.Readable) : ∀ w ∈ s.words, Plain w := by
  intro w hw
  rcases List.mem_append.1 hw with hw | hw
  · exact hs.plain w (Option.mem_toList.1 hw)
  · obtain ⟨hvariables, rfl⟩ := of_mem_names hw
    exact Monomial.plain_toString hs.named hvariables

theorem words_ne_zero (hs : s.Readable) : ∀ w ∈ s.words, w ≠ "0" := by
  intro w hw
  rcases List.mem_append.1 hw with hw | hw
  · exact hs.ne_zero w (Option.mem_toList.1 hw)
  · rintro rfl
    exact absurd (hs.isNumeric_names "0" hw) (by decide)

theorem eq_of_names_eq (hs : s.Readable) (ht : t.Readable) (h : s.names = t.names) :
    s.monomial = t.monomial := by
  unfold names at h
  split at h <;> split at h
  · rename_i hconstant hconstant'
    rw [Monomial.isConstant_iff.1 hconstant, Monomial.isConstant_iff.1 hconstant']
  · exact nomatch h
  · exact nomatch h
  · rename_i hvariables hvariables'
    exact Monomial.eq_of_toString_eq hs.named ht.named (Bool.eq_false_iff.2 hvariables)
      (Bool.eq_false_iff.2 hvariables') (List.cons.inj h).1

/-- **A term is found again in its words and its sign.** The words that are numeric are its
number. -/
theorem eq_of_words_eq (hs : s.Readable) (ht : t.Readable) (hsign : s.negative = t.negative)
    (h : s.words = t.words) : s = t := by
  have hnumeric {u : ShownTerm} (hu : u.Readable) :
      ∀ w ∈ u.number.toList, ¬ Text.isNumeric w = false := by
    intro w hw
    rw [hu.isNumeric w (Option.mem_toList.1 hw)]
    decide
  have hopens {u : ShownTerm} (hu : u.Readable) :
      Opens (fun w => Text.isNumeric w = false) u.names :=
    fun w hw => hu.isNumeric_names w (List.mem_of_head? hw)
  obtain ⟨hnumbers, hnames⟩ :=
    eq_and_eq_of_append_eq (hnumeric hs) (hnumeric ht) (hopens hs) (hopens ht) h
  have hmonomial := hs.eq_of_names_eq ht hnames
  have hnumber : s.number = t.number := by
    refine Option.ext fun w => ?_
    rw [← Option.mem_toList, hnumbers, Option.mem_toList]
  cases s
  cases t
  obtain rfl := hmonomial
  obtain rfl := hsign
  obtain rfl := hnumber
  rfl

end Readable

/-- The sign in front of a row of words is found again. -/
theorem eq_of_front_append_eq {v w : String} (hv : Unsigned v)
    (hw : Unsigned w) (h : s.front ++ v = t.front ++ w) : s.negative = t.negative ∧ v = w := by
  have hminus {u : String} (hu : Unsigned u) {x : String} : "-" ++ x ≠ "" ++ u := by
    intro heq
    rw [String.empty_append] at heq
    exact hu.2 (heq ▸ by rw [first?, String.toList_append]; rfl)
  unfold front at h
  cases hs : s.negative <;> cases ht : t.negative <;> rw [hs, ht] at h
  · exact ⟨rfl, by simpa using h⟩
  · exact absurd h.symm (hminus hv)
  · exact absurd h (hminus hw)
  · exact ⟨rfl, by simpa using h⟩

theorem negative_eq_of_sign_eq (h : s.sign = t.sign) :
    s.negative = t.negative := by
  unfold sign at h
  cases hs : s.negative <;> cases ht : t.negative <;> rw [hs, ht] at h
  · exact absurd h (by decide)
  · exact absurd h (by decide)

theorem isSign_sign (s : ShownTerm) : IsSign s.sign := by
  unfold sign
  split
  · exact .inr rfl
  · exact .inl rfl

end ShownTerm

/-! ## Polynomials -/

section Polynomial

variable {s t : ShownTerm} {ss ts : List ShownTerm}

theorem opens_restWords : Opens IsSign (restWords ss) := by
  cases ss with
  | nil => exact fun w hw => nomatch hw
  | cons s ss =>
      intro w hw
      rw [← Option.some.inj hw]
      exact s.isSign_sign

/-- The words of a term end where the next sign stands. -/
theorem words_eq_of_append_restWords_eq (hs : s.Readable) (ht : t.Readable)
    (h : s.words ++ restWords ss = t.words ++ restWords ts) :
    s.words = t.words ∧ restWords ss = restWords ts :=
  eq_and_eq_of_append_eq (fun w hw => (hs.unsigned_words w hw).not_isSign)
    (fun w hw => (ht.unsigned_words w hw).not_isSign) opens_restWords opens_restWords h

theorem eq_of_restWords_eq (hss : ∀ s ∈ ss, s.Readable) (hts : ∀ t ∈ ts, t.Readable)
    (h : restWords ss = restWords ts) : ss = ts := by
  induction ss generalizing ts with
  | nil =>
      cases ts with
      | nil => rfl
      | cons t ts => exact nomatch h
  | cons s ss ih =>
      cases ts with
      | nil => exact nomatch h
      | cons t ts =>
          rw [List.forall_mem_cons] at hss hts
          have hcons : s.sign :: (s.words ++ restWords ss) =
              t.sign :: (t.words ++ restWords ts) := h
          obtain ⟨hsign, hrow⟩ := List.cons.inj hcons
          obtain ⟨hwords, hrest⟩ := words_eq_of_append_restWords_eq hss.1 hts.1 hrow
          rw [hss.1.eq_of_words_eq hts.1 (ShownTerm.negative_eq_of_sign_eq hsign) hwords,
            ih hss.2 hts.2 hrest]

/-- A polynomial with a term is not shown as zero. -/
theorem polynomialWords_cons_ne_zero (hs : s.Readable) : polynomialWords (s :: ss) ≠ ["0"] := by
  obtain ⟨w, ws, hwords⟩ := List.exists_cons_of_ne_nil hs.words_ne_nil
  have hw : w ∈ s.words := hwords ▸ List.mem_cons_self
  intro h
  have hrow : (s.front ++ w) :: (ws ++ restWords ss) = ["0"] := by
    rw [← h]
    show _ = attach s.front (s.words ++ restWords ss)
    rw [hwords]
    rfl
  have hzero : s.front ++ w = (ShownTerm.mk 1 false none).front ++ "0" :=
    (List.cons.inj hrow).1
  exact hs.words_ne_zero w hw (ShownTerm.eq_of_front_append_eq (hs.unsigned_words w hw)
    (by decide) hzero).2

/-- **Terms are found again in the words of a polynomial**, in their order. -/
theorem eq_of_polynomialWords_eq (hss : ∀ s ∈ ss, s.Readable) (hts : ∀ t ∈ ts, t.Readable)
    (h : polynomialWords ss = polynomialWords ts) : ss = ts := by
  cases ss with
  | nil =>
      cases ts with
      | nil => rfl
      | cons t ts =>
          exact absurd h.symm (polynomialWords_cons_ne_zero (hts t List.mem_cons_self))
  | cons s ss =>
      cases ts with
      | nil => exact absurd h (polynomialWords_cons_ne_zero (hss s List.mem_cons_self))
      | cons t ts =>
          rw [List.forall_mem_cons] at hss hts
          obtain ⟨v, vs, hv⟩ := List.exists_cons_of_ne_nil hss.1.words_ne_nil
          obtain ⟨w, ws, hw⟩ := List.exists_cons_of_ne_nil hts.1.words_ne_nil
          have hattached : attach s.front (s.words ++ restWords ss) =
              attach t.front (t.words ++ restWords ts) := h
          rw [hv, hw] at hattached
          obtain ⟨hfirst, hback⟩ := List.cons.inj hattached
          obtain ⟨hnegative, rfl⟩ := ShownTerm.eq_of_front_append_eq
            (hss.1.unsigned_words v (hv ▸ List.mem_cons_self))
            (hts.1.unsigned_words w (hw ▸ List.mem_cons_self)) hfirst
          have hrow : s.words ++ restWords ss = t.words ++ restWords ts := by
            rw [hv, hw]
            exact congrArg (v :: ·) hback
          obtain ⟨hwords, hrest⟩ := words_eq_of_append_restWords_eq hss.1 hts.1 hrow
          rw [hss.1.eq_of_words_eq hts.1 hnegative hwords,
            eq_of_restWords_eq hss.2 hts.2 hrest]

theorem plain_restWords (hss : ∀ s ∈ ss, s.Readable) : ∀ w ∈ restWords ss, Plain w := by
  intro w hw
  obtain ⟨s, hs, hw⟩ := List.mem_flatMap.1 hw
  rcases List.mem_cons.1 hw with rfl | hw
  · exact s.isSign_sign.plain
  · exact (hss s hs).plain_words w hw

theorem plain_polynomialWords (hss : ∀ s ∈ ss, s.Readable) :
    ∀ w ∈ polynomialWords ss, Plain w := by
  cases ss with
  | nil =>
      intro w hw
      rw [List.mem_singleton.1 hw]
      exact plain_of_toList_eq (c := '0') rfl (by decide)
  | cons s ss =>
      rw [List.forall_mem_cons] at hss
      have hrow : ∀ w ∈ s.words ++ restWords ss, Plain w := by
        intro w hw
        rcases List.mem_append.1 hw with hw | hw
        · exact hss.1.plain_words w hw
        · exact plain_restWords hss.2 w hw
      obtain ⟨v, vs, hv⟩ := List.exists_cons_of_ne_nil
        (List.append_ne_nil_of_left_ne_nil hss.1.words_ne_nil (restWords ss))
      intro w hw
      have hattached : w ∈ attach s.front (s.words ++ restWords ss) := hw
      rw [hv] at hattached hrow
      rcases List.mem_cons.1 hattached with rfl | hw
      · intro c hc
        rw [String.toList_append, List.mem_append] at hc
        rcases hc with hc | hc
        · unfold ShownTerm.front at hc
          split at hc
          · rw [List.mem_singleton.1 hc]
            decide
          · exact absurd hc List.not_mem_nil
        · exact hrow v List.mem_cons_self c hc
      · exact hrow w (List.mem_cons_of_mem _ hw)

end Polynomial

/-! ## Bounds -/

theorem plain_numberText (x : Float) : Plain (numberText x) := by
  intro c hc
  rcases mem_numberText hc with halphanum | rfl | rfl
  · obtain ⟨hblank, hequals, -⟩ := ne_of_isAlphanum_or (.inl halphanum)
    exact ⟨hblank, hequals⟩
  · decide
  · decide

/-- Words around a polynomial: a bound behind it, or one on either side. -/
inductive Around : List String × List String → Prop where
  | nothing : Around ([], [])
  | behind {r u : String} (hr : IsRelation r) (hu : Plain u) : Around ([], [r, u])
  | both {l u : String} (hl : Plain l) (hu : Plain u) : Around ([l, "<="], ["<=", u])

theorem around_wordsAround (lower upper : Option Float) : Around (wordsAround lower upper) := by
  cases lower with
  | none =>
      cases upper with
      | none => exact .nothing
      | some u => exact .behind (.inl rfl) (plain_numberText u)
  | some l =>
      cases upper with
      | none => exact .behind (.inr (.inl rfl)) (plain_numberText l)
      | some u =>
          by_cases hlu : (l != u) = true
          · rw [wordsAround_range hlu]
            exact .both (plain_numberText l) (plain_numberText u)
          · rw [wordsAround_equal hlu]
            exact .behind (.inr (.inr rfl)) (plain_numberText u)

/-- Without a bound in front there are two words at most behind, a relation first. -/
theorem Around.behind_cases {V : List String × List String} (h : Around V) :
    (V.1 = [] ∧ V.2.length ≤ 2 ∧ Opens IsRelation V.2) ∨
      ∃ l u, Plain l ∧ V = ([l, "<="], ["<=", u]) := by
  cases h with
  | nothing => exact .inl ⟨rfl, by decide, fun w hw => nomatch hw⟩
  | behind hr hu => exact .inl ⟨rfl, Nat.le_refl 2, fun w hw => Option.some.inj hw ▸ hr⟩
  | both hl hu => exact .inr ⟨_, _, hl, rfl⟩

theorem Around.blank_notMem {V : List String × List String} (h : Around V) :
    (∀ w ∈ V.1, ' ' ∉ w.toList) ∧ ∀ w ∈ V.2, ' ' ∉ w.toList := by
  have hplain {w : String} (hw : Plain w) : ' ' ∉ w.toList := fun hc => (hw ' ' hc).1 rfl
  have hrelation {w : String} (hw : IsRelation w) : ' ' ∉ w.toList := by
    rcases hw with rfl | rfl | rfl <;> decide
  have hpair {v w : String} (hv : ' ' ∉ v.toList) (hw : ' ' ∉ w.toList) :
      ∀ u ∈ [v, w], ' ' ∉ u.toList :=
    List.forall_mem_cons.2 ⟨hv, List.forall_mem_singleton.2 hw⟩
  have hnone : ∀ u ∈ ([] : List String), ' ' ∉ u.toList := fun _ hu => nomatch hu
  cases h with
  | nothing => exact ⟨hnone, hnone⟩
  | behind hr hu => exact ⟨hnone, hpair (hrelation hr) (hplain hu)⟩
  | both hl hu =>
      exact ⟨hpair (hplain hl) (hrelation (.inl rfl)), hpair (hrelation (.inl rfl)) (hplain hu)⟩

/-- **The words of the bounds are found again** around a polynomial: the first relation
stands behind the polynomial, or behind a single word if more than two words follow. -/
theorem eq_of_around_append_eq {V W : List String × List String} {ps qs : List String}
    (hV : Around V) (hW : Around W) (hps : ∀ w ∈ ps, Plain w) (hqs : ∀ w ∈ qs, Plain w)
    (h : V.1 ++ ps ++ V.2 = W.1 ++ qs ++ W.2) : V = W ∧ ps = qs := by
  have hfree {ws : List String} (hws : ∀ w ∈ ws, Plain w) : ∀ w ∈ ws, ¬ IsRelation w :=
    fun w hw => (hws w hw).not_isRelation
  have hone {l : String} (hl : Plain l) : ∀ w ∈ [l], Plain w := List.forall_mem_singleton.2 hl
  have hopens (ws : List String) : Opens IsRelation ("<=" :: ws) :=
    fun w hw => Option.some.inj hw ▸ .inl rfl
  -- A bound in front leaves more than two words behind the first relation.
  have hmixed {ws rs ss : List String} {l u : String} (hws : ∀ w ∈ ws, Plain w) (hl : Plain l)
      (hlength : ss.length ≤ 2) (hss : Opens IsRelation ss) :
      ws ++ ss ≠ [l] ++ ("<=" :: (rs ++ ["<=", u])) := by
    intro heq
    obtain ⟨-, rfl⟩ := eq_and_eq_of_append_eq (hfree hws) (hfree (hone hl)) hss (hopens _) heq
    simp at hlength
  obtain ⟨V₁, V₂⟩ := V
  obtain ⟨W₁, W₂⟩ := W
  rcases hV.behind_cases with ⟨rfl, hVlength, hVopens⟩ | ⟨l, u, hl, hVboth⟩
  · rcases hW.behind_cases with ⟨rfl, hWlength, hWopens⟩ | ⟨l', u', hl', hWboth⟩
    · obtain ⟨hrows, hbehind⟩ :=
        eq_and_eq_of_append_eq (hfree hps) (hfree hqs) hVopens hWopens h
      exact ⟨congrArg (Prod.mk []) hbehind, hrows⟩
    · obtain ⟨rfl, rfl⟩ := Prod.mk.inj hWboth
      exact absurd h (hmixed hps hl' hVlength hVopens)
  · obtain ⟨rfl, rfl⟩ := Prod.mk.inj hVboth
    rcases hW.behind_cases with ⟨rfl, hWlength, hWopens⟩ | ⟨l', u', hl', hWboth⟩
    · exact absurd h.symm (hmixed hqs hl hWlength hWopens)
    · obtain ⟨rfl, rfl⟩ := Prod.mk.inj hWboth
      have hfronts : [l] ++ ("<=" :: (ps ++ ["<=", u])) = [l'] ++ ("<=" :: (qs ++ ["<=", u'])) := h
      obtain ⟨hlower, hrest⟩ := eq_and_eq_of_append_eq (hfree (hone hl)) (hfree (hone hl'))
        (hopens _) (hopens _) hfronts
      obtain ⟨hrows, hbehind⟩ := eq_and_eq_of_append_eq (hfree hps) (hfree hqs) (hopens _)
        (hopens _) (List.cons.inj hrest).2
      obtain rfl := (List.cons.inj hlower).1
      exact ⟨congrArg (Prod.mk [l, "<="]) hbehind, hrows⟩

/-- The layout and the texts of bounds from the words around a polynomial. -/
def readBounds : List String × List String → BoundShape × Option String × Option String
  | ([], [r, u]) =>
    if r = "<=" then (.atMost, none, some u)
    else if r = ">=" then (.atLeast, some u, none)
    else (.equal, some u, some u)
  | ([l, _], [_, u]) => (.range, some l, some u)
  | _ => (.unbounded, none, none)

/-- **The layout and the texts of bounds are found again** in the words around a
polynomial. -/
theorem readBounds_wordsAround (lower upper : Option Float) :
    readBounds (wordsAround lower upper) =
      (boundShape lower upper, lower.map numberText, upper.map numberText) := by
  cases lower with
  | none =>
      cases upper with
      | none => rfl
      | some u => rfl
  | some l =>
      cases upper with
      | none => rfl
      | some u =>
          by_cases hlu : (l != u) = true
          · have hshape : boundShape (some l) (some u) = .range := if_pos hlu
            rw [wordsAround_range hlu, hshape]
            rfl
          · have hshape : boundShape (some l) (some u) = .equal := if_neg hlu
            have hequal : numberText l = numberText u :=
              numberText_eq_of_beq (by simpa [bne] using hlu)
            rw [wordsAround_equal hlu, hshape]
            show (BoundShape.equal, some (numberText u), some (numberText u)) =
              (BoundShape.equal, some (numberText l), some (numberText u))
            rw [hequal]

end Expr

end PolyRow
