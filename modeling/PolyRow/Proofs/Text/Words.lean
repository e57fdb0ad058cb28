import Mathlib
import PolyRow.Proofs.Text.Numbers

/-!
# The words of a text

The text of an expression is a row of words with single blanks between them: numbers,
monomials, and the signs of terms and bounds. A minus sign before the first term is the
only thing that is joined to the word behind it. Written with words, the text is a
function of what is shown of each term and of the bounds, and of nothing else in the
expression.

No word has a blank in it, so the words are found again in the text; how the terms and
the bounds are found again in the words is said in `PolyRow.Proofs.Text.Reading`.

## Main results

* `Expr.text_eq_intercalate`: a text is its words with blanks between them.
* `Text.eq_of_intercalate_eq`: words without separators are found again.
* `Text.eq_and_eq_of_append_eq`: so is the place where a row of words goes over into
  another one.
-/

namespace PolyRow

namespace Text

/-! ## Rows of words -/

/-- **Words without separators are found again** in the text that joins them. -/
theorem eq_of_intercalate_eq {sep : String} {x : Char} (hsep : sep.toList = [x])
    {ws vs : List String} (hws : ws ≠ []) (hvs : vs ≠ []) (hw : ∀ w ∈ ws, x ∉ w.toList)
    (hv : ∀ w ∈ vs, x ∉ w.toList) (h : sep.intercalate ws = sep.intercalate vs) : ws = vs := by
  have hsplit {us : List String} (hus : us ≠ []) (hu : ∀ w ∈ us, x ∉ w.toList) :
      (sep.intercalate us).toList.splitOn x = us.map String.toList := by
    rw [String.toList_intercalate, hsep]
    refine List.splitOn_intercalate x (List.forall_mem_map.2 hu) ?_
    simpa using hus
  have hlists : ws.map String.toList = vs.map String.toList := by
    rw [← hsplit hws hw, h, hsplit hvs hv]
  exact List.map_injective_iff.2 (fun _ _ => String.toList_injective) hlists

/-- A row of words that is empty or begins with a word of some kind. -/
def Opens (p : String → Prop) (ws : List String) : Prop := ∀ w ∈ ws.head?, p w

/-- **A row is found again in front of another one** if the second one opens with a kind of
word that does not occur in the first. -/
theorem eq_and_eq_of_append_eq {p : String → Prop} {ws vs rs ss : List String}
    (hws : ∀ w ∈ ws, ¬ p w) (hvs : ∀ w ∈ vs, ¬ p w) (hrs : Opens p rs) (hss : Opens p ss)
    (h : ws ++ rs = vs ++ ss) : ws = vs ∧ rs = ss := by
  induction ws generalizing vs with
  | nil =>
      cases vs with
      | nil => exact ⟨rfl, h⟩
      | cons v vs =>
          have hv : p v := hrs v (by rw [show rs = v :: (vs ++ ss) from h]; rfl)
          exact absurd hv (hvs v List.mem_cons_self)
  | cons w ws ih =>
      cases vs with
      | nil =>
          have hw : p w := hss w (by rw [← show w :: (ws ++ rs) = ss from h]; rfl)
          exact absurd hw (hws w List.mem_cons_self)
      | cons v vs =>
          obtain ⟨rfl, hrest⟩ := List.cons.inj h
          obtain ⟨rfl, hback⟩ := ih (fun u hu => hws u (List.mem_cons_of_mem _ hu))
            (fun u hu => hvs u (List.mem_cons_of_mem _ hu)) hrest
          exact ⟨rfl, hback⟩

/-- Joins a text to the first word of a row. -/
def attach (front : String) : List String → List String
  | [] => []
  | w :: ws => (front ++ w) :: ws

theorem intercalate_attach {sep front : String} {ws : List String} (hws : ws ≠ []) :
    sep.intercalate (attach front ws) = front ++ sep.intercalate ws := by
  match ws, hws with
  | [w], _ => simp only [attach, String.intercalate_singleton]
  | w :: v :: ws, _ => simp only [attach, String.intercalate_cons_cons, String.append_assoc]

end Text

namespace Expr

open Text (attach intercalate_attach)

/-! ## What is shown of a term -/

/-- What the text shows of a term. -/
structure ShownTerm where
  /-- The monomial, which is not written if it is the empty product. -/
  monomial : Monomial
  /-- Whether the sign is a minus. -/
  negative : Bool
  /-- The text of the magnitude, unless the magnitude is one and a monomial follows. -/
  number : Option String

namespace ShownTerm

/-- Whether a monomial stands without the text of the magnitude. -/
def isBare (m : Monomial) (c : Float) : Bool := !m.isConstant && c.abs == 1

/-- What is shown of a coefficient at a monomial. -/
def ofTerm (t : Monomial × Float) : ShownTerm where
  monomial := t.1
  negative := decide (t.2 < 0)
  number := if isBare t.1 t.2 then none else some (numberText t.2.abs)

/-- The word of the monomial, if it has one. -/
def names (s : ShownTerm) : List String :=
  if s.monomial.isConstant then [] else [toString s.monomial]

/-- The words of a term without its sign. -/
def words (s : ShownTerm) : List String := s.number.toList ++ s.names

/-- The word in front of a term that is not the first. -/
def sign (s : ShownTerm) : String := if s.negative then "-" else "+"

/-- What is joined to the first term. -/
def front (s : ShownTerm) : String := if s.negative then "-" else ""

/-- The words of a term in one of its three forms. -/
theorem words_ofTerm (m : Monomial) (c : Float) :
    (ofTerm (m, c)).words =
      if m.isConstant then [numberText c.abs]
      else if c.abs == 1 then [toString m]
      else [numberText c.abs, toString m] := by
  have hwords : (ofTerm (m, c)).words =
      (if isBare m c then none else some (numberText c.abs)).toList ++
        if m.isConstant then [] else [toString m] := rfl
  rw [hwords, isBare]
  cases m.isConstant with
  | true => rfl
  | false =>
      cases c.abs == 1 with
      | true => rfl
      | false => rfl

theorem words_ofTerm_ne_nil (t : Monomial × Float) : (ofTerm t).words ≠ [] := by
  rw [words_ofTerm]
  split
  · exact List.cons_ne_nil _ _
  · split <;> exact List.cons_ne_nil _ _

theorem intercalate_words (m : Monomial) (c : Float) :
    " ".intercalate (ofTerm (m, c)).words = termText m c := by
  have htext : termText m c =
      if m.isConstant then numberText c.abs
      else if c.abs == 1 then toString m else numberText c.abs ++ " " ++ toString m := rfl
  rw [words_ofTerm, htext]
  cases m.isConstant with
  | true => exact String.intercalate_singleton
  | false =>
      cases c.abs == 1 with
      | true => exact String.intercalate_singleton
      | false =>
          show " ".intercalate [numberText c.abs, toString m] = _ ++ " " ++ _
          rw [String.intercalate_cons_cons, String.intercalate_singleton]

end ShownTerm

/-! ## Polynomials -/

/-- The words of terms that follow another one. -/
def restWords (ss : List ShownTerm) : List String := ss.flatMap fun s => s.sign :: s.words

/-- The words of a polynomial. -/
def polynomialWords : List ShownTerm → List String
  | [] => ["0"]
  | s :: rest => attach s.front (s.words ++ restWords rest)

theorem polynomialWords_ne_nil (ts : List (Monomial × Float)) :
    polynomialWords (ts.map ShownTerm.ofTerm) ≠ [] := by
  cases ts with
  | nil => exact List.cons_ne_nil _ _
  | cons t rest =>
      obtain ⟨w, ws, hwords⟩ :=
        List.exists_cons_of_ne_nil (ShownTerm.words_ofTerm_ne_nil t)
      show attach (ShownTerm.ofTerm t).front ((ShownTerm.ofTerm t).words ++
        restWords (rest.map ShownTerm.ofTerm)) ≠ []
      rw [hwords]
      exact List.cons_ne_nil _ _

/-- Terms that follow are written behind whatever there is. -/
theorem intercalate_append_restWords {ws : List String} (hws : ws ≠ [])
    (ts : List (Monomial × Float)) :
    " ".intercalate (ws ++ restWords (ts.map ShownTerm.ofTerm)) =
      " ".intercalate ws ++ restText ts := by
  induction ts generalizing ws with
  | nil =>
      show " ".intercalate (ws ++ []) = " ".intercalate ws ++ ""
      rw [List.append_nil, String.append_empty]
  | cons t rest ih =>
      obtain ⟨m, c⟩ := t
      have hrow : ws ++ restWords (((m, c) :: rest).map ShownTerm.ofTerm) =
          (ws ++ (ShownTerm.ofTerm (m, c)).sign :: (ShownTerm.ofTerm (m, c)).words) ++
            restWords (rest.map ShownTerm.ofTerm) := by
        rw [List.append_assoc]
        rfl
      have hsign : " " ++ (ShownTerm.ofTerm (m, c)).sign ++ " " =
          if c < 0 then " - " else " + " := by
        unfold ShownTerm.sign
        show " " ++ (if decide (c < 0) = true then "-" else "+") ++ " " = _
        by_cases hc : c < 0
        · rw [if_pos (decide_eq_true hc), if_pos hc]
          rfl
        · rw [if_neg (by simpa using hc), if_neg hc]
          rfl
      have hterm : restText ((m, c) :: rest) =
          (if c < 0 then " - " else " + ") ++ termText m c ++ restText rest :=
        String.join_cons
      rw [hrow, ih (List.append_ne_nil_of_left_ne_nil hws _),
        String.intercalate_append_of_ne_nil hws (List.cons_ne_nil _ _),
        String.intercalate_cons_of_ne_nil (ShownTerm.words_ofTerm_ne_nil _),
        ShownTerm.intercalate_words, hterm, ← hsign]
      simp only [String.append_assoc]

theorem polynomialText_eq_intercalate (ts : List (Monomial × Float)) :
    polynomialText ts = " ".intercalate (polynomialWords (ts.map ShownTerm.ofTerm)) := by
  cases ts with
  | nil => exact String.intercalate_singleton.symm
  | cons t rest =>
      obtain ⟨m, c⟩ := t
      have hwords := ShownTerm.words_ofTerm_ne_nil (m, c)
      have hfront : (ShownTerm.ofTerm (m, c)).front = if c < 0 then "-" else "" := by
        show (if decide (c < 0) = true then "-" else "") = _
        simp only [decide_eq_true_eq]
      show (if c < 0 then "-" else "") ++ termText m c ++ restText rest =
        " ".intercalate (attach (ShownTerm.ofTerm (m, c)).front
          ((ShownTerm.ofTerm (m, c)).words ++ restWords (rest.map ShownTerm.ofTerm)))
      rw [intercalate_attach (List.append_ne_nil_of_left_ne_nil hwords _),
        intercalate_append_restWords hwords, ShownTerm.intercalate_words, hfront,
        String.append_assoc]

/-! ## Bounds -/

/-- How bounds are laid out. -/
inductive BoundShape where
  | unbounded
  | atMost
  | atLeast
  | equal
  | range
deriving DecidableEq

/-- The layout of a lower and an upper bound. Two bounds that are equal numbers are one. -/
def boundShape : Option Float → Option Float → BoundShape
  | none, none => .unbounded
  | none, some _ => .atMost
  | some _, none => .atLeast
  | some l, some u => if l != u then .range else .equal

/-- The words before and after the polynomial, from the layout and the texts of the
bounds. -/
def boundWords : BoundShape → Option String → Option String → List String × List String
  | .atMost, _, some u => ([], ["<=", u])
  | .atLeast, some l, _ => ([], [">=", l])
  | .equal, _, some u => ([], ["==", u])
  | .range, some l, some u => ([l, "<="], ["<=", u])
  | _, _, _ => ([], [])

/-- The words around a polynomial between bounds. -/
def wordsAround (lower upper : Option Float) : List String × List String :=
  boundWords (boundShape lower upper) (lower.map numberText) (upper.map numberText)

variable {l u : Float}

theorem wordsAround_range (h : (l != u) = true) :
    wordsAround (some l) (some u) = ([numberText l, "<="], ["<=", numberText u]) := by
  have hshape : boundShape (some l) (some u) = .range := if_pos h
  unfold wordsAround
  rw [hshape]
  rfl

theorem wordsAround_equal (h : ¬ (l != u) = true) :
    wordsAround (some l) (some u) = ([], ["==", numberText u]) := by
  have hshape : boundShape (some l) (some u) = .equal := if_neg h
  unfold wordsAround
  rw [hshape]
  rfl

/-- A row between the words around it is the text between the texts around it. -/
theorem intercalate_wordsAround (lower upper : Option Float) {ws : List String} (hws : ws ≠ []) :
    " ".intercalate ((wordsAround lower upper).1 ++ ws ++ (wordsAround lower upper).2) =
      (boundTexts lower upper).1 ++ " ".intercalate ws ++ (boundTexts lower upper).2 := by
  have hbehind (sign number : String) : " ".intercalate ([] ++ ws ++ [sign, number]) =
      "" ++ " ".intercalate ws ++ (" " ++ sign ++ " " ++ number) := by
    rw [List.nil_append, String.intercalate_append_of_ne_nil hws (List.cons_ne_nil _ _),
      String.intercalate_cons_cons, String.intercalate_singleton, String.empty_append]
    simp only [String.append_assoc]
  cases lower with
  | none =>
      cases upper with
      | none =>
          show " ".intercalate ([] ++ ws ++ []) = "" ++ " ".intercalate ws ++ ""
          rw [List.nil_append, List.append_nil, String.empty_append, String.append_empty]
      | some u => exact hbehind "<=" (numberText u)
  | some l =>
      cases upper with
      | none => exact hbehind ">=" (numberText l)
      | some u =>
          by_cases hlu : (l != u) = true
          · have htexts : boundTexts (some l) (some u) =
                (numberText l ++ " <= ", " <= " ++ numberText u) := if_pos hlu
            rw [wordsAround_range hlu, htexts]
            show " ".intercalate (numberText l :: "<=" :: ([] ++ ws ++ ["<=", numberText u])) =
              numberText l ++ (" " ++ "<=" ++ " ") ++ " ".intercalate ws ++
                (" " ++ "<=" ++ " " ++ numberText u)
            have hrow : [] ++ ws ++ ["<=", numberText u] ≠ [] :=
              List.append_ne_nil_of_left_ne_nil hws _
            rw [String.intercalate_cons_cons, String.intercalate_cons_of_ne_nil hrow, hbehind,
              String.empty_append]
            simp only [String.append_assoc]
          · have htexts : boundTexts (some l) (some u) = ("", " == " ++ numberText u) :=
              if_neg hlu
            rw [wordsAround_equal hlu, htexts]
            exact hbehind "==" (numberText u)

/-! ## Expressions -/

/-- The words of an expression. -/
def words (e : Expr Float) : List String :=
  (wordsAround e.lower e.upper).1 ++ polynomialWords (e.shownTerms.map ShownTerm.ofTerm) ++
    (wordsAround e.lower e.upper).2

/-- **A text is its words with blanks between them.** -/
theorem text_eq_intercalate (e : Expr Float) : e.text = " ".intercalate e.words := by
  unfold words
  rw [intercalate_wordsAround _ _ (polynomialWords_ne_nil _), ← polynomialText_eq_intercalate]
  rfl

end Expr

end PolyRow
