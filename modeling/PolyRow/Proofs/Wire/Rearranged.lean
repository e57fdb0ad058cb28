import Mathlib
import PolyRow.Proofs.Canonical.Listing
import PolyRow.Proofs.Wire.Accepted

/-!
# Rearranged values

The same expression can be written in many ways: with the factors of a term in another
order, with the members of an object in another order, and with members that nobody asks for.
Values that differ in no more than this are rearranged, wherever in the value they differ.

A reader that looks into a value hands its parts to other readers, so one step of a
rearrangement is followed through all of them at once. Two values read alike if they are the
same to every reader there is. Each step keeps values alike, whatever is around them, and so
does any number of steps.

## Main results

* `Json.Reordered.of_perm`: members with distinct keys may stand in any order.
* `Json.Rearranged.readsAlike`: rearranged values read alike.
* `Expr.ofJson?_positional`: the array of the fields of an expression.
* `Operand.ofJson_classifies`: what becomes of a value that is offered as an operand.
-/

namespace PolyRow

namespace Json

variable {a b c d : Json} {xs ys : List Json} {ms ns : List (String × Json)}

/-! ## Rearrangements -/

/-- Members change places, but not with members of the same key. -/
def Reordered (ms ns : List (String × Json)) : Prop :=
  ∀ key, (ms.filter fun m => m.1 = key) = ns.filter fun m => m.1 = key

/-- The keys under which the fields of an expression stand. -/
def fieldKeys : List String := ["terms", "lower", "upper"]

/-- Values that differ in the order of factors, in the order of members and in members that
are no fields, here or anywhere inside. -/
inductive Rearranged : Json → Json → Prop
  | refl (a : Json) : Rearranged a a
  | symm {a b : Json} (h : Rearranged a b) : Rearranged b a
  | trans {a b c : Json} (hab : Rearranged a b) (hbc : Rearranged b c) : Rearranged a c
  /-- The factors of a term change places. -/
  | factors {xs ys : List Json} (n : Number) (h : xs.Perm ys) :
      Rearranged (.array [.array xs, .number n]) (.array [.array ys, .number n])
  | members {ms ns : List (String × Json)} (h : Reordered ms ns) :
      Rearranged (.object ms) (.object ns)
  /-- A member is added that is no field. -/
  | unknown (ms ns : List (String × Json)) {key : String} (v : Json) (h : key ∉ fieldKeys) :
      Rearranged (.object (ms ++ ns)) (.object (ms ++ (key, v) :: ns))
  | inItem (xs ys : List Json) {a b : Json} (h : Rearranged a b) :
      Rearranged (.array (xs ++ a :: ys)) (.array (xs ++ b :: ys))
  | inMember (ms ns : List (String × Json)) (key : String) {a b : Json} (h : Rearranged a b) :
      Rearranged (.object (ms ++ (key, a) :: ns)) (.object (ms ++ (key, b) :: ns))

/-- **Members with distinct keys may stand in any order.** -/
theorem Reordered.of_perm (hperm : ms.Perm ns) (hdistinct : (ms.map Prod.fst).Nodup) :
    Reordered ms ns := by
  intro key
  -- No two members have the key, so there is no order to be kept.
  have hsingle {l : List (String × Json)} (hl : (l.map Prod.fst).Nodup) :
      (l.filter fun m => m.1 = key).Pairwise fun _ _ => False := by
    refine ((List.pairwise_map.1 hl).filter _).imp_of_mem ?_
    intro m m' hm hm' hne
    have hkey : m.1 = key := of_decide_eq_true (List.mem_filter.1 hm).2
    have hkey' : m'.1 = key := of_decide_eq_true (List.mem_filter.1 hm').2
    exact hne (hkey.trans hkey'.symm)
  exact (hperm.filter _).eq_of_pairwise (fun _ _ _ _ h => h.elim) (hsingle hdistinct)
    (hsingle ((hperm.map _).nodup_iff.1 hdistinct))

/-- The member with a key is the same one in any such order. -/
theorem Reordered.member?_eq (h : Reordered ms ns) (key : String) :
    member? ms key = member? ns key := by
  rw [← member?_filter ms, h key, member?_filter ns]

/-! ## Values that read alike -/

/-- Two values are the same to every reader. -/
structure ReadsAlike (a b : Json) : Prop where
  operand : Operand.ofJson a = Operand.ofJson b
  terms : termsOfJson? a = termsOfJson? b
  term : termOfJson? a = termOfJson? b
  monomial : Monomial.ofJson? a = Monomial.ofJson? b
  factor : Variable.ofJson? a = Variable.ofJson? b
  number : a.toFloat? = b.toFloat?
  bound : toOptionalFloat? (some a) = toOptionalFloat? (some b)

namespace ReadsAlike

theorem refl (a : Json) : ReadsAlike a a := ⟨rfl, rfl, rfl, rfl, rfl, rfl, rfl⟩

theorem symm (h : ReadsAlike a b) : ReadsAlike b a :=
  ⟨h.1.symm, h.2.symm, h.3.symm, h.4.symm, h.5.symm, h.6.symm, h.7.symm⟩

theorem trans (hab : ReadsAlike a b) (hbc : ReadsAlike b c) : ReadsAlike a c :=
  ⟨hab.1.trans hbc.1, hab.2.trans hbc.2, hab.3.trans hbc.3, hab.4.trans hbc.4,
    hab.5.trans hbc.5, hab.6.trans hbc.6, hab.7.trans hbc.7⟩

theorem rel_refl (o : Option Json) : Option.Rel ReadsAlike o o := by
  cases o with
  | none => exact .none
  | some a => exact .some (refl a)

private theorem mapM_congr {β : Type} {read : Json → Option β}
    (h : List.Forall₂ (fun a b => read a = read b) xs ys) : xs.mapM read = ys.mapM read := by
  induction h with
  | nil => rfl
  | cons hab _ ih => rw [List.mapM_cons, List.mapM_cons, hab, ih]

private theorem termOfJson?_pair_congr (hm : Monomial.ofJson? a = Monomial.ofJson? b)
    (hc : c.toFloat? = d.toFloat?) : termOfJson? (.array [a, c]) = termOfJson? (.array [b, d]) := by
  simp only [termOfJson?, hm, hc]

/-- Arrays of items that read alike read alike. -/
theorem array (h : List.Forall₂ ReadsAlike xs ys) : ReadsAlike (.array xs) (.array ys) where
  operand := rfl
  terms := mapM_congr (h.imp fun _ _ hab => hab.term)
  term := by
    match h with
    | .cons hm (.cons hc .nil) => exact termOfJson?_pair_congr hm.monomial hc.number
    | .nil | .cons _ .nil | .cons _ (.cons _ (.cons _ _)) => rfl
  monomial := congrArg (Option.map Monomial.ofList) (mapM_congr (h.imp fun _ _ hab => hab.factor))
  factor := rfl
  number := rfl
  bound := rfl

private theorem ofFields?_congr {t t' l l' u u' : Option Json} (ht : Option.Rel ReadsAlike t t')
    (hl : Option.Rel ReadsAlike l l') (hu : Option.Rel ReadsAlike u u') :
    Expr.ofFields? t l u = Expr.ofFields? t' l' u' := by
  have hbound {o o' : Option Json} (ho : Option.Rel ReadsAlike o o') :
      toOptionalFloat? o = toOptionalFloat? o' := by
    cases ho with
    | none => rfl
    | some h => exact h.bound
  have hterms : (t.bind termsOfJson?) = t'.bind termsOfJson? := by
    cases ht with
    | none => rfl
    | some h => exact h.terms
  unfold Expr.ofFields?
  simp only [Option.bind_eq_bind, ← Option.bind_assoc, hterms, hbound hl, hbound hu]

/-- Objects of which the fields read alike read alike. -/
theorem object (h : ∀ key ∈ fieldKeys, Option.Rel ReadsAlike (member? ms key) (member? ns key)) :
    ReadsAlike (.object ms) (.object ns) where
  operand := by
    have hmembers : Expr.ofMembers? ms = Expr.ofMembers? ns :=
      ofFields?_congr (h _ (by decide)) (h _ (by decide)) (h _ (by decide))
    rw [Operand.ofJson_object, hmembers]
    rfl
  terms := rfl
  term := rfl
  monomial := rfl
  factor := rfl
  number := rfl
  bound := rfl

/-- Terms with rearranged factors read alike. -/
theorem factors (n : Number) (h : xs.Perm ys) :
    ReadsAlike (.array [.array xs, .number n]) (.array [.array ys, .number n]) where
  operand := rfl
  terms := by
    have hnone (zs : List Json) : [Json.array zs, .number n].mapM termOfJson? = none := by
      rw [List.mapM_cons, List.mapM_cons]
      cases termOfJson? (.array zs) <;> rfl
    exact (hnone xs).trans (hnone ys).symm
  term := termOfJson?_pair_congr (Monomial.ofJson?_of_perm h) rfl
  monomial := rfl
  factor := rfl
  number := rfl
  bound := rfl

end ReadsAlike

/-- **Rearranged values read alike.** -/
theorem Rearranged.readsAlike (h : Rearranged a b) : ReadsAlike a b := by
  induction h with
  | refl a => exact .refl a
  | symm _ ih => exact ih.symm
  | trans _ _ ihab ihbc => exact ihab.trans ihbc
  | factors n hperm => exact .factors n hperm
  | members h =>
      refine .object fun key _ => ?_
      rw [h.member?_eq key]
      exact ReadsAlike.rel_refl _
  | @unknown ms ns key' v hunknown =>
      refine .object fun key hkey => ?_
      have hne : key' ≠ key := fun heq => hunknown (heq ▸ hkey)
      rw [member?_append, member?_append, member?_cons, if_neg hne, Option.or_none]
      exact ReadsAlike.rel_refl _
  | inItem xs ys _ ih =>
      have hsame (zs : List Json) : List.Forall₂ ReadsAlike zs zs :=
        List.forall₂_same.2 fun z _ => .refl z
      exact .array (List.rel_append (hsame xs) (.cons ih (hsame ys)))
  | inMember ms ns key' _ ih =>
      refine .object fun key _ => ?_
      rw [member?_append, member?_append, member?_cons, member?_cons]
      cases member? ns key with
      | some v => exact ReadsAlike.rel_refl _
      | none =>
          rw [Option.none_or, Option.none_or]
          split_ifs
          · exact .some ih
          · exact ReadsAlike.rel_refl _

end Json

open Json

/-! ## The fields of an expression as an array -/

/-- **An array of the fields means what the object of the fields means**, with fields left
off the end if they are missing. -/
theorem Expr.ofJson?_positional (terms lower upper : Json) :
    Expr.ofJson? (.array [terms]) = Expr.ofJson? (.object [("terms", terms)]) ∧
    Expr.ofJson? (.array [terms, lower]) =
      Expr.ofJson? (.object [("terms", terms), ("lower", lower)]) ∧
    Expr.ofJson? (.array [terms, lower, upper]) =
      Expr.ofJson? (.object [("terms", terms), ("lower", lower), ("upper", upper)]) := by
  exact ⟨rfl, rfl, rfl⟩

namespace Operand

/-- Expressions are accepted as operands if they are objects. -/
theorem ofJson_eq_ok_expr_iff {j : Json} {e : Expr Float} :
    ofJson j = .ok (.expr e) ↔ (∃ members, j = .object members) ∧ Expr.ofJson? j = some e := by
  cases j with
  | object members =>
      show ofJson (.object members) = .ok (.expr e) ↔ _ ∧ Expr.ofMembers? members = some e
      rw [ofJson_object]
      cases Expr.ofMembers? members <;> simp
  | null | bool _ | number _ | string _ | array _ => simp [ofJson]

/-- **Every value is an operand or an error that names its kind.** It is an operand if it
stands for one, and that one. To a whole number no finite double is nearer than its own. An
expression that is accepted is an object that the reader of expressions accepts, and its
entries are in canonical form, also where they are read into bare lists, which do not enforce
it. Rearranged values have one outcome. The array of the fields of an expression means the
same as their object to the reader of expressions, and is refused here. -/
theorem ofJson_classifies (j : Json) :
    (∀ o, ofJson j = .ok o ↔ StandsFor j o) ∧
    (∀ e, ofJson j = .error e ↔ (∀ o, ¬ StandsFor j o) ∧ e = .unsupportedOperand (kindOf j) ∧
      (kindOf j).label = j.kindName ∧ j.kindName ∈ ["null", "bool", "array", "object"]) ∧
    (∀ k x, j = .number (.integer k) → fitsWord k = true → ofJson j = .ok (.scalar x) →
      ∃ p : Rat, Double.number x = .finite p ∧ ∀ (y : Float) (r : Rat),
        Double.number y = .finite r → |(k : Rat) - p| ≤ |(k : Rat) - r|) ∧
    (∀ e, ofJson j = .ok (.expr e) →
      PlainOperand.ofJson? j = some (.expr e.listing) ∧ e.listing.Canonical ∧
        (∃ members, j = .object members) ∧ Expr.ofJson? j = some e) ∧
    (∀ j', Rearranged j j' → ofJson j' = ofJson j) ∧
    ∀ terms lower upper,
      Expr.ofJson? (.array [terms, lower, upper]) =
        Expr.ofJson? (.object [("terms", terms), ("lower", lower), ("upper", upper)]) ∧
      ofJson (.array [terms, lower, upper]) = .error (.unsupportedOperand .array) := by
  refine ⟨fun o => ofJson_eq_ok_iff, fun e => ?_, ?_, fun e he => ?_,
    fun j' h => h.readsAlike.operand.symm, fun terms lower upper => ?_⟩
  · rw [ofJson_eq_error_iff]
    constructor
    · rintro ⟨hnone, he⟩
      exact ⟨hnone, he, label_kindOf j, kindName_mem_of_refused hnone⟩
    · rintro ⟨hnone, he, -⟩
      exact ⟨hnone, he⟩
  · rintro k x rfl hword hread
    cases ofJson_eq_ok_iff.1 hread with
    | scalar hx => exact hx.nearest hword
  · have hbare : PlainOperand.ofJson? j = some (.expr e.listing) := by
      rw [← listing_ofJson, he]
      rfl
    exact ⟨hbare, e.canonical_listing, ofJson_eq_ok_expr_iff.1 he⟩
  · exact ⟨(Expr.ofJson?_positional terms lower upper).2.2, rfl⟩

/-- A product that is listed twice, with its factors in either order, a bound and a
remark. -/
def remarkedProduct : Json :=
  .object [("remark", .bool true),
    ("terms", .array [.array [.array [.string "y", .string "x"], .number (.integer 2)],
      .array [.array [.string "x", .string "y"], .number (.integer 3)]]),
    ("upper", .number (.integer 7)), ("lower", .null)]

/-- The same with all factors in order and the bound in front, and without the remark. -/
def plainProduct : Json :=
  .object [("upper", .number (.integer 7)),
    ("terms", .array [.array [.array [.string "x", .string "y"], .number (.integer 2)],
      .array [.array [.string "x", .string "y"], .number (.integer 3)]]),
    ("lower", .null)]

theorem ofJson_classifies_remarkedProduct :
    ofJson remarkedProduct = .ok (.expr ((Expr.ofFactors
      [([⟨"y"⟩, ⟨"x"⟩], 2), ([⟨"x"⟩, ⟨"y"⟩], 3)]).withBounds none (some 7))) ∧
    ((Expr.ofFactors [([(⟨"y"⟩ : Variable), ⟨"x"⟩], (2 : Float)), ([⟨"x"⟩, ⟨"y"⟩], 3)]).withBounds
      none (some 7)).listing.Canonical ∧
    Rearranged remarkedProduct plainProduct ∧ ofJson plainProduct = ofJson remarkedProduct := by
  have hinteger (k : Int) : (Number.integer k).Denotes (Float.ofInt k) :=
    Number.toFloat_eq_iff.1 rfl
  have hstands : StandsFor remarkedProduct (.expr ((Expr.ofFactors
      [([⟨"y"⟩, ⟨"x"⟩], 2), ([⟨"x"⟩, ⟨"y"⟩], 3)]).withBounds none (some 7))) :=
    .expression (member?_eq_some_iff.1 rfl)
      (.cons (.pair [⟨"y"⟩, ⟨"x"⟩] (hinteger 2)) (.cons (.pair [⟨"x"⟩, ⟨"y"⟩] (hinteger 3)) .nil))
      (.null (member?_eq_some_iff.1 rfl)) (.number (member?_eq_some_iff.1 rfl) (hinteger 7))
  have hrearranged : Rearranged remarkedProduct plainProduct := by
    refine (Rearranged.unknown [] _ (.bool true) (by decide)).symm.trans ?_
    refine (Rearranged.members (.of_perm (.swap _ _ _) (by decide))).trans ?_
    exact .inMember [_] _ "terms" (.inItem [] _ (.factors (.integer 2) (.swap _ _ _)))
  obtain ⟨hread, -, -, hexpr, hsame, -⟩ := ofJson_classifies remarkedProduct
  have hok := (hread _).2 hstands
  exact ⟨hok, (hexpr _ hok).2.1, hrearranged, hsame _ hrearranged⟩

end Operand

end PolyRow
