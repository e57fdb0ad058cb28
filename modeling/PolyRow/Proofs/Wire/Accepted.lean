import Mathlib
import PolyRow.Proofs.Algebra.Merging
import PolyRow.Proofs.Double.Candidates
import PolyRow.Proofs.Wire.InRange

/-!
# What is accepted

What a JSON value stands for is said here without a reader. A number stands for the double
nearest to it, a text for the variable of that name. A term is an array of names with a
number behind it. An object stands for an expression if it has an array of terms, and a
number, `null` or nothing for either bound. No other value stands for anything.

A reader looks at one part after the other and gives up at the first that it cannot read.
That it finds what is said here, and always finds it, is shown part by part, each as an
equivalence.

## Main results

* `Json.member?_eq_some_iff`, `Json.member?_eq_none_iff`: the member with a key.
* `Json.Number.toFloat_eq_iff`, `Json.Number.Denotes.nearest`: the double nearest to a number.
* `termsOfJson?_eq_some_iff`, `Expr.ofMembers?_eq_some_iff`: terms and expressions.
* `Operand.ofJson_eq_ok_iff`, `Operand.ofJson_eq_error_iff`: operands, and the errors.
-/

namespace PolyRow

namespace Json

/-! ## Members -/

variable {members : List (String × Json)} {key : String} {v : Json}

/-- No member has the key. -/
def Lacks (members : List (String × Json)) (key : String) : Prop := ∀ m ∈ members, m.1 ≠ key

/-- A member has the key and the value, and it is the last one with the key. -/
def Holds (members : List (String × Json)) (key : String) (v : Json) : Prop :=
  ∃ before after, members = before ++ (key, v) :: after ∧ Lacks after key

theorem member?_eq_none_iff : member? members key = none ↔ Lacks members key := by
  unfold member? Lacks
  simp only [List.lookup_eq_none_iff, List.mem_reverse, bne_iff_ne, ne_comm]

/-- **The last member with a key counts.** -/
theorem member?_eq_some_iff : member? members key = some v ↔ Holds members key v := by
  unfold member? Holds Lacks
  rw [List.lookup_eq_some_iff]
  constructor
  · rintro ⟨after, before, hmembers, hafter⟩
    refine ⟨before.reverse, after.reverse, ?_, fun m hm => ?_⟩
    · rw [← List.reverse_reverse members, hmembers]
      simp
    · exact (bne_iff_ne.1 (hafter m (List.mem_reverse.1 hm))).symm
  · rintro ⟨before, after, rfl, hafter⟩
    refine ⟨after.reverse, before.reverse, by simp, fun m hm => ?_⟩
    exact bne_iff_ne.2 (hafter m (List.mem_reverse.1 hm)).symm

theorem member?_append (ms ns : List (String × Json)) (key : String) :
    member? (ms ++ ns) key = (member? ns key).or (member? ms key) := by
  unfold member?
  rw [List.reverse_append, List.lookup_append]

theorem member?_cons (k : String) (v : Json) (ms : List (String × Json)) (key : String) :
    member? ((k, v) :: ms) key = (member? ms key).or (if k = key then some v else none) := by
  have hsingle : member? [(k, v)] key = if k = key then some v else none := by
    split_ifs with hk
    · exact member?_eq_some_iff.2 ⟨[], [], by rw [hk]; rfl, List.forall_mem_nil _⟩
    · exact member?_eq_none_iff.2 (List.forall_mem_singleton.2 hk)
  rw [← hsingle]
  exact member?_append [(k, v)] ms key

/-- Only the members with a key matter for it. -/
theorem member?_filter (ms : List (String × Json)) (key : String) :
    member? (ms.filter fun m => m.1 = key) key = member? ms key := by
  induction ms with
  | nil => rfl
  | cons m rest ih =>
      obtain ⟨k, v⟩ := m
      by_cases hk : k = key
      · rw [List.filter_cons_of_pos (by simpa using hk), member?_cons, member?_cons, ih]
      · rw [List.filter_cons_of_neg (by simpa using hk), ih, member?_cons, if_neg hk, Option.or_none]

/-! ## Numbers -/

/-- The double that a number stands for: the nearest one to a whole number, where zero has
no sign. -/
def Number.Denotes : Number → Float → Prop
  | .integer k, x => Double.number x = Double.nearest k ∧ x ≠ -0
  | .double y, x => x = y

/-- A whole number is no negative zero. -/
private theorem ofInt_ne_negZero (k : Int) : Float.ofInt k ≠ -0 := by
  intro hzero
  by_cases hk : k = 0
  · rw [hk] at hzero
    exact absurd hzero (by decide +kernel)
  · have hone : (1 : Rat) ≤ |(k : Rat)| := by exact_mod_cast Int.one_le_abs hk
    have hleast : (2 : Rat) ^ (-1074 : Int) ≤ |(k : Rat)| :=
      (zpow_le_one_of_nonpos₀ one_le_two (by decide)).trans hone
    refine Double.nearest_ne_zero hleast ?_
    rw [← Double.number_ofInt, hzero]
    rfl

/-- **A number is read as the double nearest to it.** -/
theorem Number.toFloat_eq_iff {n : Number} {x : Float} : n.toFloat = x ↔ n.Denotes x := by
  cases n with
  | double y => exact eq_comm
  | integer k =>
      constructor
      · rintro rfl
        exact ⟨Double.number_ofInt k, ofInt_ne_negZero k⟩
      · rintro ⟨hnearest, hx⟩
        have hnumber : Double.number (Float.ofInt k) = Double.number x :=
          (Double.number_ofInt k).trans hnearest.symm
        by_cases hzero : Double.number x = .finite 0
        · have hofInt := Double.eq_zero_or_of_number (hnumber.trans hzero)
          rw [(Double.eq_zero_or_of_number hzero).resolve_right hx]
          exact hofInt.resolve_right (ofInt_ne_negZero k)
        · exact Double.eq_of_number_eq hnumber (hnumber ▸ hzero)

/-- A whole number that fits into a machine word stands for a finite double, and no other
finite double is nearer to it. -/
theorem Number.Denotes.nearest {k : Int} {x : Float} (h : (Number.integer k).Denotes x)
    (hword : fitsWord k = true) :
    ∃ p : Rat, Double.number x = .finite p ∧
      ∀ (y : Float) (r : Rat), Double.number y = .finite r → |(k : Rat) - p| ≤ |(k : Rat) - r| := by
  have hinRange : (Number.integer k).InRange := hword
  obtain ⟨p, hp⟩ := Double.isFinite_iff.1 hinRange.isFinite
  rw [toFloat_eq_iff.2 h] at hp
  exact ⟨p, hp, fun y r => Double.abs_sub_nearest_le (h.1.symm.trans hp)⟩

theorem toFloat?_eq_some_iff {j : Json} {x : Float} :
    j.toFloat? = some x ↔ ∃ n, j = .number n ∧ n.Denotes x := by
  cases j with
  | number n => simp [toFloat?, Number.toFloat_eq_iff]
  | null | bool _ | string _ | array _ | object _ => simp [toFloat?]

end Json

/-! ## Terms -/

section Terms

open Json

variable {α β : Type}

/-- A list is read if each item is. -/
theorem mapM_eq_some_iff {read : α → Option β} {as : List α} {bs : List β} :
    as.mapM read = some bs ↔ List.Forall₂ (fun a b => read a = some b) as bs := by
  induction as generalizing bs with
  | nil => simp [List.forall₂_nil_left_iff, eq_comm]
  | cons a rest ih =>
      rw [List.mapM_cons, List.forall₂_cons_left_iff]
      simp only [← ih]
      cases read a with
      | none => simp
      | some b => cases rest.mapM read <;> simp [eq_comm]

/-- An array of names with a number behind it: the factors and the coefficient of a term. -/
inductive ListsTerm : Json → List Variable × Float → Prop
  | pair (xs : List Variable) {n : Number} {c : Float} (hc : n.Denotes c) :
      ListsTerm (.array [.array (xs.map fun x => .string x.name), .number n]) (xs, c)

theorem Variable.ofJson?_eq_some_iff {j : Json} {x : Variable} :
    Variable.ofJson? j = some x ↔ j = .string x.name := by
  cases j with
  | string s =>
      cases x
      simp [Variable.ofJson?, toText?]
  | null | bool _ | number _ | array _ | object _ => simp [Variable.ofJson?, toText?]

/-- **A monomial is read from the names of its factors**, in any order. -/
theorem Monomial.ofJson?_eq_some_iff {j : Json} {m : Monomial} : Monomial.ofJson? j = some m ↔
    ∃ xs : List Variable, j = .array (xs.map fun x => .string x.name) ∧ m = .ofList xs := by
  cases j with
  | array items =>
      have hnames (xs : List Variable) : items.mapM Variable.ofJson? = some xs ↔
          items = xs.map fun x => .string x.name := by
        simp only [mapM_eq_some_iff, Variable.ofJson?_eq_some_iff]
        rw [← List.forall₂_eq_eq_eq, List.forall₂_map_right_iff]
      simp [Monomial.ofJson?, Option.map_eq_some_iff, hnames, eq_comm]
  | null | bool _ | number _ | string _ | object _ => simp [Monomial.ofJson?]

/-- The names may stand in any order. -/
theorem Monomial.ofJson?_of_perm {items items' : List Json} (h : items.Perm items') :
    Monomial.ofJson? (.array items) = Monomial.ofJson? (.array items') := by
  have hread {items items' : List Json} (h : items.Perm items') {m : Monomial}
      (hm : Monomial.ofJson? (.array items) = some m) :
      Monomial.ofJson? (.array items') = some m := by
    obtain ⟨xs, hxs, rfl⟩ := Monomial.ofJson?_eq_some_iff.1 hm
    rw [array.inj hxs] at h
    -- A rearrangement of the names names a rearrangement of the factors.
    obtain ⟨ys, hys, hperm⟩ : ∃ ys : List Variable,
        (items' = ys.map fun x => .string x.name) ∧ ys.Perm xs :=
      (congrFun₂ (List.eq_map_comp_perm _) items' xs).mpr h.symm
    exact Monomial.ofJson?_eq_some_iff.2
      ⟨ys, congrArg Json.array hys, Monomial.ofList_eq_of_perm hperm.symm⟩
  exact Option.ext fun m => ⟨hread h, hread h.symm⟩

theorem listsTerm_iff {j : Json} {xs : List Variable} {c : Float} : ListsTerm j (xs, c) ↔
    ∃ n, j = .array [.array (xs.map fun x => .string x.name), .number n] ∧ n.Denotes c := by
  constructor
  · intro h
    cases h with
    | pair _ hc => exact ⟨_, rfl, hc⟩
  · rintro ⟨n, rfl, hc⟩
    exact .pair xs hc

/-- **A term is read from a pair** of names and a number. -/
theorem termOfJson?_eq_some_iff {j : Json} {t : Monomial × Float} : termOfJson? j = some t ↔
    ∃ xs, ListsTerm j (xs, t.2) ∧ t.1 = .ofList xs := by
  obtain ⟨m, c⟩ := t
  simp only [listsTerm_iff]
  match j with
  | .array [names, coefficient] =>
      simp only [termOfJson?, bind, Option.bind_eq_some_iff, Monomial.ofJson?_eq_some_iff,
        toFloat?_eq_some_iff, pure, Option.some.injEq, Prod.mk.injEq, array.injEq, List.cons.injEq]
      constructor
      · rintro ⟨m, ⟨xs, rfl, rfl⟩, c, ⟨n, rfl, hc⟩, rfl, rfl⟩
        exact ⟨xs, ⟨n, ⟨rfl, rfl, trivial⟩, hc⟩, rfl⟩
      · rintro ⟨xs, ⟨n, ⟨rfl, rfl, -⟩, hc⟩, rfl⟩
        exact ⟨_, ⟨xs, rfl, rfl⟩, c, ⟨n, rfl, hc⟩, rfl, rfl⟩
  | .array [] | .array [_] | .array (_ :: _ :: _ :: _) => simp [termOfJson?]
  | .null | .bool _ | .number _ | .string _ | .object _ => simp [termOfJson?]

/-- **Terms are read from an array** of which every item is a term. -/
theorem termsOfJson?_eq_some_iff {j : Json} {ts : List (Monomial × Float)} :
    termsOfJson? j = some ts ↔
      ∃ items us, j = .array items ∧ List.Forall₂ ListsTerm items us ∧
        ts = us.map fun t => (.ofList t.1, t.2) := by
  cases j with
  | array items =>
      show items.mapM termOfJson? = some ts ↔ _
      rw [mapM_eq_some_iff]
      simp only [termOfJson?_eq_some_iff, array.injEq, ↓existsAndEq, true_and]
      constructor
      · intro h
        induction h with
        | nil => exact ⟨[], .nil, rfl⟩
        | @cons item t items ts hitem _ ih =>
            obtain ⟨xs, hterm, hmonomial⟩ := hitem
            obtain ⟨us, hus, rfl⟩ := ih
            exact ⟨(xs, t.2) :: us, .cons hterm hus, by rw [List.map_cons, ← hmonomial]⟩
      · rintro ⟨us, hus, rfl⟩
        rw [List.forall₂_map_right_iff]
        exact hus.imp fun item t hterm => ⟨t.1, hterm, rfl⟩
  | null | bool _ | number _ | string _ | object _ => simp [termsOfJson?]

end Terms

/-! ## Expressions -/

section Expressions

open Json

variable {members : List (String × Json)} {key : String} {b : Option Float} {e : Expr Float}

/-- The bound that an object gives under a key: none if the key is missing or has `null`. -/
inductive GivesBound (members : List (String × Json)) (key : String) : Option Float → Prop
  | missing (h : Lacks members key) : GivesBound members key none
  | null (h : Holds members key .null) : GivesBound members key none
  | number {n : Number} {c : Float} (h : Holds members key (.number n)) (hc : n.Denotes c) :
      GivesBound members key (some c)

/-- **A bound is read from nothing, `null` or a number.** -/
theorem toOptionalFloat?_eq_some_iff :
    toOptionalFloat? (member? members key) = some b ↔ GivesBound members key b := by
  constructor
  · intro h
    cases hmember : member? members key with
    | none =>
        rw [hmember] at h
        obtain rfl := Option.some.inj h
        exact .missing (member?_eq_none_iff.1 hmember)
    | some j =>
        have hholds := member?_eq_some_iff.1 hmember
        rw [hmember] at h
        cases j with
        | null =>
            obtain rfl := Option.some.inj h
            exact .null hholds
        | number n =>
            obtain rfl := Option.some.inj h
            exact .number hholds (Number.toFloat_eq_iff.1 rfl)
        | bool _ | string _ | array _ | object _ => exact nomatch h
  · intro h
    cases h with
    | missing h =>
        rw [member?_eq_none_iff.2 h]
        rfl
    | null h =>
        rw [member?_eq_some_iff.2 h]
        rfl
    | number h hc =>
        rw [member?_eq_some_iff.2 h]
        exact congrArg (some ∘ some) (Number.toFloat_eq_iff.2 hc)

/-- **An expression is read from an array of terms and two bounds**, which an object has
among its members. -/
theorem Expr.ofMembers?_eq_some_iff : Expr.ofMembers? members = some e ↔
    ∃ items ts l u, Holds members "terms" (.array items) ∧ List.Forall₂ ListsTerm items ts ∧
      GivesBound members "lower" l ∧ GivesBound members "upper" u ∧
      e = (Expr.ofFactors ts).withBounds l u := by
  unfold Expr.ofMembers? Expr.ofFields?
  simp only [bind, Option.bind_eq_some_iff, member?_eq_some_iff, termsOfJson?_eq_some_iff,
    toOptionalFloat?_eq_some_iff, pure, Option.some.injEq]
  constructor
  · rintro ⟨_, hterms, _, ⟨items, ts, rfl, hlisted, rfl⟩, l, hl, u, hu, rfl⟩
    exact ⟨items, ts, l, u, hterms, hlisted, hl, hu, rfl⟩
  · rintro ⟨items, ts, l, u, hterms, hlisted, hl, hu, rfl⟩
    exact ⟨_, hterms, _, ⟨items, ts, rfl, hlisted, rfl⟩, l, hl, u, hu, rfl⟩

end Expressions

/-! ## Operands -/

namespace Json

/-- The operand that a value stands for, if it stands for one. -/
inductive StandsFor : Json → Operand Float → Prop
  | scalar {n : Number} {x : Float} (h : n.Denotes x) : StandsFor (.number n) (.scalar x)
  | name (s : String) : StandsFor (.string s) (.variable ⟨s⟩)
  | expression {members : List (String × Json)} {items : List Json}
      {ts : List (List Variable × Float)} {l u : Option Float}
      (hterms : Holds members "terms" (.array items)) (hlisted : List.Forall₂ ListsTerm items ts)
      (hl : GivesBound members "lower" l) (hu : GivesBound members "upper" u) :
      StandsFor (.object members) (.expr ((Expr.ofFactors ts).withBounds l u))

/-- The name of the kind of a value. -/
def kindName : Json → String
  | .null => "null"
  | .bool _ => "bool"
  | .number _ => "number"
  | .string _ => "string"
  | .array _ => "array"
  | .object _ => "object"

end Json

namespace Operand

open Json

variable {j : Json} {o : Operand Float} {e : ExprError}

/-- Errors name the kind of the value. -/
theorem label_kindOf (j : Json) : (kindOf j).label = j.kindName := by
  cases j <;> rfl

/-- An object is an expression or it is refused. -/
theorem ofJson_object (members : List (String × Json)) :
    ofJson (.object members) = match Expr.ofMembers? members with
      | some e => .ok (.expr e)
      | none => .error (.unsupportedOperand .object) := rfl

/-- **An operand is read if the value stands for one**, and it is that operand. -/
theorem ofJson_eq_ok_iff : ofJson j = .ok o ↔ StandsFor j o := by
  constructor
  · intro h
    cases j with
    | number n =>
        obtain rfl := Except.ok.inj h
        exact .scalar (Number.toFloat_eq_iff.1 rfl)
    | string s =>
        obtain rfl := Except.ok.inj h
        exact .name s
    | object members =>
        rw [ofJson_object] at h
        cases hread : Expr.ofMembers? members with
        | none =>
            rw [hread] at h
            exact nomatch h
        | some e =>
            rw [hread] at h
            obtain rfl := Except.ok.inj h
            obtain ⟨items, ts, l, u, hterms, hlisted, hl, hu, rfl⟩ :=
              Expr.ofMembers?_eq_some_iff.1 hread
            exact .expression hterms hlisted hl hu
    | null | bool _ | array _ => exact nomatch h
  · intro h
    cases h with
    | scalar h => exact congrArg (Except.ok ∘ Operand.scalar) (Number.toFloat_eq_iff.2 h)
    | name s => rfl
    | expression hterms hlisted hl hu =>
        rw [ofJson_object, Expr.ofMembers?_eq_some_iff.2
          ⟨_, _, _, _, hterms, hlisted, hl, hu, rfl⟩]

/-- An error is no more than the kind of the value. -/
private theorem eq_unsupportedOperand (h : ofJson j = .error e) :
    e = .unsupportedOperand (kindOf j) := by
  cases j with
  | number n => exact nomatch h
  | string s => exact nomatch h
  | object members =>
      rw [ofJson_object] at h
      cases hread : Expr.ofMembers? members with
      | none =>
          rw [hread] at h
          exact (Except.error.inj h).symm
      | some e =>
          rw [hread] at h
          exact nomatch h
  | null | bool _ | array _ => exact (Except.error.inj h).symm

/-- Numbers and texts are never refused. -/
theorem kindName_mem_of_refused (h : ∀ o, ¬ StandsFor j o) :
    j.kindName ∈ ["null", "bool", "array", "object"] := by
  cases j with
  | number n => exact absurd (.scalar (Number.toFloat_eq_iff.1 rfl)) (h _)
  | string s => exact absurd (.name s) (h _)
  | null | bool _ | array _ | object _ => simp [kindName]

/-- **Any other value is refused**, and the error names its kind. -/
theorem ofJson_eq_error_iff : ofJson j = .error e ↔
    (∀ o, ¬ StandsFor j o) ∧ e = .unsupportedOperand (kindOf j) := by
  constructor
  · intro h
    refine ⟨fun o ho => ?_, eq_unsupportedOperand h⟩
    rw [ofJson_eq_ok_iff.2 ho] at h
    exact nomatch h
  · rintro ⟨hnone, rfl⟩
    cases hread : ofJson j with
    | ok o => exact absurd (ofJson_eq_ok_iff.1 hread) (hnone o)
    | error e => rw [eq_unsupportedOperand hread]

end Operand

end PolyRow
