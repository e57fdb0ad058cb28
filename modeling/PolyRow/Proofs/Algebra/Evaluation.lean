import Mathlib
import PolyRow.Proofs.Exact.Value

/-!
# Evaluation as a scan

Evaluation passes over the terms in order of their monomials and over the factors of each,
and asks for a value at every factor. The first factor without a value ends it, whatever
the coefficient in front. If there is none, every product and every sum is taken from the
left, which over doubles is what the result depends on. So an assignment matters only at
the variables that occur, and only a missing one makes evaluation fail.

## Main results

* `Expr.missing?_eq_none_iff`, `Expr.missing?_eq_some_iff`: the first variable without a
  value.
* `Expr.evaluate_of_missing`, `Expr.evaluate_of_covers`: the two ways in which a scan ends.
* `Expr.evaluate_congr`: only the variables that occur are asked for.
* `Expr.evaluate_scan`: all of this in one statement.
-/

namespace PolyRow

variable {κ : Type}

/-! ## The factors of one monomial -/

namespace Monomial

/-- The first factor that has no value. -/
def missing? (f : Variable → Option κ) (m : Monomial) : Option Variable :=
  m.factors.find? fun x => (f x).isNone

variable {f g : Variable → Option κ} {m : Monomial}

theorem missing?_eq_none_iff : m.missing? f = none ↔ ∀ x ∈ m.factors, f x ≠ none := by
  unfold missing?
  simp only [List.find?_eq_none, Option.isNone_iff_eq_none, ne_eq]

theorem missing?_eq_some_iff {x : Variable} : m.missing? f = some x ↔
    ∃ before behind, m.factors = before ++ x :: behind ∧ f x = none ∧
      ∀ y ∈ before, f y ≠ none := by
  unfold missing?
  rw [List.find?_eq_some_iff_append, Option.isNone_iff_eq_none]
  simp only [Bool.not_eq_true', ← Bool.not_eq_true, Option.isNone_iff_eq_none]
  constructor
  · rintro ⟨hx, before, behind, hfactors, hbefore⟩
    exact ⟨before, behind, hfactors, hx, hbefore⟩
  · rintro ⟨before, behind, hfactors, hx, hbefore⟩
    exact ⟨hx, before, behind, hfactors, hbefore⟩

theorem missing?_congr (h : ∀ x ∈ m.factors, f x = g x) : m.missing? f = m.missing? g :=
  List.find?_congr fun x hx => congrArg Option.isNone (h x hx)

variable [Scalar κ]

/-- What was multiplied before is lost. -/
theorem evaluate_of_missing {x : Variable} (h : m.missing? f = some x) (c : κ) :
    m.evaluate f c = .error (.unknownVariable x.name) := by
  unfold missing? at h
  unfold evaluate
  generalize m.factors = xs at h
  induction xs generalizing c with
  | nil => exact nomatch h
  | cons y ys ih =>
      rw [List.foldlM_cons]
      rw [List.find?_cons] at h
      cases hy : f y with
      | none =>
          rw [hy] at h
          obtain rfl := Option.some.inj h
          rfl
      | some v =>
          rw [hy] at h
          exact ih (c * v) h

theorem evaluate_of_forall {u : Variable → κ} (h : ∀ x ∈ m.factors, f x = some (u x)) (c : κ) :
    m.evaluate f c = .ok (m.factors.foldl (fun product x => product * u x) c) := by
  unfold evaluate
  generalize m.factors = xs at h
  induction xs generalizing c with
  | nil => rfl
  | cons x xs ih =>
      have hx : f x = some (u x) := h x List.mem_cons_self
      rw [List.foldlM_cons, List.foldl_cons, hx]
      exact ih (c * u x) fun y hy => h y (List.mem_cons_of_mem x hy)

end Monomial

namespace Expr

/-! ## The variable that ends a scan -/

section Missing

/-- The first variable that has no value, in order of the monomials and of their
factors. -/
def missing? (e : Expr κ) (f : Variable → Option κ) : Option Variable :=
  e.terms.entries.findSome? fun t => t.1.missing? f

variable {e : Expr κ} {f g : Variable → Option κ}

theorem missing?_eq_none_iff : e.missing? f = none ↔ ∀ x ∈ e.variableList, f x ≠ none := by
  unfold missing?
  rw [forall_mem_variableList, List.findSome?_eq_none_iff, Terms.keys, List.forall_mem_map]
  simp only [Monomial.missing?_eq_none_iff]

/-- The variable is the first of one monomial, and no smaller monomial has one. -/
theorem missing?_eq_some_iff {x : Variable} : e.missing? f = some x ↔
    ∃ m ∈ e.terms.keys, m.missing? f = some x ∧
      ∀ k ∈ e.terms.keys, k < m → k.missing? f = none := by
  unfold missing?
  rw [Terms.findSome?_entries_eq_some_iff]
  constructor
  · rintro ⟨t, ht, hx, hsmaller⟩
    exact ⟨t.1, List.mem_map_of_mem ht, hx, List.forall_mem_map.2 hsmaller⟩
  · rintro ⟨m, hm, hx, hsmaller⟩
    obtain ⟨t, ht, rfl⟩ := List.mem_map.1 hm
    exact ⟨t, ht, hx, List.forall_mem_map.1 hsmaller⟩

theorem missing?_congr (h : ∀ x ∈ e.variableList, f x = g x) :
    e.missing? f = e.missing? g := by
  have hkeys (m : Monomial) (hm : m ∈ e.terms.keys) : m.missing? f = m.missing? g :=
    Monomial.missing?_congr (forall_mem_variableList.1 h m hm)
  refine Option.ext fun x => ?_
  rw [missing?_eq_some_iff, missing?_eq_some_iff]
  refine exists_congr fun m => and_congr_right fun hm => ?_
  rw [hkeys m hm]
  refine and_congr_right fun _ => forall₂_congr fun k hk => ?_
  rw [hkeys k hk]

end Missing

/-! ## How a scan ends -/

section Ends

variable [Scalar κ] {e : Expr κ} {f g : Variable → Option κ}

/-- Each entry has the coefficient that is found for its monomial. -/
theorem entries_eq_map_keys (e : Expr κ) :
    e.terms.entries = e.terms.keys.map fun m => (m, e.coefficient m) := by
  unfold Terms.keys
  rw [List.map_map]
  refine (List.map_id _).symm.trans (List.map_congr_left fun t ht => ?_)
  have hfound : e.get? t.1 = some t.2 := Terms.get?_eq_some_iff.2 ht
  show t = (t.1, (e.get? t.1).getD 0)
  rw [hfound]
  rfl

/-- The terms before the one that ends the scan have been added up for nothing. -/
theorem evaluate_of_missing {x : Variable} (h : e.missing? f = some x) :
    e.evaluate f = .error (.unknownVariable x.name) := by
  unfold missing? at h
  unfold evaluate
  generalize e.terms.entries = es at h
  generalize (0 : κ) = total
  induction es generalizing total with
  | nil => exact nomatch h
  | cons t ts ih =>
      rw [List.findSome?_cons] at h
      rw [List.foldlM_cons]
      cases hmissing : t.1.missing? f with
      | some y =>
          rw [hmissing] at h
          obtain rfl := Option.some.inj h
          rw [Monomial.evaluate_of_missing hmissing]
          rfl
      | none =>
          rw [hmissing] at h
          have hvalues : ∀ y ∈ t.1.factors, f y = some ((f y).getD 0) := fun y hy => by
            obtain ⟨v, hv⟩ :=
              Option.ne_none_iff_exists'.1 (Monomial.missing?_eq_none_iff.1 hmissing y hy)
            rw [hv, Option.getD_some]
          rw [Monomial.evaluate_of_forall hvalues]
          exact ih h _

/-- Without a missing variable the products are added up from zero. -/
theorem evaluate_of_covers {u : Variable → κ} (h : e.Covers f u) :
    e.evaluate f = .ok (e.terms.keys.foldl (fun total m =>
      total + m.factors.foldl (fun product x => product * u x) (e.coefficient m)) 0) := by
  unfold evaluate
  rw [entries_eq_map_keys]
  unfold Covers at h
  generalize e.terms.keys = ms at h
  generalize (0 : κ) = total
  induction ms generalizing total with
  | nil => rfl
  | cons m ms ih =>
      have hm := Monomial.evaluate_of_forall (h m List.mem_cons_self) (e.coefficient m)
      rw [List.map_cons, List.foldlM_cons, List.foldl_cons, hm]
      exact ih (fun k hk => h k (List.mem_cons_of_mem m hk)) _

/-- A point whose values an assignment gives, as far as it gives any. -/
theorem covers_of_missing?_eq_none (h : e.missing? f = none) :
    e.Covers f fun x => (f x).getD 0 := by
  rw [covers_iff]
  intro x hx
  obtain ⟨v, hv⟩ := Option.ne_none_iff_exists'.1 (missing?_eq_none_iff.1 h x hx)
  rw [hv, Option.getD_some]

/-- **Evaluation fails with the first variable that is missing**, and with nothing else. -/
theorem evaluate_eq_error_iff {error : ExprError} : e.evaluate f = .error error ↔
    ∃ x, e.missing? f = some x ∧ error = .unknownVariable x.name := by
  cases hmissing : e.missing? f with
  | none =>
      rw [evaluate_of_covers (covers_of_missing?_eq_none hmissing)]
      exact iff_of_false (fun h => nomatch h) fun ⟨_, h, _⟩ => nomatch h
  | some x =>
      rw [evaluate_of_missing hmissing, Except.error.injEq, eq_comm]
      exact ⟨fun h => ⟨x, rfl, h⟩, fun ⟨_, h, herror⟩ => Option.some.inj h ▸ herror⟩

/-- **Only the values of variables that occur are asked for.** -/
theorem evaluate_congr (h : ∀ x ∈ e.variableList, f x = g x) :
    e.evaluate f = e.evaluate g := by
  cases hmissing : e.missing? f with
  | none =>
      have hf := covers_of_missing?_eq_none hmissing
      have hg : e.Covers g fun x => (f x).getD 0 :=
        covers_iff.2 fun x hx => (h x hx).symm.trans (covers_iff.1 hf x hx)
      rw [evaluate_of_covers hf, evaluate_of_covers hg]
  | some x =>
      rw [evaluate_of_missing hmissing, evaluate_of_missing (missing?_congr h ▸ hmissing)]

/-- **Evaluation succeeds with the products of a point, added up from zero**, if the
assignment gives the values of one to every variable that occurs, and never otherwise. -/
theorem evaluate_eq_ok_iff {r : κ} : e.evaluate f = .ok r ↔
    ∃ u : Variable → κ, (∀ x ∈ e.variableList, f x = some (u x)) ∧
      r = e.terms.keys.foldl (fun total m =>
        total + m.factors.foldl (fun product x => product * u x) (e.coefficient m)) 0 := by
  constructor
  · intro h
    cases hmissing : e.missing? f with
    | none =>
        have hcovers := covers_of_missing?_eq_none hmissing
        rw [evaluate_of_covers hcovers] at h
        exact ⟨_, covers_iff.1 hcovers, (Except.ok.inj h).symm⟩
    | some x =>
        rw [evaluate_of_missing hmissing] at h
        exact nomatch h
  · rintro ⟨u, hvalues, rfl⟩
    exact evaluate_of_covers (covers_iff.2 hvalues)

omit [Scalar κ] in
/-- Some variable is missing exactly if one of those that occur has no value. -/
theorem exists_missing?_iff : (∃ x, e.missing? f = some x) ↔ ∃ x ∈ e.variableList, f x = none := by
  rw [← Option.ne_none_iff_exists', ne_eq, missing?_eq_none_iff]
  simp only [ne_eq, not_forall, not_not, exists_prop]

/-- **Evaluation as a scan.** For every expression and every assignment, over doubles as
over any other scalars:

* evaluation fails exactly if some variable that occurs has no value, be its coefficient
  zero;
* it then names the first one in the order of the monomials and, in the first of these that
  has one, of the factors;
* the monomials are passed over in increasing order;
* assignments that agree where variables occur give the same result;
* a result is the sum, taken from zero in that order, of the products of coefficient and
  values, each taken from the left. -/
theorem evaluate_scan (e : Expr κ) (f : Variable → Option κ) :
    ((∃ error, e.evaluate f = .error error) ↔ ∃ x ∈ e.variableList, f x = none) ∧
    (∀ error, e.evaluate f = .error error ↔
      ∃ m ∈ e.terms.keys, ∃ before x behind, m.factors = before ++ x :: behind ∧ f x = none ∧
        (∀ y ∈ before, f y ≠ none) ∧
        (∀ k ∈ e.terms.keys, k < m → ∀ y ∈ k.factors, f y ≠ none) ∧
        error = .unknownVariable x.name) ∧
    e.terms.keys.Pairwise (· < ·) ∧
    (∀ g : Variable → Option κ, (∀ x ∈ e.variableList, f x = g x) →
      e.evaluate f = e.evaluate g) ∧
    ∀ r, e.evaluate f = .ok r ↔ ∃ u : Variable → κ, (∀ x ∈ e.variableList, f x = some (u x)) ∧
      r = e.terms.keys.foldl (fun total m =>
        total + m.factors.foldl (fun product x => product * u x) (e.coefficient m)) 0 := by
  refine ⟨?_, fun error => ?_, e.terms.pairwise_keys, fun _ => evaluate_congr,
    fun _ => evaluate_eq_ok_iff⟩
  · rw [← exists_missing?_iff]
    simp only [evaluate_eq_error_iff]
    exact ⟨fun ⟨_, x, hx, _⟩ => ⟨x, hx⟩, fun ⟨x, hx⟩ => ⟨_, x, hx, rfl⟩⟩
  · rw [evaluate_eq_error_iff]
    simp only [missing?_eq_some_iff, Monomial.missing?_eq_some_iff, Monomial.missing?_eq_none_iff]
    constructor
    · rintro ⟨x, ⟨m, hm, ⟨before, behind, hfactors, hx, hbefore⟩, hsmaller⟩, rfl⟩
      exact ⟨m, hm, before, x, behind, hfactors, hx, hbefore, hsmaller, rfl⟩
    · rintro ⟨m, hm, before, x, behind, hfactors, hx, hbefore, hsmaller, rfl⟩
      exact ⟨x, ⟨m, hm, ⟨before, behind, hfactors, hx, hbefore⟩, hsmaller⟩, rfl⟩

end Ends

/-- `1 + 2 ^ 53 * a * a + 0 * a * b * c + b`. -/
def withZeroProduct : Expr Float where
  terms :=
    { entries := [(1, 1.0), (⟨[⟨"a"⟩, ⟨"a"⟩], by decide⟩, 9007199254740992),
        (⟨[⟨"a"⟩, ⟨"b"⟩, ⟨"c"⟩], by decide⟩, 0.0), (.single ⟨"b"⟩, 1.0)]
      sorted := by decide }

/-- Values for some names. -/
def named (values : List (String × Float)) (x : Variable) : Option Float := values.lookup x.name

/-- With a value for `a` only, `b` is reported, before `c` and whatever its coefficient. With
all three, a value for `d` changes nothing, and both ones are lost to rounding, each added
to the sum by itself. -/
theorem evaluate_scan_missing :
    withZeroProduct.evaluate (named [("a", 1.0)]) = .error (.unknownVariable "b") ∧
    withZeroProduct.evaluate (named [("a", 1.0), ("b", 1.0), ("c", 7.0)]) =
      withZeroProduct.evaluate (named [("d", 2.0), ("a", 1.0), ("b", 1.0), ("c", 7.0)]) ∧
    withZeroProduct.evaluate (named [("a", 1.0), ("b", 1.0), ("c", 7.0)]) =
      .ok 9007199254740992 := by
  refine ⟨?_, ?_, ?_⟩
  · exact ((evaluate_scan withZeroProduct _).2.1 _).2 ⟨⟨[⟨"a"⟩, ⟨"b"⟩, ⟨"c"⟩], by decide⟩,
      by decide, [⟨"a"⟩], ⟨"b"⟩, [⟨"c"⟩], rfl, by decide, by decide, by decide, rfl⟩
  · exact (evaluate_scan withZeroProduct _).2.2.2.1 _ (forall_mem_variableList.2 (by decide))
  · exact ((evaluate_scan withZeroProduct _).2.2.2.2 _).2
      ⟨fun x => (named [("a", 1.0), ("b", 1.0), ("c", 7.0)] x).getD 0,
        forall_mem_variableList.2 (by decide), by decide⟩

end Expr

end PolyRow
