import Mathlib.Data.Set.List
import PolyRow.Proofs.Canonical.Plain
import PolyRow.Proofs.Terms.Accumulation

/-!
# Listings

An expression is listed by forgetting that its terms are in order. The listings
are exactly the bare polynomials in canonical form, and every operation on
expressions is listed as the plain loop on the listings of its operands: tables
that are merged, sorted and summed in runs, or mapped in place come out as if each
term had been walked to its place.

The loops that rely on canonical form are the ones that collect a map anew and that
remove a key: collecting keeps an increasing list as it is, and the first entry with
a key is its only one.

## Main results

* `canonical_iff_exists_listing`: canonical form is what a listing has.
* `listing_ofTerms`, `listing_plus`, `listing_compare` and so on: one equation for
  each operation.
* `listing_ofJson?`, `listing_ofText?`: the readers.
-/

namespace PolyRow

variable {κ : Type}

/-! ## Tables -/

namespace Terms

/-- An entry with its monomial laid open. -/
def listEntry (t : Monomial × κ) : List Variable × κ := (t.1.factors, t.2)

/-- The entries of a table as a bare list. -/
def listing (t : Terms κ) : PlainTerms κ := t.entries.map listEntry

theorem listing_alterEntries (m : Monomial) (f : Option κ → κ) (es : List (Monomial × κ)) :
    (alterEntries m f es).map listEntry = PlainTerms.alter m.factors f (es.map listEntry) := by
  induction es with
  | nil => rfl
  | cons e rest ih =>
      obtain ⟨n, d⟩ := e
      have heq : m = n ↔ m.factors = n.factors := ⟨congrArg _, Monomial.ext⟩
      simp only [alterEntries, List.map_cons, listEntry, PlainTerms.alter, ← heq,
        ← Monomial.lt_iff]
      by_cases hlt : m < n
      · rw [if_pos hlt, if_pos hlt]
        rfl
      · by_cases hmn : m = n
        · rw [if_neg hlt, if_neg hlt, if_pos hmn, if_pos hmn]
          rfl
        · rw [if_neg hlt, if_neg hlt, if_neg hmn, if_neg hmn, List.map_cons, ih]
          rfl

/-- Looking a monomial up is looking its factors up. -/
theorem lookup_listing (t : Terms κ) (m : Monomial) : t.listing.lookup m.factors = t.get? m := by
  unfold listing get?
  induction t.entries with
  | nil => rfl
  | cons e rest ih =>
      rw [List.map_cons, listEntry, List.lookup_cons, List.lookup_cons, ih]
      by_cases hm : m = e.1
      · simp [hm]
      · have hfactors : m.factors ≠ e.1.factors := fun h => hm (Monomial.ext h)
        rw [beq_false_of_ne hm, beq_false_of_ne hfactors]

/-- An entry beyond all others is put behind them. -/
private theorem insert_of_lt {ts : PlainTerms κ} {k : List Variable} {c : κ}
    (h : ∀ t ∈ ts, t.1 < k) : PlainTerms.insert ts k c = ts ++ [(k, c)] := by
  unfold PlainTerms.insert
  induction ts with
  | nil => rfl
  | cons t rest ih =>
      have ht : t.1 < k := h t List.mem_cons_self
      have hne : k ≠ t.1 := fun heq => Std.lt_irrefl (heq ▸ ht)
      have hnot : ¬ k < t.1 := fun hlt => Std.lt_irrefl (Std.lt_trans hlt ht)
      rw [PlainTerms.alter, if_neg hnot, if_neg hne,
        ih fun u hu => h u (List.mem_cons_of_mem t hu)]
      rfl

/-- Entries that go on increasing are put behind a list one after another. -/
private theorem insertAll_append {ts us : PlainTerms κ}
    (h : (ts ++ us).Pairwise fun t u => t.1 < u.1) :
    us.foldl (fun acc u => PlainTerms.insert acc u.1 u.2) ts = ts ++ us := by
  induction us generalizing ts with
  | nil => rw [List.foldl_nil, List.append_nil]
  | cons u rest ih =>
      have hbefore : ∀ t ∈ ts, t.1 < u.1 := fun t ht =>
        (List.pairwise_append.1 h).2.2 t ht u List.mem_cons_self
      rw [List.foldl_cons, insert_of_lt hbefore, ih (by simpa using h), List.append_assoc]
      rfl

theorem pairwise_listing (t : Terms κ) : t.listing.Pairwise fun s u => s.1 < u.1 :=
  List.pairwise_map.2 t.sorted

/-- A listed table collected anew stays what it is. -/
theorem collect_listing (t : Terms κ) : PlainTerms.collect t.listing = t.listing :=
  insertAll_append t.pairwise_listing

theorem listing_map (f : κ → κ) (t : Terms κ) :
    (t.map f).listing = PlainTerms.collect (t.listing.map fun u => (u.1, f u.2)) := by
  rw [← collect_listing]
  unfold listing map
  rw [List.map_map, List.map_map]
  rfl

/-- In an increasing list the first entry with a key is the only one. -/
private theorem filter_eq_eraseP {es : List (Monomial × κ)}
    (hes : es.Pairwise fun s u => s.1 < u.1) (m : Monomial) :
    es.filter (fun e => e.1 != m) = es.eraseP fun e => e.1 == m := by
  induction es with
  | nil => rfl
  | cons e rest ih =>
      rw [List.pairwise_cons] at hes
      by_cases hm : e.1 = m
      · have hrest : ∀ u ∈ rest, (u.1 != m) = true := by
          intro u hu
          have hlt : m < u.1 := hm ▸ hes.1 u hu
          simpa using fun heq : u.1 = m => Std.lt_irrefl (heq ▸ hlt)
        rw [List.filter_cons_of_neg (by simp [hm]), List.eraseP_cons_of_pos (by simp [hm]),
          List.filter_eq_self.2 hrest]
      · rw [List.filter_cons_of_pos (by simp [hm]), List.eraseP_cons_of_neg (by simp [hm]),
          ih hes.2]

theorem listing_erase (t : Terms κ) (m : Monomial) :
    (t.erase m).listing = t.listing.remove m.factors := by
  have hkey : (fun e : Monomial × κ => (listEntry e).1 == m.factors) = fun e => e.1 == m := by
    funext e
    by_cases hm : e.1 = m
    · simp [listEntry, hm]
    · have hfactors : e.1.factors ≠ m.factors := fun h => hm (Monomial.ext h)
      rw [beq_false_of_ne hm]
      exact beq_false_of_ne hfactors
  show (t.entries.filter fun e => e.1 != m).map listEntry = _
  unfold listing PlainTerms.remove
  rw [filter_eq_eraseP t.sorted, List.eraseP_map]
  exact congrArg (fun p => (t.entries.eraseP p).map listEntry) hkey.symm

theorem listing_filter (p : κ → Bool) (t : Terms κ) :
    (t.filter fun e => p e.2).listing = t.listing.filter fun u => p u.2 := by
  unfold listing filter
  rw [List.filter_map]
  rfl

variable [Scalar κ]

theorem listing_accumulate (t : Terms κ) (m : Monomial) (c : κ) :
    (t.accumulate m c).listing = t.listing.accumulate m.factors c :=
  listing_alterEntries m _ t.entries

theorem listing_accumulateAll (t : Terms κ) (es : List (Monomial × κ)) :
    (t.accumulateAll es).listing = t.listing.accumulateAll (es.map listEntry) := by
  induction es generalizing t with
  | nil => rfl
  | cons e rest ih =>
      rw [accumulateAll_cons, ih, listing_accumulate]
      rfl

theorem listing_add (s t : Terms κ) :
    (s.add t).listing = s.listing.accumulateAll t.listing := by
  rw [add_eq_foldl, listing_accumulateAll]
  rfl

theorem listing_ofList (es : List (Monomial × κ)) :
    (ofList es).listing = PlainTerms.accumulateAll [] (es.map listEntry) := by
  rw [ofList_eq_foldl, listing_accumulateAll]
  rfl

/-- The table of the products comes from two nested loops, and each of them is listed step
by step. -/
theorem listing_ofList_products (s t : Terms κ) :
    (ofList (s.products t)).listing = s.listing.multiply t.listing := by
  have hinner (u : Terms κ) (l : Monomial × κ) :
      (t.entries.foldl (fun u r => u.accumulate (l.1 * r.1) (l.2 * r.2)) u).listing =
        t.listing.foldl (fun acc r =>
          acc.accumulate (Variable.sort ((listEntry l).1 ++ r.1)) ((listEntry l).2 * r.2))
          u.listing := by
    rw [show t.listing = t.entries.map listEntry from rfl, List.foldl_map]
    exact (List.foldl_hom listing fun u r =>
      (listing_accumulate u (l.1 * r.1) (l.2 * r.2)).symm).symm
  rw [ofList_products_eq_foldl]
  unfold PlainTerms.multiply
  rw [show s.listing = s.entries.map listEntry from rfl, List.foldl_map]
  exact (List.foldl_hom listing fun u l => (hinner u l).symm).symm

end Terms

/-! ## Canonical form -/

namespace Expr

/-- The terms and bounds of an expression, laid open. -/
def listing (e : Expr κ) : PlainExpr κ := ⟨e.terms.listing, e.lower, e.upper⟩

theorem keys_listing (e : Expr κ) : e.listing.keys = e.terms.keys.map Monomial.factors := by
  show (e.terms.entries.map Terms.listEntry).map Prod.fst = _
  rw [List.map_map, Terms.keys, List.map_map]
  rfl

/-- An expression has an entry for a monomial if its listing has one for the factors. -/
theorem mem_listing_iff {e : Expr κ} {m : Monomial} {c : κ} :
    (m.factors, c) ∈ e.listing.terms ↔ e.get? m = some c := by
  show (m.factors, c) ∈ e.terms.entries.map Terms.listEntry ↔ e.terms.get? m = some c
  rw [Terms.get?_eq_some_iff, List.mem_map]
  constructor
  · rintro ⟨⟨n, d⟩, ht, heq⟩
    obtain ⟨hfactors, rfl⟩ := Prod.mk.inj heq
    exact Monomial.ext hfactors ▸ ht
  · intro ht
    exact ⟨(m, c), ht, rfl⟩

theorem canonical_listing (e : Expr κ) : e.listing.Canonical := by
  have hincreasing : e.listing.keys.Pairwise (· < ·) :=
    List.pairwise_map.2 e.terms.pairwise_listing
  have hdistinct : e.listing.keys.Pairwise (· ≠ ·) :=
    hincreasing.imp fun {k l} hlt (heq : k = l) => Std.lt_irrefl (heq ▸ hlt)
  refine ⟨hincreasing, hdistinct, ?_⟩
  intro k hk
  rw [keys_listing] at hk
  obtain ⟨m, _, rfl⟩ := List.mem_map.1 hk
  exact List.pairwise_map.2 m.sorted

end Expr

private theorem exists_listEntry {ts : PlainTerms κ}
    (h : ∀ t ∈ ts, (t.1.map Variable.name).Pairwise (· ≤ ·)) :
    ∃ es : List (Monomial × κ), es.map Terms.listEntry = ts := by
  have hentry : ∀ t ∈ ts, ∃ e : Monomial × κ, Terms.listEntry e = t := by
    intro t ht
    have hsorted : t.1.Pairwise fun x y => x.name ≤ y.name := List.pairwise_map.1 (h t ht)
    exact ⟨(⟨t.1, hsorted⟩, t.2), rfl⟩
  exact (Set.range_list_map Terms.listEntry).ge hentry

/-- **Canonical form is what a listing has**, and all that it has. -/
theorem PlainExpr.canonical_iff_exists_listing {p : PlainExpr κ} :
    p.Canonical ↔ ∃ e : Expr κ, e.listing = p := by
  constructor
  · intro h
    obtain ⟨es, hes⟩ : ∃ es : List (Monomial × κ), es.map Terms.listEntry = p.terms :=
      exists_listEntry fun t ht => h.ordered t.1 (List.mem_map_of_mem ht)
    have hincreasing : p.terms.Pairwise fun t u => t.1 < u.1 := List.pairwise_map.1 h.increasing
    rw [← hes, List.pairwise_map] at hincreasing
    refine ⟨{ terms := ⟨es, hincreasing⟩, lower := p.lower, upper := p.upper }, ?_⟩
    show PlainExpr.mk (es.map Terms.listEntry) p.lower p.upper = p
    rw [hes]
  · rintro ⟨e, rfl⟩
    exact e.canonical_listing

/-! ## Operations -/

/-- The operand with its expression laid open. -/
def Operand.listing : Operand κ → PlainOperand κ
  | .expr e => .expr e.listing
  | .variable x => .variable x
  | .scalar c => .scalar c

namespace Expr

theorem listing_withBounds (e : Expr κ) (lower upper : Option κ) :
    (e.withBounds lower upper).listing = e.listing.withBounds lower upper := rfl

theorem listing_withoutConstant (e : Expr κ) :
    e.withoutConstant.listing = e.listing.withoutConstant := by
  show PlainExpr.mk (e.terms.erase 1).listing e.lower e.upper = _
  rw [Terms.listing_erase]
  rfl

variable [Scalar κ]

theorem listing_pruned (e : Expr κ) : e.pruned.listing = e.listing.pruned := by
  show PlainExpr.mk (e.terms.filter fun t => t.2 != 0).listing e.lower e.upper = _
  rw [Terms.listing_filter fun c => c != 0]
  rfl

theorem listing_ofKeyed (ts : List (Monomial × κ)) :
    (ofTerms ts).listing = PlainExpr.ofKeyed (ts.map Terms.listEntry) := by
  show PlainExpr.mk (Terms.ofList ts).listing none none = _
  rw [Terms.listing_ofList]
  rfl

/-- Factors that come in any order are sorted on either side. -/
theorem listing_ofTerms (ts : PlainTerms κ) :
    (ofTerms (ts.map fun t => (.ofList t.1, t.2))).listing = PlainExpr.ofTerms ts := by
  rw [listing_ofKeyed, List.map_map]
  rfl

theorem listing_linearTerms (ts : List (Variable × κ)) :
    (linearTerms ts).listing = PlainExpr.linearTerms ts := by
  rw [linearTerms, listing_ofKeyed, List.map_map]
  rfl

theorem listing_quadraticForm (ts : List ((Variable × Variable) × κ)) :
    (quadraticForm ts).listing = PlainExpr.quadraticForm ts := by
  rw [quadraticForm, listing_ofKeyed, List.map_map]
  rfl

theorem listing_const (c : κ) : (const c).listing = PlainExpr.const c :=
  listing_ofKeyed [(1, c)]

theorem listing_term (x : Variable) (c : κ) : (term x c).listing = PlainExpr.term x c :=
  listing_ofKeyed [(.single x, c)]

theorem listing_toExpr (o : Operand κ) : o.toExpr.listing = o.listing.toExpr := by
  obtain e | x | c := o
  · rfl
  · exact listing_term x 1
  · exact listing_const c

theorem listing_scale (e : Expr κ) (c : κ) : (e.scale c).listing = e.listing.scale c := by
  show PlainExpr.mk (e.terms.map (· * c)).listing none none = _
  rw [Terms.listing_map]
  rfl

theorem listing_add (a b : Expr κ) : (a.add b).listing = a.listing.add b.listing := by
  show PlainExpr.mk (a.terms.add b.terms).listing none none = _
  rw [Terms.listing_add]
  rfl

theorem listing_mul (a b : Expr κ) : (a.mul b).listing = a.listing.mul b.listing := by
  show PlainExpr.mk (Terms.ofList (a.terms.products b.terms)).listing none none = _
  rw [Terms.listing_ofList_products]
  rfl

theorem listing_plus (e : Expr κ) (o : Operand κ) :
    (e.plus o).listing = e.listing.plus o.listing := by
  obtain b | x | c := o
  · exact listing_add e b
  · show (e.add (var x)).listing = e.listing.add (PlainExpr.term x 1)
    rw [listing_add, var, listing_term]
  · show PlainExpr.mk (e.terms.accumulate 1 c).listing none none = _
    rw [Terms.listing_accumulate]
    rfl

theorem listing_minus (e : Expr κ) (o : Operand κ) :
    (e.minus o).listing = e.listing.minus o.listing := by
  rw [minus, listing_add, listing_scale, listing_toExpr]
  rfl

theorem listing_times (e : Expr κ) (o : Operand κ) :
    (e.times o).listing = e.listing.times o.listing := by
  obtain b | x | c := o
  · exact listing_mul e b
  · show (e.mul (var x)).listing = e.listing.mul (PlainExpr.term x 1)
    rw [listing_mul, var, listing_term]
  · exact listing_scale e c

theorem listing_div? (e : Expr κ) (o : Operand κ) :
    (e.div? o).toOption.map listing = e.listing.div? o.listing := by
  obtain b | x | c := o
  · rfl
  · rfl
  · show ((if c == 0 then .error .divisionByZero else .ok (e.scale (1 / c)) :
        Except ExprError (Expr κ)).toOption).map listing =
      if c == 0 then none else some (e.listing.scale (1 / c))
    by_cases hc : (c == 0) = true
    · rw [if_pos hc, if_pos hc]
      rfl
    · rw [if_neg hc, if_neg hc, ← listing_scale]
      rfl

theorem listing_compare (e : Expr κ) (o : Operand κ) (s : ComparisonSense) :
    (e.compare o s).listing = e.listing.compare o.listing s := by
  have hconstant : (e.minus o).constant =
      ((e.listing.minus o.listing).terms.lookup []).getD 0 := by
    rw [← listing_minus]
    exact congrArg (Option.getD · 0) (Terms.lookup_listing (e.minus o).terms 1).symm
  show PlainExpr.mk ((e.minus o).terms.erase 1).listing
      (s.boundsFor (0 - (e.minus o).constant)).1 (s.boundsFor (0 - (e.minus o).constant)).2 = _
  unfold PlainExpr.compare
  rw [hconstant, Terms.listing_erase, ← listing_minus]
  rfl

theorem listing_sum (items : List (Operand κ)) :
    (sum items).listing = PlainExpr.sum (items.map Operand.listing) := by
  have hfold (start : Expr κ) : (items.foldl plus start).listing =
      (items.map Operand.listing).foldl PlainExpr.plus start.listing := by
    induction items generalizing start with
    | nil => rfl
    | cons o rest ih => rw [List.foldl_cons, ih, listing_plus, List.map_cons, List.foldl_cons]
  exact hfold empty

theorem listing_linearSum (es : List (Expr κ)) :
    (linearSum es).listing = PlainExpr.linearSum (es.map listing) := by
  rw [linearSum, listing_sum, List.map_map, PlainExpr.linearSum, List.map_map]
  rfl

end Expr

namespace Operand

variable [Scalar κ]

theorem listing_add (a b : Operand κ) : (a.add b).listing = a.listing.add b.listing := by
  obtain e | x | c := a
  · exact Expr.listing_plus e b
  · show ((Expr.var x).plus b).listing = (PlainExpr.term x 1).plus b.listing
    rw [Expr.listing_plus, Expr.var, Expr.listing_term]
  · show (b.toExpr.plus (.scalar c)).listing = b.listing.toExpr.plus (.scalar c)
    rw [Expr.listing_plus, Expr.listing_toExpr]
    rfl

theorem listing_sub (a b : Operand κ) : (a.sub b).listing = a.listing.sub b.listing := by
  rw [sub, Expr.listing_minus, Expr.listing_toExpr]
  rfl

theorem listing_mul (a b : Operand κ) : (a.mul b).listing = a.listing.mul b.listing := by
  obtain e | x | c := a
  · exact Expr.listing_times e b
  · show ((Expr.var x).times b).listing = (PlainExpr.term x 1).times b.listing
    rw [Expr.listing_times, Expr.var, Expr.listing_term]
  · show (b.toExpr.times (.scalar c)).listing = b.listing.toExpr.times (.scalar c)
    rw [Expr.listing_times, Expr.listing_toExpr]
    rfl

theorem listing_div? (a b : Operand κ) :
    (a.div? b).toOption.map Expr.listing = a.listing.div? b.listing := by
  rw [div?, Expr.listing_div?, Expr.listing_toExpr]
  rfl

end Operand

/-! ## Readers -/

theorem mapM_eq_map {α β γ : Type} {f : α → Option β} {g : α → Option γ} {h : β → γ}
    (hg : ∀ a, g a = (f a).map h) (as : List α) : as.mapM g = (as.mapM f).map (List.map h) := by
  induction as with
  | nil => rfl
  | cons a rest ih =>
      rw [List.mapM_cons, List.mapM_cons, hg, ih]
      cases f a with
      | none => rfl
      | some b => cases rest.mapM f <;> rfl

private theorem monomial_ofJson? (j : Json) :
    Monomial.ofJson? j = (PlainExpr.factorsOfJson? j).map Monomial.ofList := by
  cases j <;> rfl

private theorem termOfJson?_eq (j : Json) :
    termOfJson? j = (PlainExpr.termOfJson? j).map fun t => (.ofList t.1, t.2) := by
  match j with
  | .array [m, c] =>
      simp only [termOfJson?, PlainExpr.termOfJson?, monomial_ofJson?]
      cases PlainExpr.factorsOfJson? m with
      | none => rfl
      | some xs => cases c.toFloat? <;> rfl
  | .array [] | .array [_] | .array (_ :: _ :: _ :: _) => rfl
  | .null | .bool _ | .number _ | .string _ | .object _ => rfl

/-- Written factors are sorted term by term, and otherwise read as they are. -/
theorem termsOfJson?_eq (j : Json) :
    termsOfJson? j =
      (PlainExpr.termsOfJson? j).map (List.map fun t => (.ofList t.1, t.2)) := by
  match j with
  | .array items => exact mapM_eq_map termOfJson?_eq items
  | .null | .bool _ | .number _ | .string _ | .object _ => rfl

namespace Expr

theorem listing_ofFields? (terms lower upper : Option Json) :
    (ofFields? terms lower upper).map listing = PlainExpr.ofFields? terms lower upper := by
  unfold ofFields? PlainExpr.ofFields?
  cases terms with
  | none => rfl
  | some j =>
      simp only [Option.bind_eq_bind, Option.bind_some, termsOfJson?_eq]
      cases PlainExpr.termsOfJson? j with
      | none => rfl
      | some ts =>
          cases Json.toOptionalFloat? lower with
          | none => rfl
          | some l =>
              cases Json.toOptionalFloat? upper with
              | none => rfl
              | some u => exact congrArg (fun e => some (e.withBounds l u)) (listing_ofTerms ts)

theorem listing_ofJson? (j : Json) : (ofJson? j).map listing = PlainExpr.ofJson? j := by
  match j with
  | .object members => exact listing_ofFields? _ _ _
  | .array [terms] => exact listing_ofFields? (some terms) none none
  | .array [terms, lower] => exact listing_ofFields? (some terms) (some lower) none
  | .array [terms, lower, upper] =>
      exact listing_ofFields? (some terms) (some lower) (some upper)
  | .array [] | .array (_ :: _ :: _ :: _ :: _) => rfl
  | .null | .bool _ | .number _ | .string _ => rfl

theorem listing_ofText? (text : String) :
    (ofText? text).map listing = PlainExpr.ofText? text := by
  unfold ofText? PlainExpr.ofText?
  simp only [Option.bind_eq_bind, Option.map_bind, Function.comp_def, listing_ofJson?]

end Expr

theorem Operand.listing_ofJson (j : Json) :
    (Operand.ofJson j).toOption.map listing = PlainOperand.ofJson? j := by
  match j with
  | .object members =>
      have hmembers : (Expr.ofMembers? members).map Expr.listing =
          PlainExpr.ofMembers? members := Expr.listing_ofFields? _ _ _
      simp only [Operand.ofJson, PlainOperand.ofJson?, ← hmembers]
      cases Expr.ofMembers? members <;> rfl
  | .null | .bool _ | .number _ | .string _ | .array _ => rfl

end PolyRow
