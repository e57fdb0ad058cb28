import Mathlib
import PolyRow.Proofs.Double.Arithmetic
import PolyRow.Proofs.Lowering.Meaning

/-!
# Lowering as a partition

The parts of a lowered expression hold the terms that were kept, each in the part
of its degree and in the order that the expression has. Nothing is lost, nothing
occurs twice, and the expression can be built again from the parts.

The order of a part is inherited: the terms of an expression increase strictly,
so those of one degree do, and a monomial of one or two factors is compared like
its factors.

## Main results

* `Lowered.partitions_ofTerms`: every list of increasing terms is partitioned.
* `Lowered.Partitions.coefficientsOf_entries`: the parts have the coefficients of
  the expression.
* `Lowered.Partitions.get?_ofTerms`: the expression built again.
* `Lowered.ofExpr_partition`: all of this for doubles, where building again adds
  each coefficient to zero.
-/

namespace PolyRow

/-- The terms of an expression that lowering does not drop, without bounds. -/
def Expr.kept {κ : Type} [Scalar κ] (e : Expr κ) (config : LowerConfig κ) : Expr κ where
  terms := e.terms.filter fun t => !config.drops t.2

/-- No constant is kept of a comparison. -/
theorem Expr.get?_kept_compare_one {κ : Type} [Scalar κ] (e : Expr κ) (o : Operand κ)
    (s : ComparisonSense) (config : LowerConfig κ) :
    ((e.compare o s).kept config).get? 1 = none := by
  show ((e.compare o s).terms.filter _).get? 1 = none
  rw [Terms.get?_filter]
  show ((e.compare o s).get? 1).filter _ = none
  rw [get?_compare_one]
  rfl

namespace Lowered

variable {κ : Type}

/-! ## Parts as terms -/

/-- The term that a linear entry stands for. -/
def linearEntry (t : Variable × κ) : Monomial × κ := (.single t.1, t.2)

/-- The term that a bilinear entry stands for. -/
def bilinearEntry (t : Variable × Variable × κ) : Monomial × κ := (.ofList [t.1, t.2.1], t.2.2)

/-- The terms of all parts, the constant included. -/
def entries (l : Lowered κ) : List (Monomial × κ) :=
  (1, l.constant) ::
    (l.linear.map linearEntry ++ (l.bilinear.map bilinearEntry ++ l.higher))

/-- The terms of degree one and more of an expression are in the parts of their
degrees, in order and without repeats. -/
structure Partitions (l : Lowered κ) (e : Expr κ) : Prop where
  /-- Terms of degree one, in order. -/
  linear : l.linear.map linearEntry = e.terms.entries.filter fun t => decide (t.1.degree = 1)
  /-- Terms of degree two, in order. -/
  bilinear :
    l.bilinear.map bilinearEntry = e.terms.entries.filter fun t => decide (t.1.degree = 2)
  /-- Terms of degree three and more, in order. -/
  higher : l.higher = e.terms.entries.filter fun t => decide (2 < t.1.degree)
  /-- The factors of a bilinear term are in order; those of a square are equal. -/
  factors_le : ∀ t ∈ l.bilinear, t.1 ≤ t.2.1
  linear_increasing : l.linear.Pairwise fun s t => s.1 < t.1
  bilinear_increasing :
    l.bilinear.Pairwise fun s t => s.1 < t.1 ∨ s.1 = t.1 ∧ s.2.1 < t.2.1
  higher_increasing : l.higher.Pairwise fun s t => s.1 < t.1

/-! ## Terms of one degree -/

private theorem map_linearTerm? (t : Monomial × κ) :
    (linearTerm? t).map linearEntry = Option.guard (fun s => decide (s.1.degree = 1)) t := by
  obtain ⟨⟨xs, hxs⟩, c⟩ := t
  match xs, hxs with
  | [], hxs => rfl
  | [x], hxs => rfl
  | x :: y :: zs, hxs => rfl

private theorem map_bilinearTerm? (t : Monomial × κ) :
    (bilinearTerm? t).map bilinearEntry = Option.guard (fun s => decide (s.1.degree = 2)) t := by
  obtain ⟨⟨xs, hxs⟩, c⟩ := t
  match xs, hxs with
  | [], hxs => rfl
  | [x], hxs => rfl
  | [x, y], hxs =>
      have hfactors : Monomial.ofList [x, y] = ⟨[x, y], hxs⟩ :=
        Monomial.ofList_factors ⟨[x, y], hxs⟩
      show some (Monomial.ofList [x, y], c) = some (⟨[x, y], hxs⟩, c)
      rw [hfactors]
  | x :: y :: z :: zs, hxs => rfl

private theorem map_filterMap_guard {α β : Type} {f : α → Option β} {g : β → α} {p : α → Bool}
    (h : ∀ t, (f t).map g = Option.guard p t) (ts : List α) :
    (ts.filterMap f).map g = ts.filter p := by
  rw [List.map_filterMap, funext h, List.filterMap_eq_filter]

/-- A bilinear term has its factors in order. -/
private theorem le_of_bilinearTerm? {t : Monomial × κ} {s : Variable × Variable × κ}
    (h : bilinearTerm? t = some s) : s.1 ≤ s.2.1 := by
  obtain ⟨⟨xs, hxs⟩, c⟩ := t
  match xs, hxs with
  | [], hxs => exact nomatch h
  | [x], hxs => exact nomatch h
  | [x, y], hxs =>
      obtain rfl := Option.some.inj h
      exact (List.pairwise_cons.1 hxs).1 y (List.mem_singleton_self y)
  | x :: y :: z :: zs, hxs => exact nomatch h

private theorem single_lt_single {x y : Variable} (h : Monomial.single x < Monomial.single y) :
    x < y := by
  have hlex : [x] < [y] := h
  simpa [List.cons_lt_cons_iff] using hlex

private theorem lt_of_ofList_lt_ofList {x y u w : Variable} (hxy : x ≤ y) (huw : u ≤ w)
    (h : Monomial.ofList [x, y] < Monomial.ofList [u, w]) : x < u ∨ x = u ∧ y < w := by
  have hfactors {p q : Variable} (hpq : p ≤ q) : (Monomial.ofList [p, q]).factors = [p, q] :=
    congrArg Monomial.factors (Monomial.ofList_factors ⟨[p, q], by simpa using hpq⟩)
  rw [Monomial.lt_iff, hfactors hxy, hfactors huw] at h
  simpa [List.cons_lt_cons_iff] using h

variable [Scalar κ]

/-- **Increasing terms are partitioned.** -/
theorem partitions_ofTerms (e : Expr κ) : (ofTerms e.terms.entries).Partitions e := by
  have hlinear : (ofTerms e.terms.entries).linear.map linearEntry =
      e.terms.entries.filter fun t => decide (t.1.degree = 1) :=
    map_filterMap_guard map_linearTerm? e.terms.entries
  have hbilinear : (ofTerms e.terms.entries).bilinear.map bilinearEntry =
      e.terms.entries.filter fun t => decide (t.1.degree = 2) :=
    map_filterMap_guard map_bilinearTerm? e.terms.entries
  have hfactors : ∀ t ∈ (ofTerms e.terms.entries).bilinear, t.1 ≤ t.2.1 := by
    intro t ht
    obtain ⟨s, _, hs⟩ := List.mem_filterMap.1 ht
    exact le_of_bilinearTerm? hs
  refine ⟨hlinear, hbilinear, rfl, hfactors, ?_, ?_, e.terms.sorted.filter _⟩
  · have hsorted := e.terms.sorted.filter fun t => decide (t.1.degree = 1)
    rw [← hlinear, List.pairwise_map] at hsorted
    exact hsorted.imp single_lt_single
  · have hsorted := e.terms.sorted.filter fun t => decide (t.1.degree = 2)
    rw [← hbilinear, List.pairwise_map] at hsorted
    exact hsorted.imp_of_mem fun hs ht => lt_of_ofList_lt_ofList (hfactors _ hs) (hfactors _ ht)

/-- What lowering gives is the partition of the terms that are kept. -/
theorem partitions_of_ofExpr {e : Expr κ} {config : LowerConfig κ} {l : Lowered κ}
    (h : ofExpr e config = .ok l) : l.Partitions (e.kept config) := by
  obtain ⟨_, rfl⟩ := ofExpr_eq_ok_iff.1 h
  exact partitions_ofTerms (e.kept config)

/-- The constant of the parts is what is stored for the empty product, added to
zero. -/
theorem constant_ofTerms (e : Expr κ) :
    (ofTerms e.terms.entries).constant = ((e.get? 1).map (0 + ·)).getD 0 := by
  have hconstant : (e.terms.entries.filter fun t => t.1.isConstant) =
      (e.get? 1).toList.map (Prod.mk 1) := Terms.filter_isConstant e.terms
  show ((e.terms.entries.filter fun t => t.1.isConstant).map Prod.snd).foldl (· + ·) 0 = _
  rw [hconstant]
  cases e.get? 1 <;> rfl

/-! ## Nothing twice -/

namespace Partitions

omit [Scalar κ] in
theorem nodup_linear {l : Lowered κ} {e : Expr κ} (h : l.Partitions e) :
    (l.linear.map Prod.fst).Nodup := by
  refine List.pairwise_map.2 (h.linear_increasing.imp fun {s t} hlt heq => ?_)
  rw [heq] at hlt
  exact Std.lt_irrefl hlt

omit [Scalar κ] in
theorem nodup_bilinear {l : Lowered κ} {e : Expr κ} (h : l.Partitions e) :
    (l.bilinear.map fun t => (t.1, t.2.1)).Nodup := by
  refine List.pairwise_map.2 (h.bilinear_increasing.imp fun {s t} hlt heq => ?_)
  obtain ⟨hfirst, hsecond⟩ := Prod.mk.inj heq
  rw [hfirst, hsecond] at hlt
  rcases hlt with hlt | ⟨_, hlt⟩
  · exact Std.lt_irrefl hlt
  · exact Std.lt_irrefl hlt

omit [Scalar κ] in
theorem nodup_higher {l : Lowered κ} {e : Expr κ} (h : l.Partitions e) :
    (l.higher.map Prod.fst).Nodup := by
  refine List.pairwise_map.2 (h.higher_increasing.imp fun {s t} hlt heq => ?_)
  rw [heq] at hlt
  exact Std.lt_irrefl hlt

/-! ## Nothing lost -/

omit [Scalar κ] in
/-- **The parts have the coefficients of the expression.** Only what they have for
the empty product is their constant, which the expression may not store. -/
theorem coefficientsOf_entries {l : Lowered κ} {e : Expr κ} (h : l.Partitions e)
    (m : Monomial) :
    Terms.coefficientsOf l.entries m =
      if m = 1 then [l.constant] else (e.get? m).toList := by
  have hentries : Terms.coefficientsOf e.terms.entries m = (e.get? m).toList :=
    Terms.coefficientsOf_eq_toList e.terms.sorted m
  unfold entries
  rw [Terms.coefficientsOf_cons, h.linear, h.bilinear, h.higher, Terms.coefficientsOf_append,
    Terms.coefficientsOf_append, Terms.coefficientsOf_filter fun k => decide (k.degree = 1),
    Terms.coefficientsOf_filter fun k => decide (k.degree = 2),
    Terms.coefficientsOf_filter fun k => decide (2 < k.degree), hentries]
  simp only [decide_eq_true_eq]
  by_cases hone : m = 1
  · have hzero : m.degree = 0 := Monomial.degree_eq_zero_iff.2 hone
    rw [if_pos hone.symm, if_pos hone, if_neg (by omega), if_neg (by omega), if_neg (by omega)]
    rfl
  · have hpos : m.degree ≠ 0 := fun hzero => hone (Monomial.degree_eq_zero_iff.1 hzero)
    rw [if_neg (Ne.symm hone), if_neg hone]
    -- A degree of at least one belongs to exactly one of the parts.
    have hcases : m.degree = 1 ∨ m.degree = 2 ∨ 2 < m.degree := by omega
    rcases hcases with hd | hd | hd
    · rw [if_pos hd, if_neg (by omega), if_neg (by omega)]
      simp
    · rw [if_neg (by omega), if_pos hd, if_neg (by omega)]
      simp
    · rw [if_neg (by omega), if_neg (by omega), if_pos hd]
      simp

/-- **The expression built again** from the parts in any order: each coefficient is
added to zero, and the constant is always stored. -/
theorem get?_ofTerms {l : Lowered κ} {e : Expr κ} (h : l.Partitions e)
    {ts : List (Monomial × κ)} (hts : ts.Perm l.entries) (m : Monomial) :
    (Expr.ofTerms ts).get? m =
      if m = 1 then some (0 + l.constant) else (e.get? m).map (0 + ·) := by
  have hperm : (Terms.coefficientsOf ts m).Perm
      (if m = 1 then [l.constant] else (e.get? m).toList) := by
    rw [← h.coefficientsOf_entries]
    exact (hts.filter _).map Prod.snd
  have hsum : (Expr.ofTerms ts).get? m = Terms.sum? (Terms.coefficientsOf ts m) :=
    Terms.get?_ofList ts m
  rw [hsum]
  by_cases hone : m = 1
  · rw [if_pos hone] at hperm ⊢
    rw [List.perm_singleton.1 hperm]
    rfl
  · rw [if_neg hone] at hperm ⊢
    cases hget : e.get? m with
    | none =>
        rw [hget] at hperm
        rw [List.perm_nil.1 hperm]
        rfl
    | some c =>
        rw [hget] at hperm
        rw [List.perm_singleton.1 hperm]
        rfl

end Partitions

/-! ## Doubles -/

section Doubles

variable {e : Expr Float} {config : LowerConfig Float} {l : Lowered Float}

theorem isFinite_kept (h : ofExpr e config = .ok l) :
    ∀ t ∈ (e.kept config).terms.entries, Scalar.isFinite t.2 = true := by
  obtain ⟨hrefusal, _⟩ := ofExpr_eq_ok_iff.1 h
  intro t ht
  exact isFinite_of_refusal?_eq_none (hrefusal t (List.mem_of_mem_filter ht))

theorem isFinite_constant_kept (h : ofExpr e config = .ok l) :
    Scalar.isFinite (e.kept config).constant = true :=
  Expr.isFinite_coefficient (isFinite_kept h) 1

theorem number_constant (h : ofExpr e config = .ok l) :
    Double.number l.constant = Double.number (e.kept config).constant := by
  obtain ⟨_, rfl⟩ := ofExpr_eq_ok_iff.1 h
  have hconstant := constant_ofTerms (e.kept config)
  unfold Expr.constant Expr.coefficient
  show Double.number (ofTerms (e.kept config).terms.entries).constant = _
  rw [hconstant]
  cases (e.kept config).get? 1 with
  | none => rfl
  | some c => exact Double.number_zero_add c

/-- The parts hold finite coefficients only. -/
theorem isFinite_entries (h : ofExpr e config = .ok l) :
    ∀ t ∈ l.entries, Scalar.isFinite t.2 = true := by
  have hpartitions := partitions_of_ofExpr h
  intro t ht
  rcases List.mem_cons.1 ht with rfl | ht
  · obtain ⟨q, hq⟩ := Double.isFinite_iff.1 (isFinite_constant_kept h)
    exact Double.isFinite_iff.2 ⟨q, (number_constant h).trans hq⟩
  · rw [hpartitions.linear, hpartitions.bilinear, hpartitions.higher, List.mem_append,
      List.mem_append] at ht
    rcases ht with ht | ht | ht
    · exact isFinite_kept h t (List.mem_of_mem_filter ht)
    · exact isFinite_kept h t (List.mem_of_mem_filter ht)
    · exact isFinite_kept h t (List.mem_of_mem_filter ht)

/-- Added to zero, a finite double is equal to what it was, though a negative zero
becomes a positive one. -/
private theorem beq_map_zero_add {es : List (Monomial × Float)}
    (h : ∀ t ∈ es, Scalar.isFinite t.2 = true) :
    ((es.map fun t => (t.1, 0 + t.2)) == es) = true := by
  induction es with
  | nil => rfl
  | cons t rest ih =>
      have hrest := ih fun s hs => h s (List.mem_cons_of_mem t hs)
      have hcoefficient : (0 + t.2 == t.2) = true :=
        Double.zero_add_beq (h t List.mem_cons_self)
      have hterm : (((t.1, 0 + t.2) : Monomial × Float) == t) = true := by
        show ((t.1 == t.1) && (0 + t.2 == t.2)) = true
        rw [beq_self_eq_true, hcoefficient]
        rfl
      show (((t.1, 0 + t.2) : Monomial × Float) == t &&
        ((rest.map fun s => (s.1, 0 + s.2)) == rest)) = true
      rw [hterm, hrest]
      rfl

private theorem withoutConstant_ofTerms (h : l.Partitions (e.kept config))
    {ts : List (Monomial × Float)} (hts : ts.Perm l.entries) :
    (Expr.ofTerms ts).withoutConstant.terms =
      (e.kept config).withoutConstant.terms.map (0 + ·) := by
  refine Terms.ext_get? fun m => ?_
  have hbuilt := h.get?_ofTerms hts m
  show ((Expr.ofTerms ts).terms.erase 1).get? m =
    (((e.kept config).terms.erase 1).map (0 + ·)).get? m
  rw [Terms.get?_erase, Terms.get?_map, Terms.get?_erase]
  by_cases hone : m = 1
  · rw [if_pos hone, if_pos hone]
    rfl
  · rw [if_neg hone, if_neg hone]
    rw [if_neg hone] at hbuilt
    exact hbuilt

/-- **Lowering loses, repeats and misplaces nothing.** The terms that are kept are
in the parts of their degrees, in their order, each once, and with the very
coefficients they had, all of them finite; the constant equals theirs, or zero.
The parts in any order build the kept terms again, up to a zero constant that the
expression may not store. -/
theorem ofExpr_partition (h : ofExpr e config = .ok l) :
    l.Partitions (e.kept config) ∧
    ((l.linear.map Prod.fst).Nodup ∧ (l.bilinear.map fun t => (t.1, t.2.1)).Nodup ∧
      (l.higher.map Prod.fst).Nodup) ∧
    (∀ t ∈ l.entries, Scalar.isFinite t.2 = true) ∧
    (l.constant == (e.kept config).constant) = true ∧
    ∀ ts : List (Monomial × Float), ts.Perm l.entries →
      ((Expr.ofTerms ts).withoutConstant == (e.kept config).withoutConstant) = true ∧
      ((Expr.ofTerms ts).constant == (e.kept config).constant) = true := by
  have hpartitions := partitions_of_ofExpr h
  have hconstant := isFinite_constant_kept h
  refine ⟨hpartitions, ⟨hpartitions.nodup_linear, hpartitions.nodup_bilinear,
    hpartitions.nodup_higher⟩, isFinite_entries h,
    Double.beq_of_number_eq hconstant (number_constant h), ?_⟩
  · intro ts hts
    constructor
    · have hentries : ((Expr.ofTerms ts).withoutConstant.terms.entries ==
          (e.kept config).withoutConstant.terms.entries) = true := by
        rw [withoutConstant_ofTerms hpartitions hts]
        refine beq_map_zero_add fun t ht => ?_
        exact isFinite_kept h t (List.mem_of_mem_filter ht)
      show (_ && _ && _) = true
      rw [hentries]
      rfl
    · have hbuilt := hpartitions.get?_ofTerms hts 1
      rw [if_pos rfl] at hbuilt
      have hvalue : (Expr.ofTerms ts).constant = 0 + l.constant := by
        unfold Expr.constant Expr.coefficient
        rw [hbuilt]
        rfl
      rw [hvalue]
      exact Double.beq_of_number_eq hconstant
        ((Double.number_zero_add l.constant).trans (number_constant h))

/-- `4 * x * x + 2 * x * y + x * y * z + 3 * y + z / 4 - 5`. -/
def ofEveryDegree : Expr Float where
  terms :=
    { entries :=
        [(1, -5.0), (⟨[⟨"x"⟩, ⟨"x"⟩], by decide⟩, 4.0), (⟨[⟨"x"⟩, ⟨"y"⟩], by decide⟩, 2.0),
          (⟨[⟨"x"⟩, ⟨"y"⟩, ⟨"z"⟩], by decide⟩, 1.0), (.single ⟨"y"⟩, 3.0), (.single ⟨"z"⟩, 0.25)]
      sorted := by decide }

/-- Drops coefficients up to one half and accepts cubic terms. -/
def coarse : LowerConfig Float :=
  { simplify := some .light, zeroTolerance := some 0.5, maxDegree := some 3 }

def ofEveryDegreeParts : Lowered Float where
  constant := -5.0
  linear := [(⟨"y"⟩, 3.0)]
  bilinear := [(⟨"x"⟩, ⟨"x"⟩, 4.0), (⟨"x"⟩, ⟨"y"⟩, 2.0)]
  higher := [(⟨[⟨"x"⟩, ⟨"y"⟩, ⟨"z"⟩], by decide⟩, 1.0)]

theorem ofExpr_partition_ofEveryDegree :
    ofExpr ofEveryDegree coarse = .ok ofEveryDegreeParts ∧
    ofEveryDegreeParts.Partitions (ofEveryDegree.kept coarse) ∧
    ofEveryDegreeParts.entries.reverse.Perm ofEveryDegreeParts.entries ∧
    ((Expr.ofTerms ofEveryDegreeParts.entries.reverse).withoutConstant ==
      (ofEveryDegree.kept coarse).withoutConstant) = true := by
  have hlowered : ofExpr ofEveryDegree coarse = .ok ofEveryDegreeParts := by rfl
  have hperm := List.reverse_perm ofEveryDegreeParts.entries
  obtain ⟨hpartitions, _, _, _, hbuilt⟩ := ofExpr_partition hlowered
  exact ⟨hlowered, hpartitions, hperm, (hbuilt _ hperm).1⟩

end Doubles

end Lowered

end PolyRow
