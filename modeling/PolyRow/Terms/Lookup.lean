import PolyRow.Terms.Addition

/-!
# Look-up in term tables

A table is known by what `get?` finds in it: one equation for each operation
says how the coefficients that are found change, and two tables that agree on
every monomial are equal.

## Main results

* `get?_eq_some_iff`: what is found is what is stored.
* `findSome?_entries_eq_some_iff`: a search over the entries.
* `keys_ext`, `ext_get?`: a table is determined by what is found in it, and its
  keys by where something is found.
* `get?_map`, `get?_filter`, `get?_erase`, `get?_accumulate`: one table.
* `get?_add`: a monomial of both tables has the sum of its coefficients.
* `get?_ofList`: a listed monomial has the sum of its coefficients, taken from
  zero in the order of the list.
-/

namespace PolyRow.Terms

variable {κ : Type}

/-! ## Lists of entries -/

section Lookup

/-- Nothing is found for a monomial that is no key. -/
theorem lookup_eq_none_of_notMem {m : Monomial} {es : List (Monomial × κ)}
    (h : m ∉ es.map Prod.fst) : es.lookup m = none := by
  induction es with
  | nil => rfl
  | cons e rest ih =>
    simp only [List.map_cons, List.mem_cons, not_or] at h
    rw [List.lookup_cons, beq_false_of_ne h.1]
    exact ih h.2

/-- Nothing is found for a monomial below every key. -/
theorem lookup_eq_none_of_lt {m : Monomial} {es : List (Monomial × κ)}
    (h : ∀ e ∈ es, m < e.1) : es.lookup m = none :=
  lookup_eq_none_of_notMem fun hm => by
    obtain ⟨e, he, heq⟩ := List.mem_map.1 hm
    exact Std.lt_irrefl (heq ▸ h e he)

/-- In an increasing list, what is found is what is there. -/
theorem lookup_eq_some_iff {m : Monomial} {c : κ} {es : List (Monomial × κ)}
    (h : es.Pairwise fun s t => s.1 < t.1) : es.lookup m = some c ↔ (m, c) ∈ es := by
  induction es with
  | nil => simp
  | cons e rest ih =>
    obtain ⟨k, d⟩ := e
    rw [List.pairwise_cons] at h
    rw [List.lookup_cons, List.mem_cons]
    by_cases hm : m = k
    · subst hm
      have hrest : (m, c) ∉ rest := fun hc => Std.lt_irrefl (h.1 (m, c) hc)
      simp [hrest, eq_comm]
    · rw [beq_false_of_ne hm, ih h.2]
      simp [hm]

/-- Altering the entry of `m` changes what is found for `m` and for nothing else. -/
theorem lookup_alterEntries {m n : Monomial} {f : Option κ → κ} {es : List (Monomial × κ)}
    (h : es.Pairwise fun s t => s.1 < t.1) :
    (alterEntries m f es).lookup n = if n = m then some (f (es.lookup m)) else es.lookup n := by
  induction es with
  | nil =>
    by_cases hnm : n = m
    · simp [alterEntries, hnm]
    · simp [alterEntries, List.lookup_cons, beq_false_of_ne hnm, hnm]
  | cons e rest ih =>
    obtain ⟨k, d⟩ := e
    rw [List.pairwise_cons] at h
    simp only [alterEntries]
    split
    · rename_i hlt
      have hm : List.lookup m ((k, d) :: rest) = none :=
        lookup_eq_none_of_lt fun e he => by
          rcases List.mem_cons.1 he with rfl | he
          · exact hlt
          · exact Std.lt_trans hlt (h.1 e he)
      by_cases hnm : n = m
      · subst hnm; simp [hm]
      · rw [List.lookup_cons, beq_false_of_ne hnm, if_neg hnm]
    · split
      · rename_i heq
        subst heq
        by_cases hnm : n = m
        · subst hnm; simp
        · simp [List.lookup_cons, beq_false_of_ne hnm, hnm]
      · rename_i hlt hne
        rw [List.lookup_cons, List.lookup_cons, List.lookup_cons, beq_false_of_ne hne, ih h.2]
        by_cases hnk : n = k
        · subst hnk
          simp [Ne.symm hne]
        · simp [beq_false_of_ne hnk]

variable [Scalar κ]

/-- The coefficient of a monomial after one table is added to another. -/
def addFound : Option κ → Option κ → Option κ
  | some c, some d => some (c + d)
  | some c, none => some c
  | none, some d => some (0 + d)
  | none, none => none

theorem lookup_mergeEntries {es fs : List (Monomial × κ)}
    (hes : es.Pairwise fun s t => s.1 < t.1) (hfs : fs.Pairwise fun s t => s.1 < t.1)
    (k : Monomial) : (mergeEntries es fs).lookup k = addFound (es.lookup k) (fs.lookup k) := by
  fun_induction mergeEntries es fs with
  | case1 fs =>
    clear hes hfs
    induction fs with
    | nil => rfl
    | cons f rest ih =>
      rw [List.map_cons, List.lookup_cons, List.lookup_cons]
      cases k == f.1
      · exact ih
      · rfl
  | case2 => cases List.lookup k _ <;> rfl
  | case3 m c es n d fs hlt ih =>
    rw [List.pairwise_cons] at hes
    rw [List.lookup_cons, List.lookup_cons, ih hes.2 hfs]
    by_cases hk : k = m
    · subst hk
      have hnone : List.lookup k ((n, d) :: fs) = none :=
        lookup_eq_none_of_lt fun f hf => by
          rcases List.mem_cons.1 hf with rfl | hf
          · exact hlt
          · exact Std.lt_trans hlt ((List.pairwise_cons.1 hfs).1 f hf)
      simp [hnone, addFound]
    · simp [beq_false_of_ne hk]
  | case4 c es n d fs hlt ih =>
    rw [List.pairwise_cons] at hes hfs
    rw [List.lookup_cons, List.lookup_cons, List.lookup_cons, ih hes.2 hfs.2]
    cases k == n <;> rfl
  | case5 m c es n d fs hlt hne ih =>
    have hgt := Monomial.lt_of_not_lt_of_ne hlt hne
    rw [List.pairwise_cons] at hfs
    rw [List.lookup_cons, ih hes hfs.2]
    by_cases hk : k = n
    · subst hk
      have hnone : List.lookup k ((m, c) :: es) = none :=
        lookup_eq_none_of_lt fun e he => by
          rcases List.mem_cons.1 he with rfl | he
          · exact hgt
          · exact Std.lt_trans hgt ((List.pairwise_cons.1 hes).1 e he)
      simp [hnone, addFound]
    · simp [List.lookup_cons (k := n), beq_false_of_ne hk]

/-- The coefficients that a list of terms has for a monomial, in its order. -/
def coefficientsOf (es : List (Monomial × κ)) (m : Monomial) : List κ :=
  (es.filter fun e => e.1 = m).map Prod.snd

/-- The sum of coefficients from zero, if there is any of them. -/
def sum? : List κ → Option κ
  | [] => none
  | cs => some (cs.foldl (· + ·) 0)

theorem lookup_collectFrom {m : Monomial} {c : κ} {es : List (Monomial × κ)}
    (hm : ∀ e ∈ es, m ≤ e.1) (hes : es.Pairwise fun s t => s.1 ≤ t.1) (k : Monomial) :
    (collectFrom m c es).lookup k
      = if k = m then some ((coefficientsOf es m).foldl (· + ·) c)
        else sum? (coefficientsOf es k) := by
  induction es generalizing m c with
  | nil =>
    by_cases hk : k = m
    · simp [collectFrom, coefficientsOf, hk]
    · simp [collectFrom, coefficientsOf, List.lookup_cons, beq_false_of_ne hk, hk, sum?]
  | cons e rest ih =>
    obtain ⟨n, d⟩ := e
    rw [List.pairwise_cons] at hes
    simp only [collectFrom]
    split
    · rename_i heq
      subst heq
      rw [ih (fun e he => hm e (List.mem_cons_of_mem _ he)) hes.2]
      by_cases hk : k = n
      · simp [hk, coefficientsOf]
      · simp [hk, Ne.symm hk, coefficientsOf]
    · rename_i hne
      rw [List.lookup_cons, ih hes.1 hes.2]
      by_cases hk : k = m
      · subst hk
        have hnone : coefficientsOf ((n, d) :: rest) k = [] := by
          simp only [coefficientsOf, List.map_eq_nil_iff, List.filter_eq_nil_iff,
            decide_eq_true_eq]
          intro e he heq
          have hkn := hm (n, d) List.mem_cons_self
          rcases List.mem_cons.1 he with rfl | he
          · exact hne heq
          · have := hes.1 e he
            grind
        simp [hnone]
      · by_cases hkn : k = n
        · subst hkn
          simp [beq_false_of_ne hk, hk, coefficientsOf, sum?]
        · simp [beq_false_of_ne hk, hk, hkn, Ne.symm hkn, coefficientsOf]

theorem lookup_collect {es : List (Monomial × κ)} (hes : es.Pairwise fun s t => s.1 ≤ t.1)
    (k : Monomial) : (collect es).lookup k = sum? (coefficientsOf es k) := by
  cases es with
  | nil => rfl
  | cons e rest =>
    obtain ⟨n, d⟩ := e
    rw [List.pairwise_cons] at hes
    rw [collect, lookup_collectFrom hes.1 hes.2]
    by_cases hk : k = n
    · simp [hk, coefficientsOf, sum?]
    · simp [hk, Ne.symm hk, coefficientsOf]

omit [Scalar κ] in
/-- Sorting keeps the order among terms of one monomial. -/
theorem coefficientsOf_sortTerms (es : List (Monomial × κ)) (m : Monomial) :
    coefficientsOf (sortTerms es) m = coefficientsOf es m := by
  have hsub : (es.filter fun e => e.1 = m).Sublist (sortTerms es) := by
    refine List.sublist_mergeSort (by simpa using fun _ _ _ _ _ _ => Std.le_trans)
      (by simpa using fun m _ n _ => Std.le_total (a := m) (b := n)) ?_ List.filter_sublist
    refine List.pairwise_iff_forall_sublist.2 fun hab => ?_
    have ha := hab.subset List.mem_cons_self
    have hb := hab.subset (List.mem_cons_of_mem _ List.mem_cons_self)
    grind
  have hsub := hsub.filter fun e => e.1 = m
  rw [List.filter_filter] at hsub
  simp only [Bool.and_self] at hsub
  rw [coefficientsOf, coefficientsOf,
    hsub.eq_of_length ((sortTerms_perm es).filter fun e => e.1 = m).length_eq.symm]

end Lookup

/-! ## Tables -/

@[simp] theorem get?_empty (m : Monomial) : (empty : Terms κ).get? m = none := rfl

@[simp] theorem keys_empty : (empty : Terms κ).keys = [] := rfl

theorem get?_eq_some_iff {t : Terms κ} {m : Monomial} {c : κ} :
    t.get? m = some c ↔ (m, c) ∈ t.entries :=
  lookup_eq_some_iff t.sorted

theorem mem_keys_iff {t : Terms κ} {m : Monomial} : m ∈ t.keys ↔ (t.get? m).isSome := by
  simp [keys, Option.isSome_iff_exists, get?_eq_some_iff]

/-- A search that passes over the entries stops at the least monomial that it can stop
at. -/
theorem findSome?_entries_eq_some_iff {β : Type} {t : Terms κ} {p : Monomial × κ → Option β}
    {b : β} : t.entries.findSome? p = some b ↔
      ∃ e ∈ t.entries, p e = some b ∧ ∀ u ∈ t.entries, u.1 < e.1 → p u = none := by
  have hsorted := t.sorted
  generalize t.entries = es at hsorted
  rw [List.findSome?_eq_some_iff]
  constructor
  · rintro ⟨before, e, behind, rfl, hfound, hbefore⟩
    have hbehind := (List.pairwise_cons.1 (List.pairwise_append.1 hsorted).2.1).1
    refine ⟨e, List.mem_append_right _ List.mem_cons_self, hfound, fun u hu hlt => ?_⟩
    rcases List.mem_append.1 hu with hu | hu
    · exact hbefore u hu
    · rcases List.mem_cons.1 hu with rfl | hu
      · exact absurd hlt Std.lt_irrefl
      · exact absurd (Std.lt_trans hlt (hbehind u hu)) Std.lt_irrefl
  · rintro ⟨e, he, hfound, hsmaller⟩
    obtain ⟨before, behind, rfl⟩ := List.append_of_mem he
    have hbefore := (List.pairwise_append.1 hsorted).2.2
    refine ⟨before, e, behind, rfl, hfound, fun u hu => ?_⟩
    exact hsmaller u (List.mem_append_left _ hu) (hbefore u hu e List.mem_cons_self)

/-- Keys increase along a table. -/
theorem pairwise_keys (t : Terms κ) : t.keys.Pairwise (· < ·) := by
  simpa [keys, List.pairwise_map] using t.sorted

theorem nodup_keys (t : Terms κ) : t.keys.Nodup :=
  t.pairwise_keys.imp fun hlt => by rintro rfl; exact Std.lt_irrefl hlt

/-- Tables that have the same keys list them alike. -/
theorem keys_ext {s t : Terms κ} (h : ∀ m, m ∈ s.keys ↔ m ∈ t.keys) : s.keys = t.keys :=
  List.Perm.eq_of_pairwise
    (fun _ _ _ _ hmn hnm => absurd (Std.lt_trans hmn hnm) Std.lt_irrefl)
    s.pairwise_keys t.pairwise_keys
    ((List.perm_ext_iff_of_nodup s.nodup_keys t.nodup_keys).2 h)

/-- A table is determined by what is found in it. -/
theorem ext_get? {s t : Terms κ} (h : ∀ m, s.get? m = t.get? m) : s = t := by
  have hmem : ∀ e, e ∈ s.entries ↔ e ∈ t.entries := fun e => by
    rw [← get?_eq_some_iff (m := e.1) (c := e.2), ← get?_eq_some_iff, h]
  have nodup : ∀ u : Terms κ, u.entries.Nodup := fun u =>
    List.Pairwise.imp (fun hlt => by rintro rfl; exact Std.lt_irrefl hlt) u.sorted
  exact ext (List.Perm.eq_of_pairwise
    (fun a b _ _ hab hba => absurd (Std.lt_trans hab hba) Std.lt_irrefl)
    s.sorted t.sorted ((List.perm_ext_iff_of_nodup (nodup s) (nodup t)).2 hmem))

/-! ## Operations -/

@[simp] theorem keys_map (f : κ → κ) (t : Terms κ) : (t.map f).keys = t.keys := by
  simp [keys, map]

theorem get?_map (f : κ → κ) (t : Terms κ) (m : Monomial) :
    (t.map f).get? m = (t.get? m).map f := by
  refine Option.ext fun c => ?_
  rw [get?_eq_some_iff, Option.map_eq_some_iff]
  simp only [map, List.mem_map, get?_eq_some_iff, Prod.mk.injEq]
  constructor
  · rintro ⟨e, he, rfl, rfl⟩
    exact ⟨e.2, he, rfl⟩
  · rintro ⟨d, hd, rfl⟩
    exact ⟨(m, d), hd, rfl, rfl⟩

theorem get?_filter (p : Monomial × κ → Bool) (t : Terms κ) (m : Monomial) :
    (t.filter p).get? m = (t.get? m).filter fun c => p (m, c) := by
  refine Option.ext fun c => ?_
  rw [get?_eq_some_iff, Option.filter_eq_some_iff, get?_eq_some_iff]
  simp [filter]

theorem get?_erase (t : Terms κ) (m n : Monomial) :
    (t.erase m).get? n = if n = m then none else t.get? n := by
  rw [erase, get?_filter]
  by_cases hnm : n = m <;> cases t.get? n <;> simp [hnm]

variable [Scalar κ]

/-- Accumulating at `m` adds to its entry and leaves every other one alone. -/
theorem get?_accumulate (t : Terms κ) (m n : Monomial) (c : κ) :
    (t.accumulate m c).get? n
      = if n = m then some ((t.get? m).getD 0 + c) else t.get? n :=
  lookup_alterEntries t.sorted

theorem get?_add (s t : Terms κ) (m : Monomial) :
    (s.add t).get? m = addFound (s.get? m) (t.get? m) :=
  lookup_mergeEntries s.sorted t.sorted m

theorem get?_ofList (es : List (Monomial × κ)) (m : Monomial) :
    (ofList es).get? m = sum? (coefficientsOf es m) :=
  (lookup_collect (pairwise_sortTerms es) m).trans (by rw [coefficientsOf_sortTerms])

/-- Accumulating adds one key and loses none. -/
theorem mem_keys_accumulate (t : Terms κ) (m n : Monomial) (c : κ) :
    n ∈ (t.accumulate m c).keys ↔ n = m ∨ n ∈ t.keys := by
  rw [mem_keys_iff, mem_keys_iff, get?_accumulate]
  by_cases hnm : n = m <;> simp [hnm]

/-- A sum has the keys of both tables. -/
theorem mem_keys_add (s t : Terms κ) (m : Monomial) :
    m ∈ (s.add t).keys ↔ m ∈ s.keys ∨ m ∈ t.keys := by
  rw [mem_keys_iff, mem_keys_iff, mem_keys_iff, get?_add]
  cases s.get? m <;> cases t.get? m <;> simp [addFound]

theorem mem_keys_ofList (es : List (Monomial × κ)) (m : Monomial) :
    m ∈ (ofList es).keys ↔ m ∈ es.map Prod.fst := by
  have hne : (sum? (coefficientsOf es m)).isSome ↔ coefficientsOf es m ≠ [] := by
    cases coefficientsOf es m <;> simp [sum?]
  rw [mem_keys_iff, get?_ofList, hne]
  simp [coefficientsOf, List.filter_eq_nil_iff]

/-- The monomials of the products, one for each pair. -/
theorem map_fst_products (s t : Terms κ) :
    (s.products t).map Prod.fst = s.keys.flatMap fun k => t.keys.map (k * ·) := by
  simp [products, keys, List.map_flatMap, List.flatMap_map, Function.comp_def]

end PolyRow.Terms
