import PolyRow.Terms.Basic

/-!
# Addition of term tables

Sums of tables, tables of unordered lists of terms, and the terms of a product.
Tables are added in one pass over both. A list of terms is put in order first,
terms of one monomial staying in the order they were given, and then each run of
one monomial is summed from zero.
-/

namespace PolyRow.Terms

variable {κ : Type} [Scalar κ]

/-! ## Two tables -/

section Merge

/-- Two increasing lists in one: coefficients of a monomial of both are added,
and one of the second list alone is added to zero. -/
def mergeEntries : List (Monomial × κ) → List (Monomial × κ) → List (Monomial × κ)
  | [], fs => fs.map fun f => (f.1, 0 + f.2)
  | es, [] => es
  | (m, c) :: es, (n, d) :: fs =>
    if m < n then (m, c) :: mergeEntries es ((n, d) :: fs)
    else if m = n then (m, c + d) :: mergeEntries es fs
    else (n, 0 + d) :: mergeEntries ((m, c) :: es) fs
termination_by es fs => es.length + fs.length

theorem key_mem_mergeEntries {es fs : List (Monomial × κ)} {e : Monomial × κ}
    (h : e ∈ mergeEntries es fs) : e.1 ∈ es.map Prod.fst ∨ e.1 ∈ fs.map Prod.fst := by
  fun_induction mergeEntries es fs <;> grind

theorem pairwise_mergeEntries {es fs : List (Monomial × κ)}
    (hes : es.Pairwise fun s t => s.1 < t.1) (hfs : fs.Pairwise fun s t => s.1 < t.1) :
    (mergeEntries es fs).Pairwise fun s t => s.1 < t.1 := by
  fun_induction mergeEntries es fs with
  | case1 fs => simpa [List.pairwise_map] using hfs
  | case2 => exact hes
  | case3 m c es n d fs hlt ih =>
    rw [List.pairwise_cons] at hes
    refine List.pairwise_cons.2 ⟨fun e he => ?_, ih hes.2 hfs⟩
    rcases key_mem_mergeEntries he with he | he
    · obtain ⟨e', he', heq⟩ := List.mem_map.1 he
      exact heq ▸ hes.1 e' he'
    · obtain ⟨f, hf, heq⟩ := List.mem_map.1 he
      rw [← heq]
      rcases List.mem_cons.1 hf with rfl | hf
      · exact hlt
      · exact Std.lt_trans hlt ((List.pairwise_cons.1 hfs).1 f hf)
  | case4 c es n d fs hlt ih =>
    rw [List.pairwise_cons] at hes hfs
    refine List.pairwise_cons.2 ⟨fun e he => ?_, ih hes.2 hfs.2⟩
    rcases key_mem_mergeEntries he with he | he
    · obtain ⟨e', he', heq⟩ := List.mem_map.1 he
      exact heq ▸ hes.1 e' he'
    · obtain ⟨f, hf, heq⟩ := List.mem_map.1 he
      exact heq ▸ hfs.1 f hf
  | case5 m c es n d fs hlt hne ih =>
    have hgt := Monomial.lt_of_not_lt_of_ne hlt hne
    rw [List.pairwise_cons] at hfs
    refine List.pairwise_cons.2 ⟨fun e he => ?_, ih hes hfs.2⟩
    rcases key_mem_mergeEntries he with he | he
    · obtain ⟨e', he', heq⟩ := List.mem_map.1 he
      rw [← heq]
      rcases List.mem_cons.1 he' with rfl | he'
      · exact hgt
      · exact Std.lt_trans hgt ((List.pairwise_cons.1 hes).1 e' he')
    · obtain ⟨f, hf, heq⟩ := List.mem_map.1 he
      exact heq ▸ hfs.1 f hf

end Merge

/-- The entries of `s`, with those of `t` added to them. -/
def add (s t : Terms κ) : Terms κ :=
  ⟨mergeEntries s.entries t.entries, pairwise_mergeEntries s.sorted t.sorted⟩

/-! ## Lists of terms -/

section Collect

/-- Terms in order of their monomials. -/
def sortTerms (es : List (Monomial × κ)) : List (Monomial × κ) :=
  es.mergeSort fun s t => decide (s.1 ≤ t.1)

omit [Scalar κ] in
theorem sortTerms_perm (es : List (Monomial × κ)) : (sortTerms es).Perm es :=
  List.mergeSort_perm es _

omit [Scalar κ] in
theorem pairwise_sortTerms (es : List (Monomial × κ)) :
    (sortTerms es).Pairwise fun s t => s.1 ≤ t.1 := by
  have h := @List.pairwise_mergeSort _ (fun s t : Monomial × κ => decide (s.1 ≤ t.1))
    (by simpa using fun _ _ _ _ _ _ => Std.le_trans)
    (by simpa using fun m _ n _ => Std.le_total (a := m) (b := n)) es
  simpa [sortTerms] using h

/-- Sums the runs of equal monomials in an ordered list; `c` is the sum so far
of the run of `m` in front of it. -/
def collectFrom (m : Monomial) (c : κ) : List (Monomial × κ) → List (Monomial × κ)
  | [] => [(m, c)]
  | (n, d) :: es =>
    if n = m then collectFrom m (c + d) es else (m, c) :: collectFrom n (0 + d) es

/-- Sums each run of equal monomials in an ordered list, from zero. -/
def collect : List (Monomial × κ) → List (Monomial × κ)
  | [] => []
  | (m, c) :: es => collectFrom m (0 + c) es

theorem key_mem_collectFrom {m : Monomial} {c : κ} {es : List (Monomial × κ)}
    {e : Monomial × κ} (h : e ∈ collectFrom m c es) : e.1 = m ∨ e.1 ∈ es.map Prod.fst := by
  induction es generalizing m c with
  | nil => simp_all [collectFrom]
  | cons d rest ih => grind [collectFrom]

theorem pairwise_collectFrom {m : Monomial} {c : κ} {es : List (Monomial × κ)}
    (hm : ∀ e ∈ es, m ≤ e.1) (hes : es.Pairwise fun s t => s.1 ≤ t.1) :
    (collectFrom m c es).Pairwise fun s t => s.1 < t.1 := by
  induction es generalizing m c with
  | nil => simp [collectFrom]
  | cons e rest ih =>
    obtain ⟨n, d⟩ := e
    rw [List.pairwise_cons] at hes
    simp only [collectFrom]
    split
    · exact ih (fun e he => hm e (List.mem_cons_of_mem _ he)) hes.2
    · rename_i hne
      have hlt : m < n := by
        have := hm (n, d) List.mem_cons_self
        grind
      refine List.pairwise_cons.2 ⟨fun e he => ?_, ih hes.1 hes.2⟩
      rcases key_mem_collectFrom he with heq | he
      · exact heq ▸ hlt
      · obtain ⟨e', he', heq⟩ := List.mem_map.1 he
        have := hes.1 e' he'
        grind

theorem pairwise_collect {es : List (Monomial × κ)} (hes : es.Pairwise fun s t => s.1 ≤ t.1) :
    (collect es).Pairwise fun s t => s.1 < t.1 := by
  cases es with
  | nil => exact .nil
  | cons e rest =>
    rw [List.pairwise_cons] at hes
    exact pairwise_collectFrom hes.1 hes.2

end Collect

/-- The table of a list of terms: coefficients of one monomial are summed in
the order of the list, from zero. -/
def ofList (es : List (Monomial × κ)) : Terms κ :=
  ⟨collect (sortTerms es), pairwise_collect (pairwise_sortTerms es)⟩

/-- Every product of a term of `s` with a term of `t`, those of the first term
of `s` first. -/
def products (s t : Terms κ) : List (Monomial × κ) :=
  s.entries.flatMap fun l => t.entries.map fun r => (l.1 * r.1, l.2 * r.2)

end PolyRow.Terms
