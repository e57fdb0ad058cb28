import PolyRow.Scalar
import PolyRow.Monomial

/-!
# Term tables

The terms of an expression: a coefficient for each of finitely many monomials,
listed in strictly increasing order of the monomials. A coefficient of zero is
an entry like any other: it stays until it is filtered out.

An entry that is missing counts as zero when something is added to it. Over
doubles that start is visible: `0 + c` turns a negative zero into a positive
one.

This module holds the table and what acts on its entries one by one; tables are
added up in `PolyRow.Terms.Addition`. What each operation does to the
coefficients that are found is said in `PolyRow.Terms.Lookup`.
-/

namespace PolyRow

/-- Coefficients keyed by monomial, in increasing order of the keys. -/
structure Terms (κ : Type) where
  /-- The entries, smallest monomial first. -/
  entries : List (Monomial × κ)
  /-- Keys are distinct and increase along the list. -/
  sorted : entries.Pairwise fun s t => s.1 < t.1

namespace Terms

variable {κ : Type}

@[ext] theorem ext {s t : Terms κ} (h : s.entries = t.entries) : s = t := by
  cases s; cases t; simp_all

/-- The table without entries. -/
def empty : Terms κ := ⟨[], .nil⟩

/-- Monomials that have an entry. -/
def keys (t : Terms κ) : List Monomial := t.entries.map Prod.fst

/-- Number of entries, those with coefficient zero counted. -/
def size (t : Terms κ) : Nat := t.entries.length

/-- The coefficient stored for a monomial. -/
def get? (t : Terms κ) (m : Monomial) : Option κ := t.entries.lookup m

/-- The table that has the same keys and each coefficient replaced. -/
def map (f : κ → κ) (t : Terms κ) : Terms κ where
  entries := t.entries.map fun e => (e.1, f e.2)
  sorted := by simpa [List.pairwise_map] using t.sorted

/-- The entries that pass a test. -/
def filter (p : Monomial × κ → Bool) (t : Terms κ) : Terms κ where
  entries := t.entries.filter p
  sorted := t.sorted.filter p

/-- The table without the entry of a monomial. -/
def erase (t : Terms κ) (m : Monomial) : Terms κ := t.filter fun e => e.1 != m

/-! ## One entry -/

section Alter

/-- Replaces what is stored for `m` in an increasing list, or inserts it where
it belongs. -/
def alterEntries (m : Monomial) (f : Option κ → κ) :
    List (Monomial × κ) → List (Monomial × κ)
  | [] => [(m, f none)]
  | (n, d) :: rest =>
    if m < n then (m, f none) :: (n, d) :: rest
    else if m = n then (n, f (some d)) :: rest
    else (n, d) :: alterEntries m f rest

theorem key_mem_alterEntries {m : Monomial} {f : Option κ → κ} {es : List (Monomial × κ)}
    {e : Monomial × κ} (h : e ∈ alterEntries m f es) : e.1 = m ∨ ∃ e' ∈ es, e'.1 = e.1 := by
  induction es with
  | nil => simp_all [alterEntries]
  | cons d rest ih => grind [alterEntries]

theorem pairwise_alterEntries {m : Monomial} {f : Option κ → κ} {es : List (Monomial × κ)}
    (h : es.Pairwise fun s t => s.1 < t.1) :
    (alterEntries m f es).Pairwise fun s t => s.1 < t.1 := by
  induction es with
  | nil => simp [alterEntries]
  | cons d rest ih =>
    obtain ⟨n, d⟩ := d
    rw [List.pairwise_cons] at h
    simp only [alterEntries]
    split
    · rename_i hlt
      refine List.pairwise_cons.2 ⟨?_, List.pairwise_cons.2 h⟩
      intro e he
      rcases List.mem_cons.1 he with rfl | he
      · exact hlt
      · exact Std.lt_trans hlt (h.1 e he)
    · split
      · exact List.pairwise_cons.2 h
      · rename_i hlt hne
        refine List.pairwise_cons.2 ⟨?_, ih h.2⟩
        intro e he
        rcases key_mem_alterEntries he with hm | ⟨e', he', heq⟩
        · exact hm ▸ Monomial.lt_of_not_lt_of_ne hlt hne
        · exact heq ▸ h.1 e' he'

/-- The table in which the coefficient of `m` is `f` of what was stored. -/
def alter (t : Terms κ) (m : Monomial) (f : Option κ → κ) : Terms κ :=
  ⟨alterEntries m f t.entries, pairwise_alterEntries t.sorted⟩

/-- Adds `c` to the coefficient of `m`, which counts as zero while it is missing. -/
def accumulate [Scalar κ] (t : Terms κ) (m : Monomial) (c : κ) : Terms κ :=
  t.alter m fun old => old.getD 0 + c

end Alter

end Terms

end PolyRow
