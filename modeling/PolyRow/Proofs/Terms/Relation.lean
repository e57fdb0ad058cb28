import Mathlib
import PolyRow.Proofs.Terms.Accumulation

/-!
# Related tables

Two runs of the same arithmetic on related numbers store related coefficients. What
the theory of tables gives is found one monomial at a time, by lookups, while
lowering, comparing and printing pass over the entries. For increasing entries the
two views agree: coefficients that are related wherever they are looked up stand in
entries that are related one by one.

## Main results

* `Terms.forall₂_entries`, `rel_lookup`: related lookups give related entries, and the
  other way round.
* `beq_iff_forall₂`: equality of entries.
* `rel_findSome?`, `rel_filter`: a first finding and a selection in related lists.
-/

namespace PolyRow

/-- Entries of one key with related coefficients. -/
def EntryRel {ι κ : Type} (R : κ → κ → Prop) (s t : ι × κ) : Prop := s.1 = t.1 ∧ R s.2 t.2

namespace Terms

variable {κ : Type} {R : κ → κ → Prop} {es fs : List (Monomial × κ)}

private theorem not_rel_lookup_cons {k : Monomial} {c : κ} (hfs : ∀ f ∈ fs, k < f.1) :
    ¬ Option.Rel R (((k, c) :: es).lookup k) (fs.lookup k) := by
  rw [List.lookup_cons, beq_self_eq_true, lookup_eq_none_of_lt hfs]
  exact fun h => nomatch h

private theorem not_rel_cons_lookup {k : Monomial} {c : κ} (hes : ∀ e ∈ es, k < e.1) :
    ¬ Option.Rel R (es.lookup k) (((k, c) :: fs).lookup k) := by
  rw [List.lookup_cons, beq_self_eq_true, lookup_eq_none_of_lt hes]
  exact fun h => nomatch h

private theorem lt_of_mem_cons_of_lt {k n : Monomial} {c : κ} (hlt : k < n)
    (hes : ∀ e ∈ es, n < e.1) : ∀ e ∈ (n, c) :: es, k < e.1 := by
  intro e he
  rcases List.mem_cons.1 he with rfl | he
  · exact hlt
  · exact Std.lt_trans hlt (hes e he)

/-- Increasing lists with related lookups begin with the same monomial: the smaller
of two different ones would be found in one list alone. -/
private theorem key_eq_of_rel {k n : Monomial} {c d : κ} (hes : ∀ e ∈ es, k < e.1)
    (hfs : ∀ f ∈ fs, n < f.1)
    (h : ∀ m, Option.Rel R (((k, c) :: es).lookup m) (((n, d) :: fs).lookup m)) : k = n := by
  by_contra hne
  by_cases hlt : k < n
  · exact not_rel_lookup_cons (lt_of_mem_cons_of_lt hlt hfs) (h k)
  · have hgt : n < k := Monomial.lt_of_not_lt_of_ne hlt hne
    exact not_rel_cons_lookup (lt_of_mem_cons_of_lt hgt hes) (h n)

/-- **Related lookups give related entries**, for increasing entries. -/
theorem forall₂_entries (hes : es.Pairwise fun s t => s.1 < t.1)
    (hfs : fs.Pairwise fun s t => s.1 < t.1)
    (h : ∀ m, Option.Rel R (es.lookup m) (fs.lookup m)) :
    List.Forall₂ (EntryRel R) es fs := by
  induction es generalizing fs with
  | nil =>
      cases fs with
      | nil => exact .nil
      | cons f fs => exact absurd (h f.1) (not_rel_cons_lookup (by simp))
  | cons e es ih =>
      obtain ⟨k, c⟩ := e
      rw [List.pairwise_cons] at hes
      cases fs with
      | nil => exact absurd (h k) (not_rel_lookup_cons (by simp))
      | cons f fs =>
          obtain ⟨n, d⟩ := f
          rw [List.pairwise_cons] at hfs
          obtain rfl := key_eq_of_rel hes.1 hfs.1 h
          have hhead : R c d := by
            have hk := h k
            rw [List.lookup_cons, List.lookup_cons, beq_self_eq_true] at hk
            cases hk with
            | some hcd => exact hcd
          refine .cons ⟨rfl, hhead⟩ (ih hes.2 hfs.2 fun m => ?_)
          -- The first monomial occurs in neither rest; every other one is found there.
          by_cases hm : m = k
          · subst hm
            rw [lookup_eq_none_of_lt hes.1, lookup_eq_none_of_lt hfs.1]
            exact .none
          · have hrest := h m
            rw [List.lookup_cons, List.lookup_cons, beq_false_of_ne hm] at hrest
            exact hrest

end Terms

/-- Related entries give related lookups. -/
theorem rel_lookup {ι κ : Type} [BEq ι] {R : κ → κ → Prop} {es fs : List (ι × κ)}
    (h : List.Forall₂ (EntryRel R) es fs) (m : ι) :
    Option.Rel R (es.lookup m) (fs.lookup m) := by
  induction h with
  | nil => exact .none
  | @cons s t ss ts hst _ ih =>
      rw [List.lookup_cons, List.lookup_cons, hst.1]
      cases m == t.1 with
      | false => exact ih
      | true => exact .some hst.2

/-- Lists of entries are equal if they have the same keys and equal coefficients. -/
theorem beq_iff_forall₂ {ι κ : Type} [BEq ι] [LawfulBEq ι] [BEq κ] {es fs : List (ι × κ)} :
    (es == fs) = true ↔ List.Forall₂ (EntryRel fun c d => (c == d) = true) es fs := by
  induction es generalizing fs with
  | nil => cases fs <;> simp
  | cons e es ih =>
      cases fs with
      | nil => simp
      | cons f fs =>
          have hhead : (e == f) = true ↔ EntryRel (fun c d => (c == d) = true) e f := by
            show (e.1 == f.1 && e.2 == f.2) = true ↔ _
            rw [Bool.and_eq_true, beq_iff_eq]
            rfl
          show (e == f && es == fs) = true ↔ _
          rw [Bool.and_eq_true, hhead, ih, List.forall₂_cons]

/-! ## Passing over related lists -/

variable {α β : Type} {R : α → α → Prop} {ss ts : List α}

/-- What is found first in related lists is related. -/
theorem rel_findSome? {E : β → β → Prop} {f : α → Option β}
    (hf : ∀ s t, R s t → Option.Rel E (f s) (f t)) (h : List.Forall₂ R ss ts) :
    Option.Rel E (ss.findSome? f) (ts.findSome? f) := by
  induction h with
  | nil => exact .none
  | @cons s t ss ts hst _ ih =>
      have hhead := hf s t hst
      rw [List.findSome?_cons, List.findSome?_cons]
      cases hs : f s <;> cases ht : f t <;> rw [hs, ht] at hhead
      · exact ih
      · exact nomatch hhead
      · exact nomatch hhead
      · exact hhead

/-- A test that related elements pass together selects related lists. -/
theorem rel_filter {f : α → Bool} (hf : ∀ s t, R s t → f s = f t) (h : List.Forall₂ R ss ts) :
    List.Forall₂ R (ss.filter f) (ts.filter f) :=
  List.rel_filter (fun s t hst => Bool.eq_iff_iff.1 (hf s t hst)) h

end PolyRow
