import PolyRow.Variable

/-!
# Monomials

A product of variables, repeats allowed. The factors are kept in order of their
names, so two products of the same factors are the same monomial whatever order
they were given in; the empty product is the key of constant terms.

Monomials are compared factor by factor, and a monomial that runs out first is
the smaller one. The empty product is therefore the least.

## Main results

* `ofList_eq_of_perm`: the order in which factors are given does not matter.
* `factors_perm_ofList`: sorting neither adds nor loses a factor.
* `mul_comm`, `mul_right_cancel`: products do not depend on the order and can be
  cancelled.
* `mem_factors_mul`, `degree_mul`: a product has the factors of both.
-/

namespace PolyRow

/-- A product of variables in order of their names. -/
structure Monomial where
  /-- The factors, one entry for each occurrence. -/
  factors : List Variable
  /-- No factor stands before a smaller one. -/
  sorted : factors.Pairwise (· ≤ ·)
deriving DecidableEq

namespace Monomial

@[ext] theorem ext {m n : Monomial} (h : m.factors = n.factors) : m = n := by
  cases m; cases n; simp_all

/-- The product of the given factors, in any order. -/
def ofList (xs : List Variable) : Monomial := ⟨Variable.sort xs, Variable.pairwise_sort xs⟩

/-- The empty product, which keys constant terms. -/
instance : One Monomial := ⟨⟨[], .nil⟩⟩

/-- One variable by itself. -/
def single (x : Variable) : Monomial := ⟨[x], List.pairwise_singleton _ x⟩

/-- Factors of both, sorted anew. -/
instance : Mul Monomial := ⟨fun m n => ofList (m.factors ++ n.factors)⟩

/-- Number of factors, repeats counted. -/
def degree (m : Monomial) : Nat := m.factors.length

/-- Whether this is the empty product. -/
def isConstant (m : Monomial) : Bool := m.factors.isEmpty

/-- Factors joined by stars; the empty product is written `1`. -/
instance : ToString Monomial :=
  ⟨fun m => if m.isConstant then "1" else "*".intercalate (m.factors.map Variable.name)⟩

/-! ## Order -/

instance : LT Monomial := ⟨fun m n => m.factors < n.factors⟩

instance : LE Monomial := ⟨fun m n => m.factors ≤ n.factors⟩

instance : DecidableLT Monomial :=
  fun m n => inferInstanceAs (Decidable (m.factors < n.factors))

instance : DecidableLE Monomial :=
  fun m n => inferInstanceAs (Decidable (m.factors ≤ n.factors))

theorem lt_iff {m n : Monomial} : m < n ↔ m.factors < n.factors := Iff.rfl

instance : Std.IsLinearOrder Monomial where
  le_refl m := Std.le_refl m.factors
  le_trans _ _ _ := Std.le_trans (α := List Variable)
  le_antisymm _ _ hmn hnm := ext (Std.le_antisymm (α := List Variable) hmn hnm)
  le_total m n := Std.le_total (a := m.factors) (b := n.factors)

instance : Std.LawfulOrderLT Monomial where
  lt_iff m n := Std.LawfulOrderLT.lt_iff m.factors n.factors

/-- Smaller, equal or greater, as an ordering. -/
instance : Ord Monomial := ⟨fun m n => if m < n then .lt else if m = n then .eq else .gt⟩

/-- Monomials from the least to the greatest; equal ones stay. -/
def sort (ms : List Monomial) : List Monomial := ms.mergeSort fun m n => decide (m ≤ n)

/-- Of two monomials that are neither ordered one way nor equal, the second is
the smaller. -/
theorem lt_of_not_lt_of_ne {m n : Monomial} (h : ¬ m < n) (hne : m ≠ n) : n < m := by
  grind

/-! ## Factors -/

@[simp] theorem factors_one : (1 : Monomial).factors = [] := rfl

@[simp] theorem factors_single (x : Variable) : (single x).factors = [x] := rfl

theorem factors_perm_ofList (xs : List Variable) : (ofList xs).factors.Perm xs :=
  Variable.sort_perm xs

theorem ofList_eq_of_perm {xs ys : List Variable} (h : xs.Perm ys) : ofList xs = ofList ys :=
  ext <| List.Perm.eq_of_pairwise (fun _ _ _ _ => Std.le_antisymm)
    (ofList xs).sorted (ofList ys).sorted
    ((factors_perm_ofList xs).trans (h.trans (factors_perm_ofList ys).symm))

/-- Factors already in order are kept as they are. -/
theorem ofList_factors (m : Monomial) : ofList m.factors = m :=
  ext <| List.Perm.eq_of_pairwise (fun _ _ _ _ => Std.le_antisymm)
    (ofList m.factors).sorted m.sorted (factors_perm_ofList m.factors)

/-- Monomials with the same factors are equal. -/
theorem eq_of_perm {m n : Monomial} (h : m.factors.Perm n.factors) : m = n := by
  rw [← ofList_factors m, ← ofList_factors n, ofList_eq_of_perm h]

/-- A monomial is made of the rearrangements of its factors and of nothing else. -/
theorem ofList_eq_iff {xs : List Variable} {m : Monomial} :
    ofList xs = m ↔ xs.Perm m.factors := by
  constructor
  · rintro rfl
    exact (factors_perm_ofList xs).symm
  · intro h
    rw [ofList_eq_of_perm h, ofList_factors]

theorem isConstant_iff {m : Monomial} : m.isConstant = true ↔ m = 1 := by
  constructor
  · intro h
    exact ext (by simpa [isConstant] using h)
  · rintro rfl
    rfl

/-- Only the empty product has degree zero. -/
theorem degree_eq_zero_iff {m : Monomial} : m.degree = 0 ↔ m = 1 := by
  rw [← isConstant_iff]
  exact List.length_eq_zero_iff.trans List.isEmpty_iff.symm

/-! ## Products -/

theorem factors_mul_perm (m n : Monomial) : (m * n).factors.Perm (m.factors ++ n.factors) :=
  factors_perm_ofList _

theorem mem_factors_mul {m n : Monomial} {x : Variable} :
    x ∈ (m * n).factors ↔ x ∈ m.factors ∨ x ∈ n.factors :=
  (factors_mul_perm m n).mem_iff.trans List.mem_append

theorem degree_mul (m n : Monomial) : (m * n).degree = m.degree + n.degree :=
  (factors_mul_perm m n).length_eq.trans List.length_append

protected theorem mul_comm (m n : Monomial) : m * n = n * m :=
  ofList_eq_of_perm List.perm_append_comm

protected theorem mul_one (m : Monomial) : m * 1 = m := by
  have hperm : (m * 1).factors.Perm (m.factors ++ []) := factors_mul_perm m 1
  rw [List.append_nil] at hperm
  exact eq_of_perm hperm

/-- A factor that two products share can be left out. -/
protected theorem mul_right_cancel {k m n : Monomial} (h : m * k = n * k) : m = n := by
  have hperm : (m.factors ++ k.factors).Perm (n.factors ++ k.factors) :=
    (factors_mul_perm m k).symm.trans (h ▸ factors_mul_perm n k)
  exact eq_of_perm ((List.perm_append_right_iff k.factors).1 hperm)

end Monomial

end PolyRow
