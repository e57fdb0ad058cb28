import Mathlib
import PolyRow.Monomial

/-!
# Monomials as a free monoid

A monomial is a finite collection of names with repeats: sorting picks one list out of
all rearrangements of the same factors. So two lists of factors make the same monomial
exactly if they are rearrangements of one another, and whatever holds of collections
under union holds of monomials under products. In particular a product is determined by
what the single variables are mapped to: monomials are free on the variables.

The order of monomials looks at the sorted names from the front. It knows nothing of
products; what it has to be is total and strict, and equal on equal monomials only, for
tables are searched and merged by it.

## Main results

* `ofList_eq_ofList_iff`: when two lists of factors make one monomial.
* `lift`, `lift_unique`: a map of the variables extends to monomials in one way.
* `Precedes`, `lt_iff_precedes`: the order, by the first names that differ.
* `compare_eq_lt_iff`, `compare_eq_eq_iff`, `compare_eq_gt_iff`: the comparison.
* `free_on_names`: all of this in one statement.
-/

namespace PolyRow.Monomial

universe u

/-! ## Products -/

/-- **Factors make one monomial if they are rearrangements of one another**, and only
then. -/
theorem ofList_eq_ofList_iff {xs ys : List Variable} : ofList xs = ofList ys ↔ xs.Perm ys := by
  rw [ofList_eq_iff]
  constructor
  · intro h
    exact h.trans (factors_perm_ofList ys)
  · intro h
    exact h.trans (factors_perm_ofList ys).symm

theorem degree_ofList (xs : List Variable) : (ofList xs).degree = xs.length :=
  (factors_perm_ofList xs).length_eq

/-- The product of two monomials has the factors of both. -/
theorem ofList_mul_ofList (xs ys : List Variable) :
    ofList xs * ofList ys = ofList (xs ++ ys) := by
  have hfactors : ((ofList xs).factors ++ (ofList ys).factors).Perm (xs ++ ys) :=
    (factors_perm_ofList xs).append (factors_perm_ofList ys)
  exact ofList_eq_of_perm hfactors

/-- However three factors are grouped, the product has those of all three. -/
protected theorem mul_assoc (k m n : Monomial) : k * m * n = k * (m * n) := by
  rw [← ofList_factors k, ← ofList_factors m, ← ofList_factors n]
  simp only [ofList_mul_ofList, List.append_assoc]

protected theorem one_mul (m : Monomial) : 1 * m = m :=
  (Monomial.mul_comm 1 m).trans (Monomial.mul_one m)

instance : CommMonoid Monomial where
  mul_assoc := Monomial.mul_assoc
  one_mul := Monomial.one_mul
  mul_one := Monomial.mul_one
  mul_comm := Monomial.mul_comm

/-- Every list of factors makes the product of its variables. -/
theorem prod_map_single (xs : List Variable) : (xs.map single).prod = ofList xs := by
  induction xs with
  | nil => exact (ofList_eq_iff.2 .rfl).symm
  | cons x rest ih =>
      have hsingle : single x = ofList [x] := (ofList_eq_iff.2 .rfl).symm
      rw [List.map_cons, List.prod_cons, ih, hsingle, ofList_mul_ofList]
      rfl

section Lift

variable {M : Type u} [CommMonoid M]

/-- The product of what the factors are mapped to. -/
def lift (f : Variable → M) : Monomial →* M where
  toFun m := (m.factors.map f).prod
  map_one' := rfl
  map_mul' m n := by
    have hfactors : ((m * n).factors.map f).Perm (m.factors.map f ++ n.factors.map f) := by
      rw [← List.map_append]
      exact (factors_mul_perm m n).map f
    rw [hfactors.prod_eq, List.prod_append]

theorem lift_single (f : Variable → M) (x : Variable) : lift f (single x) = f x :=
  List.prod_singleton

/-- A map that respects products is known by its values at the single variables. -/
theorem lift_unique {f : Variable → M} {g : Monomial →* M} (h : ∀ x, g (single x) = f x) :
    g = lift f := by
  refine MonoidHom.ext fun m => ?_
  calc g m = g (m.factors.map single).prod := by rw [prod_map_single, ofList_factors]
    _ = ((m.factors.map single).map g).prod := map_list_prod g _
    _ = (m.factors.map f).prod := by
        rw [List.map_map]
        exact congrArg List.prod (List.map_congr_left fun x _ => h x)

end Lift

/-! ## Order -/

/-- The names of the factors, in order. -/
def names (m : Monomial) : List String := m.factors.map Variable.name

/-- A row of names is the smaller one if it is a proper beginning of the other, or if it
has the smaller name where they first differ. -/
def Precedes (xs ys : List String) : Prop :=
  (∃ y rest, ys = xs ++ y :: rest) ∨
  ∃ front x y xs' ys', xs = front ++ x :: xs' ∧ ys = front ++ y :: ys' ∧ x < y

theorem precedes_nil {ys : List String} : Precedes [] ys ↔ ys ≠ [] := by
  unfold Precedes
  cases ys <;> simp

theorem not_precedes_nil (xs : List String) : ¬ Precedes xs [] := by
  simp [Precedes]

theorem precedes_cons {x y : String} {xs ys : List String} :
    Precedes (x :: xs) (y :: ys) ↔ x < y ∨ x = y ∧ Precedes xs ys := by
  constructor
  · rintro (⟨z, rest, h⟩ | ⟨front, a, b, xs', ys', hx, hy, hlt⟩)
    · obtain ⟨rfl, rfl⟩ := List.cons.inj h
      exact .inr ⟨rfl, .inl ⟨z, rest, rfl⟩⟩
    · cases front with
      | nil =>
          obtain ⟨rfl, rfl⟩ := List.cons.inj hx
          obtain ⟨rfl, rfl⟩ := List.cons.inj hy
          exact .inl hlt
      | cons c front =>
          obtain ⟨rfl, rfl⟩ := List.cons.inj hx
          obtain ⟨rfl, rfl⟩ := List.cons.inj hy
          exact .inr ⟨rfl, .inr ⟨front, a, b, xs', ys', rfl, rfl, hlt⟩⟩
  · rintro (hlt | ⟨rfl, ⟨z, rest, rfl⟩ | ⟨front, a, b, xs', ys', rfl, rfl, hlt⟩⟩)
    · exact .inr ⟨[], x, y, xs, ys, rfl, rfl, hlt⟩
    · exact .inl ⟨z, rest, rfl⟩
    · exact .inr ⟨x :: front, a, b, xs', ys', rfl, rfl, hlt⟩

/-- **Monomials are ordered by the first names that differ**, and a proper beginning comes
first. -/
theorem lt_iff_precedes {m n : Monomial} : m < n ↔ Precedes m.names n.names := by
  rw [lt_iff]
  unfold names
  generalize m.factors = xs
  generalize n.factors = ys
  induction xs generalizing ys with
  | nil =>
      rw [List.map_nil, precedes_nil]
      cases ys <;> simp
  | cons x xs ih =>
      cases ys with
      | nil => simp [not_precedes_nil]
      | cons y ys =>
          have hname : x.name = y.name ↔ x = y :=
            ⟨fun h => by cases x; cases y; simp_all, congrArg Variable.name⟩
          rw [List.cons_lt_cons_iff, List.map_cons, List.map_cons, precedes_cons, ih, hname,
            Variable.lt_iff]

section Compare

variable {k m n : Monomial}

theorem compare_eq_lt_iff : compare m n = .lt ↔ m < n := compareOfLessAndEq_eq_lt

theorem compare_eq_eq_iff : compare m n = .eq ↔ m = n :=
  compareOfLessAndEq_eq_eq Std.le_refl Std.not_le

theorem compare_eq_gt_iff : compare m n = .gt ↔ n < m :=
  compareOfLessAndEq_eq_gt Std.le_antisymm (fun _ _ => Std.le_total) Std.not_le m n

/-- The empty product is smaller than every other monomial. -/
theorem one_lt_iff : 1 < m ↔ m ≠ 1 := by
  rw [lt_iff_precedes]
  show Precedes [] m.names ↔ m ≠ 1
  rw [precedes_nil, ne_eq, ne_eq, ← isConstant_iff]
  exact not_congr (List.map_eq_nil_iff.trans List.isEmpty_iff.symm)

end Compare

/-- **Monomials are the free commutative monoid on names, in a total order.**

* Two lists of factors make the same monomial exactly if they are rearrangements of one
  another.
* A product has the factors of both sides. It is commutative and associative, the empty
  product changes nothing, and a factor on both sides can be left out.
* The degree counts the factors, and degrees of a product add up.
* Any map of the variables into a commutative monoid extends to monomials, in one way.
* The comparison finds the first names that differ, a proper beginning being smaller. It
  answers equal for equal monomials only and greater where it is smaller the other way
  round, and it is transitive; the empty product is the least. -/
theorem free_on_names (xs ys : List Variable) (k m n : Monomial) :
    (ofList xs = ofList ys ↔ xs.Perm ys) ∧
    (ofList xs * ofList ys = ofList (xs ++ ys) ∧ m * n = n * m ∧ k * m * n = k * (m * n) ∧
      1 * m = m ∧ m * 1 = m ∧ (m * k = n * k ↔ m = n)) ∧
    ((ofList xs).degree = xs.length ∧ (m * n).degree = m.degree + n.degree) ∧
    (∀ (M : Type u) [CommMonoid M] (f : Variable → M),
      ∃! g : Monomial →* M, ∀ x, g (single x) = f x) ∧
    (compare m n = .lt ↔ Precedes m.names n.names) ∧
    (compare m n = .eq ↔ m = n) ∧
    (compare m n = .gt ↔ compare n m = .lt) ∧
    (compare k m = .lt → compare m n = .lt → compare k n = .lt) ∧
    (compare 1 m = .lt ↔ m ≠ 1) := by
  refine ⟨ofList_eq_ofList_iff, ⟨ofList_mul_ofList xs ys, Monomial.mul_comm m n,
    Monomial.mul_assoc k m n, Monomial.one_mul m, Monomial.mul_one m, ?_⟩,
    ⟨degree_ofList xs, degree_mul m n⟩, fun M _ f => ?_, ?_, compare_eq_eq_iff, ?_, ?_, ?_⟩
  · exact ⟨Monomial.mul_right_cancel, congrArg (· * k)⟩
  · exact ⟨lift f, lift_single f, fun g hg => lift_unique hg⟩
  · rw [compare_eq_lt_iff, lt_iff_precedes]
  · rw [compare_eq_gt_iff, compare_eq_lt_iff]
  · simp only [compare_eq_lt_iff]
    exact Std.lt_trans
  · rw [compare_eq_lt_iff, one_lt_iff]

/-- `p * p`. -/
def square : Monomial := ⟨[⟨"p"⟩, ⟨"p"⟩], by decide⟩

/-- `p * p * q`. -/
def squareTimes : Monomial := ⟨[⟨"p"⟩, ⟨"p"⟩, ⟨"q"⟩], by decide⟩

/-- `p * q`. -/
def mixed : Monomial := ⟨[⟨"p"⟩, ⟨"q"⟩], by decide⟩

/-- A square comes before its multiple, and both before a product of fewer factors with a
greater name in it. -/
theorem free_on_names_square_mixed :
    compare square squareTimes = .lt ∧ compare squareTimes mixed = .lt ∧
    compare square mixed = .lt := by
  have hbeginning : compare square squareTimes = .lt := by decide
  have hdiffering : compare squareTimes mixed = .lt := by decide
  obtain ⟨_, _, _, _, _, _, _, htrans, _⟩ := free_on_names.{0} [] [] square squareTimes mixed
  exact ⟨hbeginning, hdiffering, htrans hbeginning hdiffering⟩

end PolyRow.Monomial
