/-!
# Variables

A variable is known by its name alone. Names may be any text, the empty one
included, and are ordered by code point, which is also the order of their
UTF-8 bytes.
-/

namespace PolyRow

/-- A decision variable. -/
structure Variable where
  /-- The name, by which variables are compared and told apart. -/
  name : String
deriving DecidableEq, Hashable

namespace Variable

instance : LT Variable := ⟨fun x y => x.name < y.name⟩

instance : LE Variable := ⟨fun x y => x.name ≤ y.name⟩

instance : DecidableLT Variable := fun x y => inferInstanceAs (Decidable (x.name < y.name))

instance : DecidableLE Variable := fun x y => inferInstanceAs (Decidable (x.name ≤ y.name))

instance : ToString Variable := ⟨Variable.name⟩

theorem lt_iff {x y : Variable} : x < y ↔ x.name < y.name := Iff.rfl

instance : Std.IsLinearOrder Variable where
  le_refl x := Std.le_refl x.name
  le_trans _ _ _ := Std.le_trans (α := String)
  le_antisymm x y hxy hyx := by
    have : x.name = y.name := Std.le_antisymm hxy hyx
    cases x; cases y; simp_all
  le_total x y := Std.le_total (a := x.name) (b := y.name)

instance : Std.LawfulOrderLT Variable where
  lt_iff x y := Std.LawfulOrderLT.lt_iff x.name y.name

/-- Variables from the least name to the greatest; equal ones stay. -/
def sort (xs : List Variable) : List Variable :=
  xs.mergeSort fun x y => decide (x ≤ y)

theorem sort_perm (xs : List Variable) : (sort xs).Perm xs :=
  List.mergeSort_perm xs _

theorem pairwise_sort (xs : List Variable) : (sort xs).Pairwise (· ≤ ·) := by
  have h := @List.pairwise_mergeSort _ (fun x y : Variable => decide (x ≤ y))
    (by simpa using fun _ _ _ => Std.le_trans)
    (by simpa using fun x y => Std.le_total (a := x) (b := y)) xs
  simpa [sort] using h

end Variable

end PolyRow
