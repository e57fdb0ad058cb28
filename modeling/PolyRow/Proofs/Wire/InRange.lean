import Mathlib
import PolyRow.Proofs.Double.Whole
import PolyRow.Wire.Decode

/-!
# Trees in range

A JSON tree of this library may hold any whole number and any double. What a text
denotes is narrower: a whole number that fits into a machine word, or a finite
double. Every number of such a tree stands for a finite double, so a bound that is
read from it is never infinite.

## Main results

* `Json.Number.InRange.isFinite`: a number in range stands for a finite double.
* `Json.Document.inRange_of_toJson?`: a text denotes a tree in range.
* `Json.isFinite_of_toOptionalFloat?`: an optional number that is read is finite.
-/

namespace PolyRow.Json

/-- A number that a text can denote. -/
def Number.InRange : Number → Prop
  | .integer n => fitsWord n = true
  | .double x => Scalar.isFinite x = true

/-- A tree of which every number is in range. -/
inductive InRange : Json → Prop
  | null : InRange .null
  | bool (b : Bool) : InRange (.bool b)
  | number {n : Number} (h : n.InRange) : InRange (.number n)
  | string (s : String) : InRange (.string s)
  | array {items : List Json} (h : ∀ j ∈ items, InRange j) : InRange (.array items)
  | object {members : List (String × Json)} (h : ∀ m ∈ members, InRange m.2) :
      InRange (.object members)

/-! ## Numbers -/

/-- **A number in range stands for a finite double.** -/
theorem Number.InRange.isFinite {n : Number} (h : n.InRange) :
    Scalar.isFinite n.toFloat = true := by
  cases n with
  | double x => exact h
  | integer k =>
      have hword : -0x8000000000000000 ≤ k ∧ k < 0x10000000000000000 := of_decide_eq_true h
      have hsmall : |k| < 2 ^ 64 := abs_lt.2 ⟨by omega, by omega⟩
      have hbound : |(k : Rat)| < 2 ^ 64 := by exact_mod_cast hsmall
      have hroom : (2 : Rat) ^ 64 ≤ 2 ^ 970 := pow_le_pow_right₀ one_le_two (by omega)
      have hrange : (2 : Rat) ^ 970 * 2 ≤ 2 ^ 1024 := by
        rw [← pow_succ]
        exact pow_le_pow_right₀ one_le_two (by omega)
      refine Double.isFinite_ofInt_iff.2 ?_
      generalize (2 : Rat) ^ 970 = t at hroom hrange ⊢
      generalize (2 : Rat) ^ 1024 = u at hrange ⊢
      linarith

/-- A literal denotes a number in range, if it denotes one. -/
theorem NumberLiteral.inRange_of_value? {l : NumberLiteral} {n : Number}
    (h : l.value? = some n) : n.InRange := by
  unfold value? at h
  simp only at h
  generalize Float.ofScientific _ _ _ = magnitude at h
  generalize (if l.negative = true then _ else _ : Int) = whole at h
  have hnegated : Scalar.isFinite magnitude = true → Scalar.isFinite (-magnitude) = true := by
    intro hfinite
    obtain ⟨q, hq⟩ := Double.isFinite_iff.1 hfinite
    exact Double.isFinite_iff.2 ⟨-q, by rw [Double.number_neg, hq]; rfl⟩
  by_cases hfinite : magnitude.isFinite = true
  · rw [hfinite] at h
    by_cases hword : (l.isWhole && fitsWord whole && !(l.negative && l.significand == 0)) = true
    · rw [if_neg (by decide), if_pos hword] at h
      obtain rfl := Option.some.inj h
      simp only [Bool.and_eq_true] at hword
      exact hword.1.2
    · rw [if_neg (by decide), if_neg hword] at h
      obtain rfl := Option.some.inj h
      show Scalar.isFinite (if l.negative = true then -magnitude else magnitude) = true
      by_cases hsign : l.negative = true
      · rw [if_pos hsign]
        exact hnegated hfinite
      · rw [if_neg hsign]
        exact hfinite
  · rw [Bool.not_eq_true] at hfinite
    rw [hfinite] at h
    exact nomatch h

/-! ## Trees -/

mutual

/-- **A document denotes a tree in range.** -/
theorem Document.inRange_of_toJson? : ∀ (d : Document) (j : Json), d.toJson? = some j → j.InRange
  | .null => by
      intro j h
      rw [toJson?] at h
      obtain rfl := Option.some.inj h
      exact .null
  | .bool b => by
      intro j h
      rw [toJson?] at h
      obtain rfl := Option.some.inj h
      exact .bool b
  | .number l => by
      intro j h
      rw [toJson?] at h
      obtain ⟨n, hn, rfl⟩ := Option.map_eq_some_iff.1 h
      exact .number (NumberLiteral.inRange_of_value? hn)
  | .string l => by
      intro j h
      rw [toJson?] at h
      obtain ⟨s, _, rfl⟩ := Option.map_eq_some_iff.1 h
      exact .string s
  | .array items => by
      intro j h
      rw [toJson?] at h
      obtain ⟨js, hjs, rfl⟩ := Option.map_eq_some_iff.1 h
      exact .array (inRange_of_itemsToJson? items js hjs)
  | .object members => by
      intro j h
      rw [toJson?] at h
      obtain ⟨ms, hms, rfl⟩ := Option.map_eq_some_iff.1 h
      exact .object (inRange_of_membersToJson? members ms hms)

theorem Document.inRange_of_itemsToJson? : ∀ (ds : List Document) (js : List Json),
    itemsToJson? ds = some js → ∀ j ∈ js, j.InRange
  | [] => by
      intro js h
      rw [itemsToJson?] at h
      obtain rfl := Option.some.inj h
      exact fun j hj => nomatch hj
  | d :: ds => by
      intro js h
      rw [itemsToJson?] at h
      obtain ⟨j, hj, h⟩ := Option.bind_eq_some_iff.1 h
      obtain ⟨rest, hrest, h⟩ := Option.bind_eq_some_iff.1 h
      obtain rfl := Option.some.inj h
      exact List.forall_mem_cons.2
        ⟨inRange_of_toJson? d j hj, inRange_of_itemsToJson? ds rest hrest⟩

theorem Document.inRange_of_membersToJson? :
    ∀ (ds : List (StringLiteral × Document)) (ms : List (String × Json)),
    membersToJson? ds = some ms → ∀ m ∈ ms, m.2.InRange
  | [] => by
      intro ms h
      rw [membersToJson?] at h
      obtain rfl := Option.some.inj h
      exact fun m hm => nomatch hm
  | (key, d) :: ds => by
      intro ms h
      rw [membersToJson?] at h
      obtain ⟨name, _, h⟩ := Option.bind_eq_some_iff.1 h
      obtain ⟨j, hj, h⟩ := Option.bind_eq_some_iff.1 h
      obtain ⟨rest, hrest, h⟩ := Option.bind_eq_some_iff.1 h
      obtain rfl := Option.some.inj h
      exact List.forall_mem_cons.2
        ⟨inRange_of_toJson? d j hj, inRange_of_membersToJson? ds rest hrest⟩

end

/-- What is found in an object in range is in range. -/
theorem inRange_of_member? {members : List (String × Json)} {key : String} {j : Json}
    (h : ∀ m ∈ members, InRange m.2) (hj : member? members key = some j) : j.InRange := by
  unfold member? at hj
  obtain ⟨l₁, l₂, hmembers, _⟩ := List.lookup_eq_some_iff.1 hj
  have hmem : (key, j) ∈ members.reverse := by
    rw [hmembers]
    simp
  exact h (key, j) (List.mem_reverse.1 hmem)

/-- **An optional number that is read from a value in range is finite.** -/
theorem isFinite_of_toOptionalFloat? {j : Option Json} {b : Option Float} {x : Float}
    (hj : ∀ k, j = some k → k.InRange) (h : toOptionalFloat? j = some b) (hx : b = some x) :
    Scalar.isFinite x = true := by
  subst hx
  cases j with
  | none => exact nomatch h
  | some k =>
      have hrange := hj k rfl
      cases hrange with
      | number hn =>
          obtain rfl := Option.some.inj (Option.some.inj h)
          exact hn.isFinite
      | _ => exact nomatch h

end PolyRow.Json
