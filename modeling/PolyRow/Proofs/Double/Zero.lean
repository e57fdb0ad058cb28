import Mathlib
import PolyRow.Proofs.Double.Candidates

/-!
# The two zeros

Doubles have a zero of either sign. The two are equal as numbers and differ as
bits, so the equations of `PolyRow.Proofs.Double.Arithmetic` do not tell them
apart. What is said here is about bits: a sum that is taken from the positive zero
never shows a negative one, and adding zero to a double changes nothing but a
negative zero.

A sum from zero is therefore never a negative zero while it runs, and so it does not
notice the zeros among its summands.

## Main results

* `zero_add_eq`: what adding to zero does to a double.
* `sub_zero_eq`, `zero_sub_ne_negZero`: differences with zero.
* `add_eq_negZero`: only negative zeros add up to a negative zero.
* `eq_or_zeros_of_beq`, `eq_of_number_eq`: all doubles but the two zeros are told apart
  by their numbers.
* `number_sub_eq_zero_iff`: the differences that are zero.
* `mul_one_eq`, `mul_neg_one_mul_neg_one`: products that change no bit.
* `foldl_add_ne_negZero`, `foldl_add_filter`: sums from the left.
-/

namespace PolyRow.Double

open Float.Model (Format UnpackedFloat)
open Float.Model.UnpackedFloat

/-- A double is known by its parts. -/
theorem eq_of_unpack_eq {x y : Float} (h : x.toModel.unpack = y.toModel.unpack) : x = y := by
  have hbits := (unpack_inj_of_valid x.toModel.valid y.toModel.valid).1 h
  exact Float.toBits_inj.1 (UInt64.eq_of_toBitVec_eq hbits)

theorem unpack_add (x y : Float) :
    (x + y).toModel.unpack =
      repack (UnpackedFloat.add .binary64 x.toModel.unpack y.toModel.unpack) := rfl

theorem unpack_sub (x y : Float) :
    (x - y).toModel.unpack =
      repack (UnpackedFloat.sub .binary64 x.toModel.unpack y.toModel.unpack) := rfl

theorem unpack_negZero : (-0 : Float).toModel.unpack = .zero .negative := rfl

/-- **Adding to zero changes a negative zero into a positive one and no other bit.** -/
theorem zero_add_eq (x : Float) : 0 + x = if x = -0 then 0 else x := by
  split_ifs with h
  · subst h
    rfl
  · have hsign : x.toModel.unpack ≠ .zero .negative := fun hx => h (eq_of_unpack_eq hx)
    have hparts : UnpackedFloat.add .binary64 (.zero .positive) x.toModel.unpack =
        x.toModel.unpack := by
      generalize x.toModel.unpack = u at hsign ⊢
      cases u with
      | notANumber => rfl
      | infinity s => rfl
      | zero s =>
          cases s with
          | positive => rfl
          | negative => exact absurd rfl hsign
      | finite s m e hm => rfl
    apply eq_of_unpack_eq
    show repack (UnpackedFloat.add .binary64 (.zero .positive) x.toModel.unpack) = _
    rw [hparts, repack_of_fits (canonical_toModel x) (fits_toModel x)]

/-- Adding a negative zero changes no bit. -/
theorem add_negZero_eq (x : Float) : x + -0 = x := by
  have hparts : UnpackedFloat.add .binary64 x.toModel.unpack (.zero .negative) =
      x.toModel.unpack := by
    generalize x.toModel.unpack = u
    cases u with
    | zero s => cases s <;> rfl
    | _ => rfl
  apply eq_of_unpack_eq
  show repack (UnpackedFloat.add .binary64 x.toModel.unpack (.zero .negative)) = _
  rw [hparts, repack_of_fits (canonical_toModel x) (fits_toModel x)]

/-- Adding a positive zero changes no bit of what is not a negative zero. -/
theorem add_zero_eq {x : Float} (hx : x ≠ -0) : x + 0 = x := by
  have hsign : x.toModel.unpack ≠ .zero .negative := fun h => hx (eq_of_unpack_eq h)
  have hparts : UnpackedFloat.add .binary64 x.toModel.unpack (.zero .positive) =
      x.toModel.unpack := by
    generalize x.toModel.unpack = u at hsign ⊢
    cases u with
    | zero s =>
        cases s with
        | positive => rfl
        | negative => exact absurd rfl hsign
    | _ => rfl
  apply eq_of_unpack_eq
  show repack (UnpackedFloat.add .binary64 x.toModel.unpack (.zero .positive)) = _
  rw [hparts, repack_of_fits (canonical_toModel x) (fits_toModel x)]

/-- Subtracting zero changes no bit. -/
theorem sub_zero_eq (x : Float) : x - 0 = x := by
  have hparts : UnpackedFloat.sub .binary64 x.toModel.unpack (.zero .positive) =
      x.toModel.unpack := by
    generalize x.toModel.unpack = u
    cases u with
    | zero s => cases s <;> rfl
    | _ => rfl
  apply eq_of_unpack_eq
  show repack (UnpackedFloat.sub .binary64 x.toModel.unpack (.zero .positive)) = _
  rw [hparts, repack_of_fits (canonical_toModel x) (fits_toModel x)]

/-- A difference from zero is no negative zero. -/
theorem zero_sub_ne_negZero (x : Float) : 0 - x ≠ -0 := by
  intro h
  have hparts : repack (UnpackedFloat.sub .binary64 (.zero .positive) x.toModel.unpack) =
      .zero .negative := by
    rw [← unpack_negZero, ← h]
    exact (unpack_sub 0 x).symm
  have hcanonical := canonical_toModel x
  have hfits := fits_toModel x
  generalize x.toModel.unpack = u at hparts hcanonical hfits
  cases u with
  | notANumber => exact nomatch repack_notANumber.symm.trans hparts
  | infinity s => exact nomatch (repack_infinity (-s)).symm.trans hparts
  | zero s => cases s <;> exact nomatch (repack_zero .positive).symm.trans hparts
  | finite s m e hm =>
      have hkept : repack (.finite (-s) m e hm) = .finite (-s) m e hm :=
        repack_of_fits hcanonical hfits
      exact nomatch hkept.symm.trans hparts

/-- A whole number of the least places of all that is not zero is not rounded to
zero. -/
private theorem normalize_ne_negZero (k : Int) {e : Int} (he : -1074 ≤ e) :
    repack (UnpackedFloat.normalize .binary64 k e .positive) ≠ .zero .negative := by
  intro h
  have hvalue := value_normalize k e .positive
  rw [h] at hvalue
  have hk : k = 0 := by
    by_contra hk
    have hone : (1 : Rat) ≤ |(k : Rat)| := by exact_mod_cast Int.one_le_abs hk
    refine nearest_ne_zero ?_ hvalue.symm
    calc (2 : Rat) ^ (-1074 : Int) ≤ 2 ^ e := zpow_le_zpow_right₀ one_le_two he
      _ ≤ |(k : Rat)| * 2 ^ e := le_mul_of_one_le_left (two_zpow_pos e).le hone
      _ = |(k : Rat) * 2 ^ e| := by rw [abs_mul, abs_of_pos (two_zpow_pos e)]
  subst hk
  have hzero : repack (UnpackedFloat.normalize .binary64 0 e .positive) = .zero .positive := by
    unfold UnpackedFloat.normalize
    exact repack_zero .positive
  rw [hzero] at h
  exact nomatch h

/-- Parts that are added up to a negative zero are negative zeros. -/
private theorem add_eq_zero_negative {u w : UnpackedFloat} (hu : Canonical u) (hfu : Fits u)
    (hw : Canonical w) (hfw : Fits w)
    (h : repack (UnpackedFloat.add .binary64 u w) = .zero .negative) :
    u = .zero .negative ∧ w = .zero .negative := by
  have hexact {x : UnpackedFloat} (hzero : repack x = .zero .negative) (hx : Canonical x)
      (hfx : Fits x) : x = .zero .negative :=
    (repack_of_fits hx hfx).symm.trans hzero
  cases u with
  | notANumber => cases w <;> exact nomatch hexact h trivial trivial
  | infinity s =>
      cases w with
      | infinity t => cases s <;> cases t <;> exact nomatch hexact h trivial trivial
      | _ => exact nomatch hexact h trivial trivial
  | zero s =>
      cases w with
      | zero t =>
          cases s with
          | positive => cases t <;> exact nomatch hexact h trivial trivial
          | negative =>
              cases t with
              | positive => exact nomatch hexact h trivial trivial
              | negative => exact ⟨rfl, rfl⟩
      | finite t n f hn => exact nomatch hexact h hw hfw
      | _ => exact nomatch hexact h trivial trivial
  | finite s m e hm =>
      cases w with
      | zero t => exact nomatch hexact h hu hfu
      | finite t n f hn => exact absurd h (normalize_ne_negZero _ (le_min hu.2.1 hw.2.1))
      | _ => exact nomatch hexact h trivial trivial

/-- **Only negative zeros add up to a negative zero.** A sum that cancels is the
positive zero, and one that does not cancel reaches the least place. -/
theorem add_eq_negZero {x y : Float} (h : x + y = -0) : x = -0 ∧ y = -0 := by
  have hsum : repack (UnpackedFloat.add .binary64 x.toModel.unpack y.toModel.unpack) =
      .zero .negative := by
    rw [← unpack_add, h, unpack_negZero]
  have hparts := add_eq_zero_negative (canonical_toModel x) (fits_toModel x)
    (canonical_toModel y) (fits_toModel y) hsum
  exact ⟨eq_of_unpack_eq hparts.1, eq_of_unpack_eq hparts.2⟩

/-! ## Equal doubles -/

private theorem eq_of_then_eq {m n : Nat} {e f : Int}
    (h : (compare e f).then (compare m n) = .eq) : e = f ∧ m = n := by
  have hthen := Ordering.then_eq_eq.1 h
  exact ⟨compare_eq_iff_eq.1 hthen.1, compare_eq_iff_eq.1 hthen.2⟩

/-- Parts that compare as equal are the same, or they are both zeros. -/
private theorem eq_or_zeros_of_compare {u w : UnpackedFloat} (h : u.compare w = some .eq) :
    u = w ∨ (∃ s, u = .zero s) ∧ ∃ t, w = .zero t := by
  cases u with
  | notANumber => cases w <;> exact nomatch h
  | infinity s =>
      cases w with
      | infinity t =>
          cases s with
          | positive =>
              cases t with
              | positive => exact .inl rfl
              | negative => exact nomatch h
          | negative =>
              cases t with
              | positive => exact nomatch h
              | negative => exact .inl rfl
      | _ => cases s <;> exact nomatch h
  | zero s =>
      cases w with
      | notANumber => exact nomatch h
      | infinity t => cases t <;> exact nomatch h
      | zero t => exact .inr ⟨⟨s, rfl⟩, t, rfl⟩
      | finite t n f hn => cases t <;> exact nomatch h
  | finite s m e hm =>
      cases w with
      | notANumber => exact nomatch h
      | infinity t => cases t <;> exact nomatch h
      | zero t => cases s <;> exact nomatch h
      | finite t n f hn =>
          cases s with
          | positive =>
              cases t with
              | positive =>
                  obtain ⟨rfl, rfl⟩ := eq_of_then_eq (Option.some.inj h)
                  exact .inl rfl
              | negative => exact nomatch h
          | negative =>
              cases t with
              | positive => exact nomatch h
              | negative =>
                  obtain ⟨rfl, rfl⟩ := eq_of_then_eq (Ordering.swap_eq_eq.1 (Option.some.inj h))
                  exact .inl rfl

/-- **Equal doubles are the same, or they are both zeros.** -/
theorem eq_or_zeros_of_beq {x y : Float} (h : (x == y) = true) :
    x = y ∨ (x = 0 ∨ x = -0) ∧ (y = 0 ∨ y = -0) := by
  have hcompare : (x.toModel.unpack.compare y.toModel.unpack == some .eq) = true := h
  have hzero {z : Float} (hz : ∃ s, z.toModel.unpack = .zero s) : z = 0 ∨ z = -0 := by
    obtain ⟨s, hs⟩ := hz
    cases s with
    | positive => exact .inl (eq_of_unpack_eq hs)
    | negative => exact .inr (eq_of_unpack_eq hs)
  exact (eq_or_zeros_of_compare (beq_iff_eq.1 hcompare)).imp eq_of_unpack_eq
    (And.imp hzero hzero)

theorem beq_zero_iff {x : Float} : (x == 0) = true ↔ x = 0 ∨ x = -0 := by
  constructor
  · intro h
    rcases eq_or_zeros_of_beq h with hx | ⟨hx, _⟩
    · exact .inl hx
    · exact hx
  · rintro (rfl | rfl) <;> rfl

/-- A double that stands for zero is one of the two. -/
theorem eq_zero_or_of_number {x : Float} (h : number x = .finite 0) : x = 0 ∨ x = -0 :=
  beq_zero_iff.1 (beq_zero_iff_number.2 h)

private theorem unpack_of_undefined {x : Float} (h : number x = .undefined) :
    x.toModel.unpack = .notANumber := by
  unfold number at h
  generalize x.toModel.unpack = u at h ⊢
  cases u with
  | notANumber => rfl
  | infinity s => cases s <;> exact nomatch h
  | zero s => exact nomatch h
  | finite s m e hm => exact nomatch h

/-- **Doubles other than zero are known by what they stand for**, to the last bit. -/
theorem eq_of_number_eq {x y : Float} (h : number x = number y) (hx : number x ≠ .finite 0) :
    x = y := by
  by_cases hnan : number x = .undefined
  · have hparts := unpack_of_undefined hnan
    rw [h] at hnan
    exact eq_of_unpack_eq (hparts.trans (unpack_of_undefined hnan).symm)
  · have hequal : (x == y) = true := by
      rw [beq_iff_number, ← h]
      show (number x).beq (number x) = true
      simp [ExtendedRat.beq, hnan]
    rcases eq_or_zeros_of_beq hequal with hsame | ⟨hzeros, _⟩
    · exact hsame
    · exact absurd (beq_zero_iff_number.1 (beq_zero_iff.2 hzeros)) hx

/-! ## Differences that vanish -/

/-- A finite double is a whole number of the least places of all. -/
theorem exists_least_places {x : Float} {q : Rat} (hx : number x = .finite q) :
    ∃ k : Int, q = k * 2 ^ (-1074 : Int) := by
  obtain ⟨k, hk⟩ : ∃ k : Int, |q| = k * 2 ^ (-1074 : Int) :=
    (whole_or_lt hx (-1074)).resolve_right fun h => h.1 rfl
  rcases abs_choice q with hsign | hsign
  · exact ⟨k, hsign.symm.trans hk⟩
  · refine ⟨-k, ?_⟩
    rw [Int.cast_neg, neg_mul, ← hk, hsign, neg_neg]

/-- **A difference of finite doubles is zero only if they are equal.** Otherwise it is at
least one of the least places, and that is not rounded to zero. -/
theorem number_sub_eq_zero_iff {x y : Float} {p q : Rat} (hx : number x = .finite p)
    (hy : number y = .finite q) : number (x - y) = .finite 0 ↔ p = q := by
  have hdifference : number (x - y) = nearest (p - q) := by
    rw [number_sub, hx, hy, sub_eq_add_neg]
    rfl
  rw [hdifference]
  constructor
  · intro hzero
    by_contra hne
    obtain ⟨j, rfl⟩ := exists_least_places hx
    obtain ⟨k, rfl⟩ := exists_least_places hy
    have hjk : j - k ≠ 0 := fun h => hne (by rw [sub_eq_zero.1 h])
    have hone : (1 : Rat) ≤ |((j - k : Int) : Rat)| := by exact_mod_cast Int.one_le_abs hjk
    refine nearest_ne_zero ?_ hzero
    calc (2 : Rat) ^ (-1074 : Int)
        ≤ |((j - k : Int) : Rat)| * 2 ^ (-1074 : Int) :=
          le_mul_of_one_le_left (two_zpow_pos _).le hone
      _ = |(j : Rat) * 2 ^ (-1074 : Int) - k * 2 ^ (-1074 : Int)| := by
          rw [← sub_mul, abs_mul, abs_of_pos (two_zpow_pos _), Int.cast_sub]
  · rintro rfl
    rw [sub_self, nearest_zero]

/-! ## Products with one -/

/-- The product with one is the same double. -/
theorem mul_one_eq (x : Float) : x * 1 = x := by
  by_cases hx : number x = .finite 0
  · rcases eq_zero_or_of_number hx with rfl | rfl <;> rfl
  · exact (eq_of_number_eq (number_mul_one x).symm hx).symm

/-- So is the product with minus one, taken twice. -/
theorem mul_neg_one_mul_neg_one (x : Float) : x * -1 * -1 = x := by
  by_cases hx : number x = .finite 0
  · rcases eq_zero_or_of_number hx with rfl | rfl <;> rfl
  · have hnumber : number x = number (x * -1 * -1) := by
      rw [number_mul_neg_one, number_mul_neg_one, ExtendedRat.neg_neg]
    exact (eq_of_number_eq hnumber hx).symm

/-! ## Sums from the left -/

/-- A sum that is not a negative zero so far does not become one. -/
theorem foldl_add_ne_negZero {x : Float} (hx : x ≠ -0) (cs : List Float) :
    cs.foldl (· + ·) x ≠ -0 := by
  induction cs generalizing x with
  | nil => exact hx
  | cons c rest ih => exact ih fun h => hx (add_eq_negZero h).1

/-- **Such a sum does not notice zeros**, of either sign and at any position. -/
theorem foldl_add_filter {x : Float} (hx : x ≠ -0) (cs : List Float) :
    (cs.filter (· != 0)).foldl (· + ·) x = cs.foldl (· + ·) x := by
  induction cs generalizing x with
  | nil => rfl
  | cons c rest ih =>
      have hsum : x + c ≠ -0 := fun h => hx (add_eq_negZero h).1
      rw [List.filter_cons, List.foldl_cons, ← ih hsum]
      by_cases hc : (c == 0) = true
      · have hsame : x + c = x := by
          rcases beq_zero_iff.1 hc with rfl | rfl
          · exact add_zero_eq hx
          · exact add_negZero_eq x
        rw [bne, hc, hsame]
        rfl
      · rw [bne, Bool.eq_false_iff.2 hc]
        rfl

end PolyRow.Double
