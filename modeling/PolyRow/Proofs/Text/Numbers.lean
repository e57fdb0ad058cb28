import Mathlib
import PolyRow.Expr.Text
import PolyRow.Proofs.Double.Zero

/-!
# The text of numbers

What the texts of numbers look like, as far as a reader needs it who wants to find them
again between other words: which characters occur in them, with which character a
magnitude begins, and when a text stands for zero. Equal numbers have the same text.

The digits of a decimal come from the exact value of the double. A magnitude that is not
below `1e-12` is more than half a unit of the twelfth place, so it is not rounded to
nothing.

## Main results

* `Decimal.roundToPlaces_eq`: rounding to a decimal place.
* `Expr.mem_numberText`: letters and digits, points and minus signs.
* `Expr.numberText_abs`: a magnitude begins with a digit.
* `Expr.numberText_abs_ne_zero`: a magnitude that is shown is not shown as zero.
* `Expr.numberText_eq_of_beq`: equal numbers.
-/

namespace PolyRow

namespace Decimal

open Float.Model.UnpackedFloat (Sign accuracyOfFraction)

/-! ## Digits -/

theorem toList_toString (n : Nat) : (toString n).toList = Nat.toDigits 10 n := by
  rw [Nat.toString_eq_repr, Nat.toList_repr]

theorem exists_toDigits_eq_cons (n : Nat) :
    ∃ c cs, Nat.toDigits 10 n = c :: cs ∧ c.isDigit = true := by
  obtain ⟨c, cs, hdigits⟩ := List.exists_cons_of_ne_nil (Nat.toDigits_ne_nil (n := n) (b := 10))
  have hmem : c ∈ Nat.toDigits 10 n := hdigits ▸ List.mem_cons_self
  exact ⟨c, cs, hdigits, Nat.isDigit_of_mem_toDigits (by decide) (by decide) hmem⟩

theorem eq_of_toDigits_eq {m n : Nat} (h : Nat.toDigits 10 m = Nat.toDigits 10 n) : m = n := by
  rw [← Nat.ofDigitChars_toDigits (b := 10) (n := m) (by decide) (by decide), h,
    Nat.ofDigitChars_toDigits (by decide) (by decide)]

/-- Only zero is written with zeros alone. -/
theorem eq_zero_of_toDigits {n : Nat} (h : ∀ c ∈ Nat.toDigits 10 n, c = '0') : n = 0 := by
  have hzeros (k : Nat) : Nat.ofDigitChars 10 (List.replicate k '0') 0 = 0 := by
    induction k with
    | zero => rfl
    | succ k ih => exact ih
  rw [← Nat.ofDigitChars_toDigits (b := 10) (n := n) (by decide) (by decide),
    List.eq_replicate_of_mem h]
  exact hzeros _

theorem isDigit_of_mem_fractionDigits {places n : Nat} {c : Char}
    (h : c ∈ fractionDigits places n) : c.isDigit = true := by
  have hpadded : c ∈ List.replicate (places - (Nat.toDigits 10 n).length) '0' ++
      Nat.toDigits 10 n :=
    List.mem_reverse.1 ((List.dropWhile_sublist _).subset (List.mem_reverse.1 h))
  rcases List.mem_append.1 hpadded with hzero | hdigit
  · rw [List.eq_of_mem_replicate hzero]
    decide
  · exact Nat.isDigit_of_mem_toDigits (by decide) (by decide) hdigit

theorem eq_zero_of_fractionDigits_eq_nil {places n : Nat} (h : fractionDigits places n = []) :
    n = 0 := by
  refine eq_zero_of_toDigits fun c hc => ?_
  have hdropped := List.dropWhile_eq_nil_iff.1 (List.reverse_eq_nil_iff.1 h)
  exact beq_iff_eq.1 (hdropped c (List.mem_reverse.2 (List.mem_append_right _ hc)))

/-! ## Units of a decimal place -/

theorem toList_placesText (places n : Nat) :
    (placesText places n).toList = Nat.toDigits 10 (n / Nat.pow 10 places) ++
      if (fractionDigits places (n % Nat.pow 10 places)).isEmpty then []
      else '.' :: fractionDigits places (n % Nat.pow 10 places) := by
  unfold placesText
  rw [String.toList_append, toList_toString]
  split
  · rfl
  · simp

theorem mem_placesText {places n : Nat} {c : Char} (h : c ∈ (placesText places n).toList) :
    c.isDigit = true ∨ c = '.' := by
  rw [toList_placesText, List.mem_append] at h
  rcases h with h | h
  · exact .inl (Nat.isDigit_of_mem_toDigits (by decide) (by decide) h)
  · split at h
    · exact absurd h List.not_mem_nil
    · rcases List.mem_cons.1 h with h | h
      · exact .inr h
      · exact .inl (isDigit_of_mem_fractionDigits h)

/-- What has neither a whole part nor digits behind the point is zero. -/
theorem eq_zero_of_parts {places n : Nat} (hwhole : Nat.toDigits 10 (n / 10 ^ places) = ['0'])
    (hfraction : fractionDigits places (n % 10 ^ places) = []) : n = 0 := by
  have hquotient : n / 10 ^ places = 0 := eq_of_toDigits_eq hwhole
  have hsplit := Nat.div_add_mod n (10 ^ places)
  rw [hquotient, eq_zero_of_fractionDigits_eq_nil hfraction, Nat.mul_zero] at hsplit
  exact hsplit.symm

theorem placesText_ne_zero {places n : Nat} (hn : n ≠ 0) : placesText places n ≠ "0" := by
  intro h
  have hlist := congrArg String.toList h
  rw [toList_placesText] at hlist
  obtain ⟨c, cs, hdigits, _⟩ := exists_toDigits_eq_cons (n / Nat.pow 10 places)
  split at hlist
  · -- No digit after the point, so the text is that of the whole part.
    rename_i hempty
    exact hn (eq_zero_of_parts (by simpa using hlist) (List.isEmpty_iff.1 hempty))
  · rw [hdigits] at hlist
    have hlength := congrArg List.length hlist
    rw [List.length_append, List.length_cons, List.length_cons] at hlength
    have hone : "0".toList.length = 1 := rfl
    omega

/-! ## Rounding to a decimal place -/

/-- The quotient of two whole numbers is rounded as the exact one is: twice the remainder
tells on which side of the half it lies. -/
theorem roundDiv_eq (num : Nat) {den : Nat} (hden : 0 < den) :
    roundDiv num den = Double.roundEven ((num : Rat) / den) := by
  rw [← (Double.brackets_quotient num hden).roundedMantissa_eq]
  unfold roundDiv accuracyOfFraction
  by_cases hzero : num % den = 0
  · have hcompare : compare (2 * (num % den)) den = .lt := by
      rw [hzero]
      exact compare_lt_iff_lt.2 hden
    rw [if_pos hzero, hcompare]
    rfl
  · rw [if_neg hzero]
    cases compare (2 * (num % den)) den <;> rfl

/-- **Rounding to a decimal place** rounds the exact number of units of the place. -/
theorem roundToPlaces_eq (places m : Nat) (e : Int) :
    roundToPlaces places m e = Double.roundEven (m * 2 ^ e * 10 ^ places) := by
  have hplaces : (- -(places : Int)).toNat = places := by omega
  have hone : (-(places : Int)).toNat = 0 := by omega
  have hden : 0 < 2 ^ (-e).toNat * 10 ^ 0 := by positivity
  have hscale : (2 : Rat) ^ e = 2 ^ e.toNat / 2 ^ (-e).toNat := by
    rw [← zpow_natCast, ← zpow_natCast, ← zpow_sub₀ two_ne_zero]
    congr 1
    omega
  unfold roundToPlaces scaleRatio
  dsimp only
  rw [hplaces, hone]
  refine (roundDiv_eq _ hden).trans (congrArg Double.roundEven ?_)
  show ((m * (2 ^ e.toNat * 10 ^ places) : Nat) : Rat) / (2 ^ (-e).toNat * 10 ^ 0 : Nat) = _
  rw [hscale]
  push_cast
  field_simp

/-- A number above half a unit of the place is not rounded to zero. -/
theorem roundToPlaces_pos {places m : Nat} {e : Int}
    (h : (1 : Rat) < 2 * ((m * 2 ^ e) * 10 ^ places)) : 0 < roundToPlaces places m e := by
  rw [roundToPlaces_eq]
  have hunits : (0 : Rat) ≤ m * 2 ^ e * 10 ^ places := by linarith
  have hnear := (Double.nearestEven_iff.1 (Double.nearestEven_roundEven hunits)).1
  by_contra hzero
  rw [Nat.eq_zero_of_not_pos hzero, Nat.cast_zero, Int.cast_zero, sub_zero,
    abs_of_nonneg hunits] at hnear
  linarith

/-! ## The exact value of a double -/

theorem Exact.number_eq {x : Float} {negative : Bool} {m : Nat} {e : Int}
    (h : Exact.ofFloat x = .finite negative m e) :
    Double.number x = .finite ((if negative then -1 else 1) * (m * 2 ^ e)) := by
  unfold Exact.ofFloat at h
  unfold Double.number
  generalize x.toModel.unpack = u at h ⊢
  cases u with
  | notANumber => exact nomatch h
  | infinity s => exact nomatch h
  | zero s =>
      obtain ⟨_, rfl, rfl⟩ := Exact.finite.inj h
      show ExtendedRat.finite 0 = _
      simp
  | finite s k f hk =>
      obtain ⟨rfl, rfl, rfl⟩ := Exact.finite.inj h
      cases s <;> rfl

theorem Exact.exists_finite {x : Float} (hx : Scalar.isFinite x = true) :
    ∃ negative m e, Exact.ofFloat x = .finite negative m e := by
  have hfinite : x.toModel.unpack.isFinite = true := hx
  unfold Exact.ofFloat
  generalize x.toModel.unpack = u at hfinite ⊢
  cases u with
  | notANumber => exact absurd hfinite Bool.false_ne_true
  | infinity s => exact absurd hfinite Bool.false_ne_true
  | zero s => exact ⟨_, _, _, rfl⟩
  | finite s m e hm => exact ⟨_, _, _, rfl⟩

section Parts

variable {x : Float} {negative : Bool} {m : Nat} {e : Int}

/-- A negation has the other sign. -/
theorem Exact.ofFloat_neg (h : Exact.ofFloat x = .finite negative m e) :
    Exact.ofFloat (-x) = .finite (!negative) m e := by
  have hparts : (-x).toModel.unpack = x.toModel.unpack.neg :=
    Double.repack_of_fits (Double.canonical_neg (Double.canonical_toModel x))
      (Double.fits_neg (Double.fits_toModel x))
  have hsign (s : Sign) : (-s == .negative) = !(s == .negative) := by cases s <;> rfl
  unfold Exact.ofFloat at h ⊢
  rw [hparts]
  generalize x.toModel.unpack = u at h ⊢
  cases u with
  | notANumber => exact nomatch h
  | infinity s => exact nomatch h
  | zero s =>
      obtain ⟨rfl, rfl, rfl⟩ := Exact.finite.inj h
      exact congrArg (Exact.finite · 0 0) (hsign s)
  | finite s k f hk =>
      obtain ⟨rfl, rfl, rfl⟩ := Exact.finite.inj h
      exact congrArg (Exact.finite · k f) (hsign s)

/-- A magnitude has none. -/
theorem Exact.ofFloat_abs (h : Exact.ofFloat x = .finite negative m e) :
    Exact.ofFloat x.abs = .finite false m e := by
  have hparts : x.abs.toModel.unpack = x.toModel.unpack.abs :=
    Double.repack_of_fits (Double.canonical_abs (Double.canonical_toModel x))
      (Double.fits_abs (Double.fits_toModel x))
  unfold Exact.ofFloat at h ⊢
  rw [hparts]
  generalize x.toModel.unpack = u at h ⊢
  cases u with
  | notANumber => exact nomatch h
  | infinity s => exact nomatch h
  | zero s =>
      obtain ⟨_, rfl, rfl⟩ := Exact.finite.inj h
      rfl
  | finite s k f hk =>
      obtain ⟨_, rfl, rfl⟩ := Exact.finite.inj h
      rfl

end Parts

end Decimal

namespace Expr

open Decimal

/-! ## Numbers in the text of an expression -/

/-- The characters in which numbers are written. -/
theorem mem_numberText {x : Float} {c : Char} (h : c ∈ (numberText x).toList) :
    c.isAlphanum = true ∨ c = '.' ∨ c = '-' := by
  unfold numberText fixedText at h
  have halphanum {d : Char} (hd : d.isDigit = true) : d.isAlphanum = true := by
    rw [Char.isAlphanum, hd, Bool.or_true]
  cases hx : Exact.ofFloat x with
  | undefined =>
      rw [hx] at h
      have hall : ∀ d ∈ ['n', 'a', 'n'], d.isAlphanum = true := List.all_eq_true.1 rfl
      exact .inl (hall c h)
  | infinite negative =>
      rw [hx] at h
      have hall : ∀ d ∈ ['i', 'n', 'f'], d.isAlphanum = true := List.all_eq_true.1 rfl
      cases negative with
      | false => exact .inl (hall c h)
      | true =>
          rcases List.mem_cons.1 h with h | h
          · exact .inr (.inr h)
          · exact .inl (hall c h)
  | finite negative m e =>
      rw [hx] at h
      dsimp only at h
      rw [String.toList_append, List.mem_append] at h
      rcases h with h | h
      · split at h
        · exact .inr (.inr (List.mem_singleton.1 h))
        · exact absurd h List.not_mem_nil
      · rcases mem_placesText h with h | h
        · exact .inl (halphanum h)
        · exact .inr (.inl h)

/-- The text of a finite magnitude. -/
theorem exists_numberText_abs {x : Float} (hx : Scalar.isFinite x = true) :
    ∃ m e, numberText x.abs = placesText 12 (roundToPlaces 12 m e) ∧
      Double.number x.abs = .finite (m * 2 ^ e) := by
  obtain ⟨_, m, e, hfinite⟩ := Exact.exists_finite hx
  have hexact := Exact.ofFloat_abs hfinite
  refine ⟨m, e, ?_, ?_⟩
  · unfold numberText fixedText
    rw [hexact]
    exact String.empty_append
  · rw [Exact.number_eq hexact]
    exact congrArg ExtendedRat.finite (one_mul _)

/-- **A magnitude begins with a digit.** -/
theorem numberText_abs {x : Float} (hx : Scalar.isFinite x = true) :
    ∃ c cs, (numberText x.abs).toList = c :: cs ∧ c.isDigit = true := by
  obtain ⟨m, e, htext, _⟩ := exists_numberText_abs hx
  obtain ⟨c, cs, hdigits, hc⟩ :=
    exists_toDigits_eq_cons (roundToPlaces 12 m e / Nat.pow 10 12)
  rw [htext, toList_placesText, hdigits]
  exact ⟨c, _, List.cons_append .., hc⟩

private theorem number_threshold :
    Double.number 1e-12 = .finite (4951760157141521 * 2 ^ (-92 : Int)) :=
  congrArg ExtendedRat.finite (one_mul _)

/-- **A magnitude from `1e-12` on is not shown as zero.** -/
theorem numberText_abs_ne_zero {x : Float} (hx : Scalar.isFinite x = true)
    (h : 1e-12 ≤ x.abs) : numberText x.abs ≠ "0" := by
  obtain ⟨m, e, htext, hnumber⟩ := exists_numberText_abs hx
  rw [Double.le_iff_number, hnumber, number_threshold, ExtendedRat.finite_le_finite] at h
  have hhalf : (1 : Rat) < 2 * ((4951760157141521 * 2 ^ (-92 : Int)) * 10 ^ 12) := by norm_num
  rw [htext]
  refine placesText_ne_zero (roundToPlaces_pos (hhalf.trans_le ?_)).ne'
  have hpow : (0 : Rat) ≤ 10 ^ 12 := by positivity
  exact mul_le_mul_of_nonneg_left (mul_le_mul_of_nonneg_right h hpow) two_pos.le

/-- **Equal numbers have the same text**, zeros of either sign included. -/
theorem numberText_eq_of_beq {x y : Float} (h : (x == y) = true) :
    numberText x = numberText y := by
  have hzero : numberText (-0) = numberText 0 := rfl
  rcases Double.eq_or_zeros_of_beq h with rfl | ⟨hx, hy⟩
  · rfl
  · rcases hx with rfl | rfl
    · rcases hy with rfl | rfl
      · rfl
      · exact hzero.symm
    · rcases hy with rfl | rfl
      · exact hzero
      · rfl

end Expr

end PolyRow
