import Mathlib
import PolyRow.Proofs.Text.Numbers

/-!
# Decimals in normal form

A decimal in normal form has a whole part without zeros in front, at most so many digits
behind a point, the last of them not a zero, and no point without digits behind it. It has
no exponent, and zero has no sign. The parts can be found again in the text, so a text is
that of one decimal at most.

A number of units of a decimal place is written in normal form by writing all places and
taking away what is superfluous: first the zeros at the end, which the point stops, then a
point that is left at the end, then the sign of a zero.

## Main results

* `Numeral.text_injective`: a text is that of one decimal.
* `Numeral.text_ofUnits`, `Numeral.value_ofUnits`: units of a place in normal form.
* `toList_fixedText`: what is left of all places is the normal form.
-/

namespace PolyRow.Decimal

/-- A decimal in normal form with at most `places` digits behind the point. -/
@[ext] structure Numeral (places : Nat) where
  negative : Bool
  whole : List Char
  fraction : List Char
  isDigit_whole : ∀ c ∈ whole, c.isDigit = true
  /-- A zero stands in front only if it is all there is. -/
  whole_normal : whole = ['0'] ∨ ∃ c cs, whole = c :: cs ∧ c ≠ '0'
  isDigit_fraction : ∀ c ∈ fraction, c.isDigit = true
  length_fraction : fraction.length ≤ places
  fraction_normal : ∀ c ∈ fraction.getLast?, c ≠ '0'
  /-- Zero has no sign. -/
  sign_normal : negative = true → whole = ['0'] → fraction ≠ []

namespace Numeral

variable {places : Nat}

/-- The characters: a sign, the whole part, and the fraction behind a point. -/
def chars (d : Numeral places) : List Char :=
  (if d.negative then ['-'] else []) ++ (d.whole ++
    if d.fraction.isEmpty then [] else '.' :: d.fraction)

def text (d : Numeral places) : String := String.ofList d.chars

/-- The number that the digits denote. -/
def value (d : Numeral places) : Rat :=
  (if d.negative then -1 else 1) *
    (Nat.ofDigitChars 10 (d.whole ++ d.fraction) 0 / 10 ^ d.fraction.length)

/-! ## The parts of a text -/

theorem exists_whole_eq_cons (d : Numeral places) :
    ∃ c cs, d.whole = c :: cs ∧ c.isDigit = true := by
  have hcons : ∃ c cs, d.whole = c :: cs := by
    rcases d.whole_normal with h | ⟨c, cs, h, _⟩
    · exact ⟨_, _, h⟩
    · exact ⟨c, cs, h⟩
  obtain ⟨c, cs, h⟩ := hcons
  exact ⟨c, cs, h, d.isDigit_whole c (h ▸ List.mem_cons_self)⟩

private theorem not_isDigit_point : ¬ Char.isDigit '.' = true := by decide

/-- The whole part reaches up to the first character that is no digit. -/
private theorem takeWhile_unsigned (d : Numeral places) :
    (d.whole ++ if d.fraction.isEmpty then [] else '.' :: d.fraction).takeWhile Char.isDigit =
      d.whole := by
  rw [List.takeWhile_append_of_pos d.isDigit_whole]
  split
  · exact List.append_nil _
  · rw [List.takeWhile_cons_of_neg not_isDigit_point, List.append_nil]

/-- The fraction is what follows after that character. -/
private theorem dropWhile_unsigned (d : Numeral places) :
    ((d.whole ++ if d.fraction.isEmpty then [] else '.' :: d.fraction).dropWhile
      Char.isDigit).tail = d.fraction := by
  rw [List.dropWhile_append_of_pos d.isDigit_whole]
  split
  · rename_i hempty
    exact (List.isEmpty_iff.1 hempty).symm
  · rw [List.dropWhile_cons_of_neg not_isDigit_point]
    rfl

/-- The sign is seen at the first character, because the whole part begins with a digit. -/
private theorem negative_eq (d : Numeral places) :
    d.negative = (d.chars.head? == some '-') := by
  obtain ⟨c, cs, hwhole, hdigit⟩ := d.exists_whole_eq_cons
  have hsign : c ≠ '-' := fun h => absurd (h ▸ hdigit) (by decide)
  unfold chars
  rw [hwhole]
  cases d.negative with
  | false => simp [hsign]
  | true => rfl

/-- **A text is that of one decimal.** -/
theorem text_injective : Function.Injective (text : Numeral places → String) := by
  intro c d h
  have hchars : c.chars = d.chars := String.ofList_injective h
  have hnegative : c.negative = d.negative := by rw [negative_eq, negative_eq, hchars]
  unfold chars at hchars
  rw [hnegative] at hchars
  have hunsigned := List.append_cancel_left hchars
  refine Numeral.ext hnegative ?_ ?_
  · rw [← takeWhile_unsigned c, hunsigned, takeWhile_unsigned]
  · rw [← dropWhile_unsigned c, hunsigned, dropWhile_unsigned]

end Numeral

/-! ## Digits -/

/-- No zero stands in front of the digits of a whole number, unless it is the only one. -/
theorem toDigits_normal (n : Nat) :
    Nat.toDigits 10 n = ['0'] ∨ ∃ c cs, Nat.toDigits 10 n = c :: cs ∧ c ≠ '0' := by
  induction n using Nat.strong_induction_on with
  | h n ih =>
      by_cases hsmall : n < 10
      · rw [Nat.toDigits_of_lt_base hsmall]
        by_cases hzero : n = 0
        · exact .inl (by rw [hzero]; rfl)
        · exact .inr ⟨_, [], rfl, fun h => hzero (Nat.digitChar_eq_zero.1 h)⟩
      · -- The last digit is appended to the digits of a tenth, which is not zero.
        rw [Nat.toDigits_of_base_le (by decide) (not_lt.1 hsmall)]
        right
        rcases ih (n / 10) (by omega) with hzero | ⟨c, cs, hdigits, hc⟩
        · have hquotient : n / 10 = 0 := eq_of_toDigits_eq hzero
          omega
        · exact ⟨c, _, by rw [hdigits, List.cons_append], hc⟩

/-- The digits of `n` with zeros in front, up to `places` digits. -/
def paddedDigits (places n : Nat) : List Char :=
  List.replicate (places - (Nat.toDigits 10 n).length) '0' ++ Nat.toDigits 10 n

theorem fractionDigits_eq (places n : Nat) :
    fractionDigits places n = (paddedDigits places n).rdropWhile (· == '0') := rfl

theorem length_paddedDigits {places n : Nat} (hplaces : 0 < places) (h : n < 10 ^ places) :
    (paddedDigits places n).length = places := by
  have hlength := (Nat.length_toDigits_le_iff (by decide) hplaces).2 h
  unfold paddedDigits
  rw [List.length_append, List.length_replicate]
  omega

theorem ofDigitChars_paddedDigits (places n : Nat) :
    Nat.ofDigitChars 10 (paddedDigits places n) 0 = n := by
  unfold paddedDigits
  rw [Nat.ofDigitChars_append, Nat.ofDigitChars_replicate_zero, Nat.mul_zero,
    Nat.ofDigitChars_ten_toDigits]

/-- The zeros that are left out at the end are places that the fraction does not need. -/
theorem ofDigitChars_fractionDigits {places n : Nat} (hplaces : 0 < places)
    (h : n < 10 ^ places) :
    (fractionDigits places n).length ≤ places ∧
      10 ^ (places - (fractionDigits places n).length) *
        Nat.ofDigitChars 10 (fractionDigits places n) 0 = n := by
  have hlength := length_paddedDigits hplaces h
  have hvalue := ofDigitChars_paddedDigits places n
  rw [fractionDigits_eq]
  generalize paddedDigits places n = ds at hlength hvalue ⊢
  have hzero {c : Char} (hc : c ∈ ds.rtakeWhile (· == '0')) : (c == '0') = true :=
    List.mem_rtakeWhile_imp (p := (· == '0')) hc
  have hzeros : ds.rtakeWhile (· == '0') =
      List.replicate (ds.rtakeWhile (· == '0')).length '0' :=
    List.eq_replicate_of_mem fun c hc => beq_iff_eq.1 (hzero hc)
  have hsplit := List.rdropWhile_append_rtakeWhile (p := (· == '0')) (l := ds)
  have hcount := congrArg List.length hsplit
  rw [List.length_append, hlength] at hcount
  have hmissing : places - (ds.rdropWhile (· == '0')).length =
      (ds.rtakeWhile (· == '0')).length := by omega
  refine ⟨by omega, ?_⟩
  rw [hmissing, ← Nat.ofDigitChars_replicate_zero, ← hzeros, ← Nat.ofDigitChars_append, hsplit,
    hvalue]

/-- The digits before and behind the point, read as one whole number of units of the last
place that is written. -/
theorem ofDigitChars_parts {places : Nat} (hplaces : 0 < places) (n : Nat) :
    (Nat.ofDigitChars 10 (Nat.toDigits 10 (n / 10 ^ places) ++
      fractionDigits places (n % 10 ^ places)) 0 : Rat) /
        10 ^ (fractionDigits places (n % 10 ^ places)).length = n / 10 ^ places := by
  obtain ⟨hlength, hfraction⟩ :=
    ofDigitChars_fractionDigits hplaces (Nat.mod_lt n (show 0 < 10 ^ places by positivity))
  have hsplit := Nat.div_add_mod n (10 ^ places)
  rw [Nat.ofDigitChars_append, Nat.ofDigitChars_ten_toDigits,
    Nat.ofDigitChars_eq_ofDigitChars_zero, div_eq_div_iff (by positivity) (by positivity)]
  rw [← hfraction] at hsplit
  generalize fractionDigits places (n % 10 ^ places) = ds at hlength hsplit ⊢
  generalize n / 10 ^ places = k at hsplit ⊢
  have hpower : 10 ^ places = 10 ^ (places - ds.length) * 10 ^ ds.length := by
    rw [← pow_add, Nat.sub_add_cancel hlength]
  have hunits : (10 ^ ds.length * k + Nat.ofDigitChars 10 ds 0) * 10 ^ places =
      n * 10 ^ ds.length := by
    rw [← hsplit, hpower]
    ring
  exact_mod_cast hunits

theorem getLast?_fractionDigits {places n : Nat} :
    ∀ c ∈ (fractionDigits places n).getLast?, c ≠ '0' := by
  intro c hc
  rw [fractionDigits_eq] at hc
  obtain ⟨hne, rfl⟩ := List.mem_getLast?_eq_getLast hc
  have hlast := List.rdropWhile_last_not (· == '0') (paddedDigits places n) hne
  exact fun h => hlast (beq_iff_eq.2 h)

/-! ## Units of a decimal place -/

/-- A whole number of units has no digit behind the point. -/
theorem placesText_mul (places k : Nat) : placesText places (k * 10 ^ places) = toString k := by
  have hdigits : fractionDigits places 0 = [] := by
    rw [fractionDigits_eq, List.rdropWhile_eq_nil_iff]
    intro c hc
    rcases List.mem_append.1 hc with hzero | hzero
    · exact beq_iff_eq.2 (List.eq_of_mem_replicate hzero)
    · exact beq_iff_eq.2 (List.mem_singleton.1 hzero)
  have hquotient : k * 10 ^ places / 10 ^ places = k := Nat.mul_div_cancel k (by positivity)
  have hremainder : k * 10 ^ places % 10 ^ places = 0 := Nat.mul_mod_left k _
  apply String.toList_injective
  rw [toList_placesText, toList_toString]
  show Nat.toDigits 10 (k * 10 ^ places / 10 ^ places) ++
    (if (fractionDigits places (k * 10 ^ places % 10 ^ places)).isEmpty then [] else _) = _
  rw [hquotient, hremainder, hdigits]
  exact List.append_nil _

theorem placesText_zero (places : Nat) : placesText places 0 = "0" := by
  have hzero := placesText_mul places 0
  rw [Nat.zero_mul] at hzero
  exact hzero

namespace Numeral

variable {places : Nat} (hplaces : 0 < places) (negative : Bool) (n : Nat)

/-- The decimal of `n` units of `10 ^ -places`. -/
def ofUnits : Numeral places where
  negative := negative && n != 0
  whole := Nat.toDigits 10 (n / 10 ^ places)
  fraction := fractionDigits places (n % 10 ^ places)
  isDigit_whole _ hc := Nat.isDigit_of_mem_toDigits (by decide) (by decide) hc
  whole_normal := toDigits_normal _
  isDigit_fraction _ hc := isDigit_of_mem_fractionDigits hc
  length_fraction :=
    (ofDigitChars_fractionDigits hplaces (Nat.mod_lt _ (by positivity))).1
  fraction_normal := getLast?_fractionDigits
  sign_normal hsign hwhole hfraction := by
    have hn : n ≠ 0 := by simpa using (Bool.and_eq_true_iff.1 hsign).2
    exact hn (eq_zero_of_parts hwhole hfraction)

theorem text_ofUnits :
    (ofUnits hplaces negative n).text =
      (if negative && n != 0 then "-" else "") ++ placesText places n := by
  apply String.toList_injective
  rw [text, String.toList_ofList, String.toList_append, toList_placesText]
  have hsign : (if negative && n != 0 then "-" else "").toList =
      if negative && n != 0 then ['-'] else [] := by
    split <;> rfl
  rw [hsign]
  rfl

theorem value_ofUnits :
    (ofUnits hplaces negative n).value = (if negative then -1 else 1) * (n / 10 ^ places) := by
  have hvalue : (ofUnits hplaces negative n).value =
      (if negative && n != 0 then -1 else 1) * (n / 10 ^ places) :=
    congrArg (_ * ·) (ofDigitChars_parts hplaces n)
  rw [hvalue]
  rcases Nat.eq_zero_or_pos n with hzero | hpos
  · simp [hzero]
  · simp [hpos.ne']

/-- A whole number is shown as a whole number, with all of its zeros. -/
theorem text_ofUnits_of_value_eq {k : Int} (h : (ofUnits hplaces negative n).value = k) :
    (ofUnits hplaces negative n).text = toString k := by
  rw [value_ofUnits] at h
  rw [text_ofUnits]
  have hmagnitude : n = k.natAbs * 10 ^ places := by
    have habs : (n : Rat) / 10 ^ places = k.natAbs := by
      rw [Nat.cast_natAbs, Int.cast_abs, ← h, abs_mul]
      cases negative <;> simp [abs_div]
    have hcast : (n : Rat) = k.natAbs * 10 ^ places := by
      rw [← habs, div_mul_cancel₀ _ (by positivity)]
    exact_mod_cast hcast
  have hsign : (negative && n != 0) = true ↔ k < 0 := by
    have hcast : k < 0 ↔ (k : Rat) < 0 := by exact_mod_cast Iff.rfl
    have hunits : (0 : Rat) ≤ n / 10 ^ places := by positivity
    rw [hcast, ← h]
    cases negative with
    | false => simp [hunits]
    | true => simp [Nat.pos_iff_ne_zero]
  have hdigits : placesText places n = toString k.natAbs := by rw [hmagnitude, placesText_mul]
  rw [hdigits]
  cases k with
  | ofNat a =>
      rw [if_neg (mt hsign.1 (not_lt.2 (Int.natCast_nonneg a)))]
      exact String.empty_append
  | negSucc a =>
      rw [if_pos (hsign.2 (Int.negSucc_lt_zero a))]
      rfl

end Numeral

/-! ## What is left of all places -/

/-- The text of `n` units of `10 ^ -places` with all places. Zero keeps its sign. -/
def fullChars (places : Nat) (negative : Bool) (n : Nat) : List Char :=
  (if negative then ['-'] else []) ++ (Nat.toDigits 10 (n / 10 ^ places) ++
    '.' :: paddedDigits places (n % 10 ^ places))

/-- A text without the zeros at its end, without a point that is left there, and without
the sign of a zero that is all that is left. -/
def trimmed (cs : List Char) : List Char :=
  let stripped := cs.rdropWhile (· == '0')
  let body := if stripped.getLast? = some '.' then stripped.dropLast else stripped
  if body = ['-', '0'] then ['0'] else body

/-- The point stops the zeros. -/
theorem rdropWhile_append_cons {α : Type} {p : α → Bool} {x : α} (hx : ¬ p x = true)
    (front back : List α) :
    (front ++ x :: back).rdropWhile p = front ++ x :: back.rdropWhile p := by
  induction back using List.reverseRecOn with
  | nil => exact List.rdropWhile_concat_neg p front x hx
  | append_singleton back y ih =>
      rw [← List.cons_append, ← List.append_assoc]
      by_cases hy : p y = true
      · rw [List.rdropWhile_concat_pos p _ y hy, List.rdropWhile_concat_pos p _ y hy, ih]
      · rw [List.rdropWhile_concat_neg p _ y hy, List.rdropWhile_concat_neg p _ y hy,
          List.append_assoc, List.cons_append]

/-- Behind a whole part the zeros go, and the point with them if it has no digit left. -/
private theorem point_stripped (front : List Char) {ds : List Char}
    (hds : ∀ c ∈ ds, c.isDigit = true) :
    (if (front ++ '.' :: ds).getLast? = some '.' then (front ++ '.' :: ds).dropLast
      else front ++ '.' :: ds) = front ++ if ds.isEmpty then [] else '.' :: ds := by
  cases ds with
  | nil => simp
  | cons c cs =>
      have hlast : (front ++ '.' :: c :: cs).getLast? ≠ some '.' := by
        rw [List.getLast?_append_cons, List.getLast?_cons_cons]
        intro h
        have hpoint := hds '.' (List.mem_of_getLast? h)
        exact absurd hpoint (by decide)
      rw [if_neg hlast]
      rfl

theorem trimmed_fullChars (places : Nat) (negative : Bool) (n : Nat) :
    trimmed (fullChars places negative n) =
      (if negative && n != 0 then ['-'] else []) ++ (placesText places n).toList := by
  have hstripped : (fullChars places negative n).rdropWhile (· == '0') =
      (if negative then ['-'] else []) ++ Nat.toDigits 10 (n / 10 ^ places) ++
        '.' :: fractionDigits places (n % 10 ^ places) := by
    unfold fullChars
    rw [← List.append_assoc]
    exact rdropWhile_append_cons (by decide) _ _
  have htext : (placesText places n).toList = Nat.toDigits 10 (n / 10 ^ places) ++
      if (fractionDigits places (n % 10 ^ places)).isEmpty then []
      else '.' :: fractionDigits places (n % 10 ^ places) := toList_placesText places n
  unfold trimmed
  dsimp only
  rw [hstripped, point_stripped _ fun c hc => isDigit_of_mem_fractionDigits hc,
    List.append_assoc, ← htext]
  cases negative with
  | false =>
      have hunsigned : (placesText places n).toList ≠ ['-', '0'] := by
        intro h
        have hminus : '-' ∈ (placesText places n).toList := h ▸ List.mem_cons_self
        exact absurd (mem_placesText hminus) (by decide)
      exact if_neg hunsigned
  | true =>
      by_cases hn : n = 0
      · rw [hn, placesText_zero]
        rfl
      · have hzero : ['-'] ++ (placesText places n).toList ≠ ['-', '0'] := fun h =>
          placesText_ne_zero hn (String.toList_injective (List.cons.inj h).2)
        have hsign : (true && n != 0) = true := by simpa using hn
        rw [if_pos hsign]
        exact if_neg hzero

/-- The text with all places of a double. What is not finite has no places. -/
def fullText (places : Nat) (x : Float) : List Char :=
  match Exact.ofFloat x with
  | .finite negative m e => fullChars places negative (roundToPlaces places m e)
  | _ => (fixedText places x).toList

/-- **The text of a finite double is what is left of all its places.** -/
theorem toList_fixedText {x : Float} (hx : Scalar.isFinite x = true) (places : Nat) :
    (fixedText places x).toList = trimmed (fullText places x) := by
  obtain ⟨negative, m, e, hexact⟩ := Exact.exists_finite hx
  unfold fixedText fullText
  rw [hexact]
  dsimp only
  rw [trimmed_fullChars, String.toList_append]
  split <;> rfl

end PolyRow.Decimal
