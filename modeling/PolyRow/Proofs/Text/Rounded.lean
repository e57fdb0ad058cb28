import Mathlib
import PolyRow.Proofs.Text.Numeral

/-!
# Numbers are shown to twelve places

The text of a finite number is a decimal in normal form: of all decimals with twelve places
the one that is nearest to the exact value of the double, and of two that are equally near
the one whose last place is even. All else that a reader may expect of the text follows
from this. It is off by half a unit of the twelfth place at most, greater numbers have no
smaller texts, whole numbers keep their zeros, and a negation changes the sign in front and
nothing else, unless the number is shown as zero.

## Main results

* `Expr.nearestEven_shownUnits`: the units of the twelfth place are the nearest ones.
* `Expr.exists_rendering`: the text of a finite number.
-/

namespace PolyRow.Expr

open Decimal (Exact Numeral fullText fixedText placesText placesText_zero roundToPlaces
  roundToPlaces_eq toList_fixedText trimmed)
open Double (NearestEven number)

section Shown

variable {v : Float} {negative : Bool} {m : Nat} {e : Int}

/-- The decimal that is shown for a double with the given parts. -/
def shown (negative : Bool) (m : Nat) (e : Int) : Numeral 12 :=
  .ofUnits (by decide) negative (roundToPlaces 12 m e)

/-- Its units of the twelfth place. -/
def shownUnits (negative : Bool) (m : Nat) (e : Int) : Int :=
  if negative then -(roundToPlaces 12 m e : Int) else roundToPlaces 12 m e

theorem value_shown (negative : Bool) (m : Nat) (e : Int) :
    (shown negative m e).value = shownUnits negative m e / 10 ^ 12 := by
  unfold shown shownUnits
  rw [Numeral.value_ofUnits]
  cases negative with
  | false => simp
  | true => simp [neg_div]

theorem text_shown (negative : Bool) (m : Nat) (e : Int) :
    (shown negative m e).text = (if negative && roundToPlaces 12 m e != 0 then "-" else "") ++
      placesText 12 (roundToPlaces 12 m e) :=
  Numeral.text_ofUnits _ _ _

theorem numberText_eq_shown (h : Exact.ofFloat v = .finite negative m e) :
    numberText v = (shown negative m e).text := by
  rw [text_shown]
  unfold numberText fixedText
  rw [h]

/-- **The units of the twelfth place are the nearest ones.** -/
theorem nearestEven_shownUnits {q : Rat} (h : Exact.ofFloat v = .finite negative m e)
    (hv : number v = .finite q) : NearestEven (q * 10 ^ 12) (shownUnits negative m e) := by
  have hparts : (if negative then -1 else 1) * (m * 2 ^ e) = q :=
    ExtendedRat.finite.inj ((Exact.number_eq h).symm.trans hv)
  have hmagnitude := Double.nearestEven_roundEven
    (show (0 : Rat) ≤ m * 2 ^ e * 10 ^ 12 by positivity)
  rw [← hparts]
  unfold shownUnits
  rw [roundToPlaces_eq]
  cases negative with
  | false => simpa using hmagnitude
  | true => simpa using hmagnitude.neg

end Shown

/-! ## The text of a finite number -/

/-- What the text of a double is, if the double stands for `q`: the decimal `d`. -/
structure Rendering (v : Float) (q : Rat) (d : Numeral 12) : Prop where
  text : numberText v = d.text
  /-- All twelve places are written, and what is superfluous is taken away. -/
  trimmed : (numberText v).toList = trimmed (fullText 12 v)
  nearest : ∃ n : Int, d.value = n / 10 ^ 12 ∧ NearestEven (q * 10 ^ 12) n
  error : |d.value - q| ≤ 1 / 2 / 10 ^ 12
  whole : ∀ k : Int, d.value = k → numberText v = toString k
  monotone : ∀ w r, number w = .finite r → v ≤ w →
    ∀ c : Numeral 12, numberText w = c.text → d.value ≤ c.value
  negation : 0 < v →
    (d.value = 0 → numberText v = "0" ∧ numberText (-v) = "0") ∧
    (d.value ≠ 0 → numberText (-v) = "-" ++ numberText v)

/-- Half a unit of the twelfth place is the greatest error. -/
private theorem error_le {x q : Rat} {n : Int} (hx : x = n / 10 ^ 12)
    (hn : NearestEven (q * 10 ^ 12) n) : |x - q| ≤ 1 / 2 / 10 ^ 12 := by
  have hunits := (Double.nearestEven_iff.1 hn).1
  have hscale : x - q = -(q * 10 ^ 12 - n) / 10 ^ 12 := by
    rw [hx]
    ring
  rw [hscale, abs_div, abs_neg, abs_of_pos (show (0 : Rat) < 10 ^ 12 by positivity)]
  exact div_le_div_of_nonneg_right hunits (by positivity)

/-- Numbers in order are shown in order. -/
private theorem value_le {v w : Float} {q r x : Rat} {n : Int} (hv : number v = .finite q)
    (hw : number w = .finite r) (hle : v ≤ w) (hx : x = n / 10 ^ 12)
    (hn : NearestEven (q * 10 ^ 12) n) {c : Numeral 12} (hc : numberText w = c.text) :
    x ≤ c.value := by
  obtain ⟨negative, m, e, hparts⟩ := Exact.exists_finite (Double.isFinite_iff.2 ⟨r, hw⟩)
  have hshown : shown negative m e = c :=
    Numeral.text_injective ((numberText_eq_shown hparts).symm.trans hc)
  rw [Double.le_iff_number, hv, hw, ExtendedRat.finite_le_finite] at hle
  have hunits : n ≤ shownUnits negative m e :=
    hn.le (nearestEven_shownUnits hparts hw) (mul_le_mul_of_nonneg_right hle (by positivity))
  rw [hx, ← hshown, value_shown]
  exact div_le_div_of_nonneg_right (by exact_mod_cast hunits) (by positivity)

/-- A positive number has no sign, and its negation has one unless zero is shown. -/
private theorem numberText_neg {v : Float} {q : Rat} {negative : Bool} {m : Nat} {e : Int}
    (hv : number v = .finite q) (hparts : Exact.ofFloat v = .finite negative m e) (hpos : 0 < v) :
    ((shown negative m e).value = 0 → numberText v = "0" ∧ numberText (-v) = "0") ∧
    ((shown negative m e).value ≠ 0 → numberText (-v) = "-" ++ numberText v) := by
  have hq : 0 < q := (Double.lt_iff_of_number Double.number_zero hv).1 hpos
  have hsign : negative = false := by
    have hvalue := ExtendedRat.finite.inj ((Exact.number_eq hparts).symm.trans hv)
    have hmagnitude : (0 : Rat) ≤ m * 2 ^ e := by positivity
    cases negative with
    | false => rfl
    | true =>
        simp only [if_true] at hvalue
        linarith
  subst hsign
  rw [numberText_eq_shown hparts, numberText_eq_shown (Exact.ofFloat_neg hparts), value_shown,
    text_shown, text_shown]
  unfold shownUnits
  generalize roundToPlaces 12 m e = n
  rcases Nat.eq_zero_or_pos n with hzero | hn
  · subst hzero
    rw [placesText_zero]
    exact ⟨fun _ => ⟨rfl, rfl⟩, fun h => absurd (by simp) h⟩
  · have hne : (n : Rat) ≠ 0 := by exact_mod_cast hn.ne'
    have hshown : (true && n != 0) = true := by simpa using hn.ne'
    refine ⟨fun h => absurd h (by simpa using hn.ne'), fun _ => ?_⟩
    show (if true && n != 0 then "-" else "") ++ _ = "-" ++ ("" ++ _)
    rw [if_pos hshown, String.empty_append]

/-- **The text of a finite number** is the normal form of the nearest decimal with twelve
places. -/
theorem exists_rendering {v : Float} {q : Rat} (hv : number v = .finite q) :
    ∃ d : Numeral 12, Rendering v q d := by
  have hfinite : Scalar.isFinite v = true := Double.isFinite_iff.2 ⟨q, hv⟩
  obtain ⟨negative, m, e, hparts⟩ := Exact.exists_finite hfinite
  have htext := numberText_eq_shown hparts
  have hvalue := value_shown negative m e
  have hnearest := nearestEven_shownUnits hparts hv
  exact ⟨shown negative m e, {
    text := htext
    trimmed := toList_fixedText hfinite 12
    nearest := ⟨_, hvalue, hnearest⟩
    error := error_le hvalue hnearest
    whole := fun k hk => htext.trans (Numeral.text_ofUnits_of_value_eq _ _ _ hk)
    monotone := fun w r hw hle c hc => value_le hv hw hle hvalue hnearest hc
    negation := numberText_neg hv hparts }⟩

/-- `3 / 8192`, which lies half way between two decimals with twelve places. -/
def halfWay : Float := Float.ofBits 0x3F38000000000000

/-- The exact value is `0.0003662109375`, and `7` is the odd one of the two places. -/
theorem exists_rendering_halfWay :
    number halfWay = .finite (3 / 8192) ∧ numberText halfWay = "0.000366210938" ∧
      ∃ d : Numeral 12, Rendering halfWay (3 / 8192) d ∧ d.text = "0.000366210938" := by
  have hnumber : number halfWay = .finite (3 / 8192) := by
    show ExtendedRat.finite (1 * ((3 * 2 ^ 51 : Nat) * 2 ^ (-64 : Int))) = _
    norm_num
  have htext : numberText halfWay = "0.000366210938" := by decide +kernel
  obtain ⟨d, hd⟩ := exists_rendering hnumber
  exact ⟨hnumber, htext, d, hd, hd.text.symm.trans htext⟩

end PolyRow.Expr
