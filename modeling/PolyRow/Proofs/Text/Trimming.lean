import Mathlib
import PolyRow.Text.Blank

/-!
# Texts up to blanks and up to case

Trimming takes a text apart into blanks, a middle and blanks. The middle neither begins
nor ends with a blank, and a text has only one middle of that kind, so there is nothing
more to say about trimming: trimming twice is trimming once, and blanks around a text make
no difference.

Texts are compared in any case of letters by turning all of them into small ones. That is
the same as comparing them character by character, where the two cases of an ASCII letter
count as one and any other character is equal to itself only.

## Main results

* `trim_eq_iff`: the middle of a text.
* `trim_eq_self_iff`, `trim_eq_of_samePadded`: texts that are trimmed already, and texts
  that differ in the blanks around them.
* `sameIgnoringCase_iff`: comparison in any case, character by character.
-/

namespace PolyRow.Text

/-! ## Characters between blanks -/

section Characters

variable {front cs back : List Char}

/-- Characters are blanks, what trimming leaves, and blanks. -/
theorem exists_eq_append_trimChars (cs : List Char) :
    ∃ front back, (∀ c ∈ front, isBlank c = true) ∧ (∀ c ∈ back, isBlank c = true) ∧
      cs = front ++ trimChars cs ++ back := by
  refine ⟨cs.takeWhile isBlank, (cs.dropWhile isBlank).rtakeWhile isBlank,
    fun c => List.mem_takeWhile_imp, fun c => List.mem_rtakeWhile_imp, ?_⟩
  show cs = cs.takeWhile isBlank ++ (cs.dropWhile isBlank).rdropWhile isBlank ++
    (cs.dropWhile isBlank).rtakeWhile isBlank
  rw [List.append_assoc, List.rdropWhile_append_rtakeWhile, List.takeWhile_append_dropWhile]

/-- No blank is left at the front. -/
theorem isBlank_head?_trimChars (cs : List Char) :
    ∀ c ∈ (trimChars cs).head?, isBlank c = false := by
  intro c hc
  have hprefix : trimChars cs <+: cs.dropWhile isBlank := List.rdropWhile_prefix isBlank _
  have hhead : (cs.dropWhile isBlank).head? = some c := by
    obtain ⟨rest, hrest⟩ := hprefix
    rw [← hrest, List.head?_append, Option.mem_def.1 hc]
    rfl
  have hne : cs.dropWhile isBlank ≠ [] := by
    intro hnil
    rw [hnil] at hhead
    exact nomatch hhead
  rw [List.head?_eq_some_head hne] at hhead
  exact Option.some.inj hhead ▸ List.head_dropWhile_not isBlank hne

/-- No blank is left at the end. -/
theorem isBlank_getLast?_trimChars (cs : List Char) :
    ∀ c ∈ (trimChars cs).getLast?, isBlank c = false := by
  intro c hc
  obtain ⟨hne, rfl⟩ := List.mem_getLast?_eq_getLast hc
  exact Bool.not_eq_true _ ▸ List.rdropWhile_last_not isBlank (cs.dropWhile isBlank) hne

/-- Characters that begin with no blank lose none at the front. -/
private theorem dropWhile_eq_self (h : ∀ c ∈ cs.head?, isBlank c = false) :
    cs.dropWhile isBlank = cs := by
  cases cs with
  | nil => rfl
  | cons c rest => exact List.dropWhile_cons_of_neg (by simp [h c rfl])

/-- **Blanks around characters are taken away**, and nothing else if these neither begin
nor end with a blank. -/
theorem trimChars_append (hfront : ∀ c ∈ front, isBlank c = true)
    (hback : ∀ c ∈ back, isBlank c = true) (hhead : ∀ c ∈ cs.head?, isBlank c = false)
    (hlast : ∀ c ∈ cs.getLast?, isBlank c = false) : trimChars (front ++ cs ++ back) = cs := by
  have hstart : (front ++ cs ++ back).dropWhile isBlank = (cs ++ back).dropWhile isBlank := by
    rw [List.append_assoc, List.dropWhile_append_of_pos hfront]
  unfold trimChars
  rw [hstart]
  cases cs with
  | nil =>
      have hnone : back.dropWhile isBlank = [] := List.dropWhile_eq_nil_iff.2 hback
      rw [List.nil_append, hnone]
      rfl
  | cons c rest =>
      have hkept : (c :: rest ++ back).dropWhile isBlank = c :: rest ++ back :=
        dropWhile_eq_self (by simpa using hhead)
      have hreversed : (c :: rest).reverse.dropWhile isBlank = (c :: rest).reverse :=
        dropWhile_eq_self (List.head?_reverse ▸ hlast)
      rw [hkept, List.reverse_append, List.dropWhile_append_of_pos (by simpa using hback),
        hreversed, List.reverse_reverse]

end Characters

/-! ## Texts between blanks -/

/-- Nothing but blanks. -/
def Blank (s : String) : Prop := ∀ c ∈ s.toList, isBlank c = true

/-- No blank at the front and none at the end. -/
structure Trimmed (s : String) : Prop where
  front : ∀ c ∈ s.toList.head?, isBlank c = false
  back : ∀ c ∈ s.toList.getLast?, isBlank c = false

/-- The second text is the first one with blanks around it, if any. -/
def PaddedTo (middle s : String) : Prop :=
  ∃ front back, Blank front ∧ Blank back ∧ s = front ++ middle ++ back

/-- Two texts are one and the same with blanks around it, if any. -/
def SamePadded (s t : String) : Prop := ∃ middle, PaddedTo middle s ∧ PaddedTo middle t

variable {s t middle : String}

theorem blank_empty : Blank "" := fun _ h => nomatch h

theorem blank_of_isWhitespace (h : s.toList.all Char.isWhitespace = true) : Blank s :=
  fun c hc => isBlank_of_isWhitespace (List.all_eq_true.1 h c hc)

theorem paddedTo_self (s : String) : PaddedTo s s := ⟨"", "", blank_empty, blank_empty, by simp⟩

theorem SamePadded.refl (s : String) : SamePadded s s := ⟨s, paddedTo_self s, paddedTo_self s⟩

theorem trimmed_trim (s : String) : Trimmed (trim s) := by
  unfold trim
  constructor
  · rw [String.toList_ofList]
    exact isBlank_head?_trimChars s.toList
  · rw [String.toList_ofList]
    exact isBlank_getLast?_trimChars s.toList

theorem paddedTo_trim (s : String) : PaddedTo (trim s) s := by
  obtain ⟨front, back, hfront, hback, hs⟩ := exists_eq_append_trimChars s.toList
  refine ⟨String.ofList front, String.ofList back, by simpa [Blank], by simpa [Blank], ?_⟩
  apply String.toList_injective
  rw [String.toList_append, String.toList_append]
  simpa [trim] using hs

/-- **A text has one middle**: what is left without the blanks around it. -/
theorem trim_eq_iff : trim s = middle ↔ Trimmed middle ∧ PaddedTo middle s := by
  constructor
  · rintro rfl
    exact ⟨trimmed_trim s, paddedTo_trim s⟩
  · rintro ⟨⟨hhead, hlast⟩, front, back, hfront, hback, rfl⟩
    apply String.toList_injective
    simpa [trim] using trimChars_append hfront hback hhead hlast

/-- Trimmed texts are the ones that trimming leaves alone. -/
theorem trim_eq_self_iff : trim s = s ↔ Trimmed s :=
  trim_eq_iff.trans (and_iff_left (paddedTo_self s))

theorem Blank.append (hs : Blank s) (ht : Blank t) : Blank (s ++ t) := by
  unfold Blank
  simpa [or_imp, forall_and] using ⟨hs, ht⟩

/-- **Blanks around a text make no difference.** -/
theorem trim_eq_of_paddedTo (h : PaddedTo middle s) : trim s = trim middle := by
  obtain ⟨front, back, hfront, hback, rfl⟩ := h
  obtain ⟨front', back', hfront', hback', hmiddle⟩ := paddedTo_trim middle
  refine trim_eq_iff.2 ⟨trimmed_trim middle, front ++ front', back' ++ back,
    hfront.append hfront', hback'.append hback, ?_⟩
  conv_lhs => rw [hmiddle]
  simp only [String.append_assoc]

theorem trim_eq_of_samePadded (h : SamePadded s t) : trim s = trim t := by
  obtain ⟨middle, hs, ht⟩ := h
  rw [trim_eq_of_paddedTo hs, trim_eq_of_paddedTo ht]

/-! ## Letters in either case -/

/-- The same character, or the same ASCII letter in the other case. -/
def SameLetter (c d : Char) : Prop :=
  c = d ∨ ∃ k < 26, c.toNat = 65 + k ∧ d.toNat = 97 + k ∨ c.toNat = 97 + k ∧ d.toNat = 65 + k

/-- Two texts differ in nothing but the case of ASCII letters. -/
def SameButCase (s t : String) : Prop := List.Forall₂ SameLetter s.toList t.toList

/-- A capital is told by its number. -/
private theorem isUpper_iff (c : Char) : c.isUpper ↔ 65 ≤ c.toNat ∧ c.toNat ≤ 90 := by
  simp [Char.isUpper, UInt32.le_iff_toNat_le]

/-- Small letters stand 32 places after the capitals. -/
private theorem toNat_toLower (c : Char) :
    c.toLower.toNat = if c.isUpper then c.toNat + 32 else c.toNat := by
  by_cases hupper : c.isUpper
  · have hvalid : (c.toNat + 32).isValidChar := by
      have := (isUpper_iff c).1 hupper
      unfold Nat.isValidChar
      omega
    rw [if_pos hupper, Char.toLower_eq_of_isUpper hupper, Char.toNat_ofNat, if_pos hvalid]
  · rw [if_neg hupper, Char.toLower_eq_of_not_isUpper hupper]

/-- Two characters have the same small letter if they are the same or differ in case. -/
theorem toLower_eq_iff {c d : Char} : c.toLower = d.toLower ↔ SameLetter c d := by
  unfold SameLetter
  rw [← Char.toNat_inj, ← Char.toNat_inj, toNat_toLower, toNat_toLower]
  simp only [isUpper_iff]
  constructor
  · intro h
    rcases Nat.lt_trichotomy c.toNat d.toNat with hlt | heq | hgt
    · exact .inr ⟨c.toNat - 65, by grind, .inl (by grind)⟩
    · exact .inl heq
    · exact .inr ⟨d.toNat - 65, by grind, .inr (by grind)⟩
  · rintro (heq | ⟨k, hk, ⟨hc, hd⟩ | ⟨hc, hd⟩⟩)
    · rw [heq]
    · rw [if_pos (by omega), if_neg (by omega)]
      omega
    · rw [if_neg (by omega), if_pos (by omega)]
      omega

/-- The case of letters is forgotten character by character. -/
theorem sameButCase_iff :
    SameButCase s t ↔ s.toList.map Char.toLower = t.toList.map Char.toLower := by
  unfold SameButCase
  rw [← List.forall₂_eq_eq_eq, List.forall₂_map_left_iff, List.forall₂_map_right_iff]
  simp only [toLower_eq_iff]

instance (s t : String) : Decidable (SameButCase s t) := decidable_of_iff' _ sameButCase_iff

/-- **Comparison in any case, character by character.** -/
theorem sameIgnoringCase_iff : sameIgnoringCase s t = true ↔ SameButCase s t := by
  unfold sameIgnoringCase String.toLower
  rw [beq_iff_eq, sameButCase_iff, ← String.toList_inj, String.toList_map, String.toList_map]

theorem SameButCase.refl (s : String) : SameButCase s s := sameButCase_iff.2 rfl

theorem SameButCase.symm (h : SameButCase s t) : SameButCase t s :=
  sameButCase_iff.2 (sameButCase_iff.1 h).symm

theorem SameButCase.trans {u : String} (hst : SameButCase s t) (htu : SameButCase t u) :
    SameButCase s u :=
  sameButCase_iff.2 ((sameButCase_iff.1 hst).trans (sameButCase_iff.1 htu))

end PolyRow.Text
