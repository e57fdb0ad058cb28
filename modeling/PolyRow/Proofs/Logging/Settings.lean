import Mathlib
import PolyRow.Logging.Config
import PolyRow.Proofs.Text.Trimming

/-!
# Settings in order

Settings are put in order when they are made of texts, and each of the three texts in a
way of its own. The format is compared in any case of letters and is the only text that can
be wrong. The level is trimmed first, so blanks around it are no part of it and do not hide
the word `off` either. The file name is taken as it is unless it is empty.

The module rests on one equivalence: texts make given settings if the level and the file
are what is left of the texts, and the text of the format names the format. Settings made in
this way are normal, and a normal level and a normal file name are left alone. Hence the
settings that can be made at all are the ones that are made of their own texts. That putting
settings in order once more changes nothing, in whatever case the format is named, is this
fact together with the indifference to the case of the format.

## Main results

* `LogFormat.ofText_eq_ok_iff`, `LoggingConfig.normalLevel_eq_some_iff`: the format and
  the level that a text stands for.
* `LoggingConfig.ofParts_eq_ok_iff`: the settings that texts make.
* `LoggingConfig.isNormal_iff_ofParts`: the settings that are made of their own texts.
* `LoggingConfig.ofParts_normalizes`: all that can be said of settings made of texts.
-/

namespace PolyRow.Logging

open PolyRow.Text

/-! ## The format -/

namespace LogFormat

variable {s : String} {f g : LogFormat}

/-- The names of two formats differ in more than the case of letters. -/
theorem eq_of_sameButCase_label (h : SameButCase f.label g.label) : f = g := by
  cases f <;> cases g <;> revert h <;> decide +kernel

/-- Formats are read from their names, and no name is that of two formats. -/
private theorem ok_eq_ok_iff (hname : SameButCase s g.label) :
    (.ok g : Except LoggingError LogFormat) = .ok f ↔ SameButCase s f.label := by
  rw [Except.ok.injEq]
  constructor
  · rintro rfl
    exact hname
  · intro h
    exact eq_of_sameButCase_label (hname.symm.trans h)

/-- **A text stands for the format of that name**, in any case of letters. -/
theorem ofText_eq_ok_iff : ofText s = .ok f ↔ SameButCase s f.label := by
  unfold ofText
  simp only [sameIgnoringCase_iff]
  by_cases hpretty : SameButCase s "pretty"
  · rw [if_pos hpretty]
    exact ok_eq_ok_iff (g := .pretty) hpretty
  rw [if_neg hpretty]
  by_cases hjson : SameButCase s "json"
  · rw [if_pos hjson]
    exact ok_eq_ok_iff (g := .json) hjson
  rw [if_neg hjson]
  cases f with
  | pretty => exact iff_of_false nofun hpretty
  | json => exact iff_of_false nofun hjson

/-- A text that names no format is an error, and the error holds the text as it is. -/
theorem ofText_eq_error_iff {e : LoggingError} : ofText s = .error e ↔
    ¬ SameButCase s "pretty" ∧ ¬ SameButCase s "json" ∧ e = .invalidFormat s := by
  unfold ofText
  simp only [sameIgnoringCase_iff]
  by_cases hpretty : SameButCase s "pretty"
  · simp [hpretty]
  · by_cases hjson : SameButCase s "json"
    · simp [hpretty, hjson]
    · simp [hpretty, hjson, eq_comm (a := e)]

/-- The format that a text asks for; without a text it is the default. -/
def Asked : Option String → LogFormat → Prop
  | none, f => f = .pretty
  | some s, f => SameButCase s f.label

/-- The case of letters makes no difference to the format. -/
theorem Asked.congr {name name' : Option String} (hname : Option.Rel SameButCase name name')
    (h : Asked name f) : Asked name' f := by
  cases hname with
  | none => exact h
  | some hsame => exact hsame.symm.trans h

end LogFormat

namespace LoggingConfig

variable {s l : String} {level format file : Option String} {c : LoggingConfig}

/-! ## The level and the file -/

/-- A level that says something and has no blanks around it. -/
structure NormalLevel (l : String) : Prop where
  ne_empty : l ≠ ""
  trimmed : Trimmed l
  not_off : ¬ SameButCase l "off"

/-- **The level that a text stands for**: the text without the blanks around it, unless
nothing is left or the word `off` is. -/
theorem normalLevel_eq_some_iff : normalLevel s = some l ↔ PaddedTo l s ∧ NormalLevel l := by
  have hread : normalLevel s =
      if trim s = "" ∨ SameButCase (trim s) "off" then none else some (trim s) := by
    simp [normalLevel, sameIgnoringCase_iff]
  rw [hread, Option.ite_none_left_eq_some, not_or]
  constructor
  · rintro ⟨⟨hempty, hoff⟩, h⟩
    cases h
    exact ⟨paddedTo_trim s, hempty, trimmed_trim s, hoff⟩
  · rintro ⟨hpadded, hempty, htrimmed, hoff⟩
    rw [trim_eq_iff.2 ⟨htrimmed, hpadded⟩]
    exact ⟨⟨hempty, hoff⟩, rfl⟩

/-- Blanks around a level make no difference. -/
theorem normalLevel_eq_of_samePadded {t : String} (h : SamePadded s t) :
    normalLevel s = normalLevel t := by
  unfold normalLevel
  rw [trim_eq_of_samePadded h]

/-- **A file name is taken as it is**, unless it is empty. -/
theorem normalFile_eq_some_iff {p : String} : normalFile s = some p ↔ s = p ∧ p ≠ "" := by
  unfold normalFile
  rw [Option.ite_none_left_eq_some, Option.some.injEq, String.isEmpty_iff]
  constructor
  · rintro ⟨hempty, rfl⟩
    exact ⟨rfl, hempty⟩
  · rintro ⟨rfl, hempty⟩
    exact ⟨hempty, rfl⟩

/-! ## Settings -/

/-- Settings in order: a level that says something, and a file with a name. -/
structure IsNormal (c : LoggingConfig) : Prop where
  level : ∀ l ∈ c.level, NormalLevel l
  file : ∀ p ∈ c.file, p ≠ ""

/-- **Texts make settings** if the level and the file are what is left of them, and the
format is the one they ask for. -/
theorem ofParts_eq_ok_iff : ofParts level format file = .ok c ↔
    c.level = level.bind normalLevel ∧ LogFormat.Asked format c.format ∧
      c.file = file.bind normalFile := by
  obtain ⟨level', f, file'⟩ := c
  cases format with
  | none =>
      have hdefault : (default : LogFormat) = .pretty := rfl
      simp [ofParts, LogFormat.Asked, hdefault, pure, Except.pure, bind, Except.bind, eq_comm]
  | some s =>
      show ofParts level (some s) file = .ok ⟨level', f, file'⟩ ↔
        level' = level.bind normalLevel ∧ SameButCase s f.label ∧ file' = file.bind normalFile
      rw [← LogFormat.ofText_eq_ok_iff]
      cases hread : LogFormat.ofText s <;>
        simp [ofParts, hread, pure, Except.pure, bind, Except.bind, eq_comm, and_left_comm]

/-- Only the format can be wrong. -/
theorem ofParts_eq_error_iff {e : LoggingError} : ofParts level format file = .error e ↔
    ∃ s, format = some s ∧ ¬ SameButCase s "pretty" ∧ ¬ SameButCase s "json" ∧
      e = .invalidFormat s := by
  cases format with
  | none => simp [ofParts, pure, Except.pure, bind, Except.bind]
  | some s =>
      simp only [Option.some.injEq, exists_eq_left', ← LogFormat.ofText_eq_error_iff]
      cases hread : LogFormat.ofText s <;>
        simp [ofParts, hread, pure, Except.pure, bind, Except.bind]

theorem isNormal_of_ofParts (h : ofParts level format file = .ok c) : c.IsNormal := by
  obtain ⟨hlevel, -, hfile⟩ := ofParts_eq_ok_iff.1 h
  constructor
  · intro l hl
    obtain ⟨s, -, hs⟩ := Option.bind_eq_some_iff.1 (hlevel ▸ hl)
    exact (normalLevel_eq_some_iff.1 hs).2
  · intro p hp
    obtain ⟨s, -, hs⟩ := Option.bind_eq_some_iff.1 (hfile ▸ hp)
    exact (normalFile_eq_some_iff.1 hs).2

/-- **Settings that are made of their own texts** are the normal ones. -/
theorem isNormal_iff_ofParts :
    c.IsNormal ↔ ofParts c.level (some c.format.label) c.file = .ok c := by
  constructor
  · intro h
    have hlevel : c.level = c.level.bind normalLevel := by
      cases hl : c.level with
      | none => rfl
      | some l =>
          rw [Option.bind_some, normalLevel_eq_some_iff.2 ⟨paddedTo_self l, h.level l hl⟩]
    have hfile : c.file = c.file.bind normalFile := by
      cases hp : c.file with
      | none => rfl
      | some p =>
          rw [Option.bind_some, normalFile_eq_some_iff.2 ⟨rfl, h.file p hp⟩]
    exact ofParts_eq_ok_iff.2 ⟨hlevel, SameButCase.refl c.format.label, hfile⟩
  · exact isNormal_of_ofParts

/-- Texts that differ in the blanks around the level and the case of the format make the
same settings. -/
theorem ofParts_congr {level' format' : Option String} (h : ofParts level format file = .ok c)
    (hlevel : Option.Rel SamePadded level level')
    (hformat : Option.Rel SameButCase format format') : ofParts level' format' file = .ok c := by
  obtain ⟨hl, hf, hp⟩ := ofParts_eq_ok_iff.1 h
  have hsame : level.bind normalLevel = level'.bind normalLevel := by
    cases hlevel with
    | none => rfl
    | some hpadded =>
        rw [Option.bind_some, Option.bind_some, normalLevel_eq_of_samePadded hpadded]
  exact ofParts_eq_ok_iff.2 ⟨hl.trans hsame, hf.congr hformat, hp⟩

/-- **Settings are put in order once and for all.** Making them fails only for the name of
a format that is none, whatever the level and the file. Otherwise the settings are normal.
Their level is what the text of the level holds between blanks, their file is the one that
is named, and their format the one that is asked for. Blanks around the level and the case
of the format make no difference, and the settings made of the texts of settings are these
settings again. -/
theorem ofParts_normalizes (level format file : Option String) :
    (∀ e, ofParts level format file = .error e ↔
      ∃ s, format = some s ∧ ¬ SameButCase s "pretty" ∧ ¬ SameButCase s "json" ∧
        e = .invalidFormat s) ∧
    ∀ c, ofParts level format file = .ok c →
      c.IsNormal ∧
      (∀ l, c.level = some l ↔ ∃ s, level = some s ∧ PaddedTo l s ∧ NormalLevel l) ∧
      LogFormat.Asked format c.format ∧
      (∀ p, c.file = some p ↔ file = some p ∧ p ≠ "") ∧
      (∀ level' format', Option.Rel SamePadded level level' →
        Option.Rel SameButCase format format' → ofParts level' format' file = .ok c) ∧
      ∀ name, SameButCase name c.format.label → ofParts c.level (some name) c.file = .ok c := by
  refine ⟨fun e => ofParts_eq_error_iff, fun c h => ?_⟩
  obtain ⟨hlevel, hformat, hfile⟩ := ofParts_eq_ok_iff.1 h
  have hnormal : c.IsNormal := isNormal_of_ofParts h
  have hself : ofParts c.level (some c.format.label) c.file = .ok c :=
    isNormal_iff_ofParts.1 hnormal
  have hlevel_self : Option.Rel SamePadded c.level c.level := by
    cases c.level with
    | none => exact .none
    | some l => exact .some (SamePadded.refl l)
  refine ⟨hnormal, fun l => ?_, hformat, fun p => ?_, fun level' format' => ofParts_congr h,
    fun name hname => ofParts_congr hself hlevel_self (.some hname.symm)⟩
  · rw [hlevel, Option.bind_eq_some_iff]
    simp only [normalLevel_eq_some_iff]
  · rw [hfile, Option.bind_eq_some_iff]
    simp only [normalFile_eq_some_iff]
    constructor
    · rintro ⟨s, hs, rfl, hempty⟩
      exact ⟨hs, hempty⟩
    · rintro ⟨hs, hempty⟩
      exact ⟨p, hs, rfl, hempty⟩

/-- A level between an ideographic space and a line break, with a format in capitals: the
settings are normal, and they are made again of less padding, of small letters, and of
themselves. -/
theorem ofParts_normalizes_padded :
    ofParts (some "\u3000Off-by-one \n") (some "JSON") (some " a.log") =
        .ok ⟨some "Off-by-one", .json, some " a.log"⟩ ∧
      (⟨some "Off-by-one", .json, some " a.log"⟩ : LoggingConfig).IsNormal ∧
      ofParts (some "Off-by-one\t") (some "Json") (some " a.log") =
        .ok ⟨some "Off-by-one", .json, some " a.log"⟩ ∧
      ofParts (some "Off-by-one") (some "jSON") (some " a.log") =
        .ok ⟨some "Off-by-one", .json, some " a.log"⟩ := by
  have hpadded : PaddedTo "Off-by-one" "\u3000Off-by-one \n" :=
    ⟨"\u3000", " \n", by simp [Blank, isBlank], blank_of_isWhitespace (by decide), rfl⟩
  have hpadded' : PaddedTo "Off-by-one" "Off-by-one\t" :=
    ⟨"", "\t", blank_empty, blank_of_isWhitespace (by decide), rfl⟩
  have hlevel : NormalLevel "Off-by-one" :=
    ⟨by decide +kernel, trim_eq_self_iff.1 (by decide +kernel), by decide +kernel⟩
  have hread : normalLevel "\u3000Off-by-one \n" = some "Off-by-one" :=
    normalLevel_eq_some_iff.2 ⟨hpadded, hlevel⟩
  have hfile : normalFile " a.log" = some " a.log" :=
    normalFile_eq_some_iff.2 ⟨rfl, by decide +kernel⟩
  have hformat : SameButCase "JSON" "json" := by decide +kernel
  have hmade : ofParts (some "\u3000Off-by-one \n") (some "JSON") (some " a.log") =
      .ok ⟨some "Off-by-one", .json, some " a.log"⟩ := by
    rw [ofParts_eq_ok_iff, Option.bind_some, Option.bind_some, hread, hfile]
    exact ⟨rfl, hformat, rfl⟩
  have hname : SameButCase "JSON" "Json" := by decide +kernel
  have hlabel : SameButCase "jSON" "json" := by decide +kernel
  obtain ⟨hnormal, -, -, -, hcongr, hself⟩ :=
    (ofParts_normalizes (some "\u3000Off-by-one \n") (some "JSON") (some " a.log")).2 _ hmade
  exact ⟨hmade, hnormal, hcongr _ _ (.some ⟨_, hpadded, hpadded'⟩) (.some hname),
    hself _ hlabel⟩

end LoggingConfig

end PolyRow.Logging
