import PolyRow.Logging.Directory
import PolyRow.Logging.Session

/-!
# Installing a subscriber once

A program may ask for logging any number of times, with settings of its own or with
those of its environment, while its log files change in between. What can be wrong
with a request is said here stage by stage, each without regard to the others: the
format that an environment names, the filter, and the log file. As long as no
subscriber is there, the first of these faults is the outcome and the session stays
as it was, so the request can be repeated. The first request without a fault installs
a subscriber. From then on neither filters nor files are looked at.

Filters are read as the session says and files are opened in any store, so it is left
open throughout which texts are filters and which paths can be opened.

## Main results

* `Session.request_cases`: a request with a bad format, and one without.
* `Session.call_of_fault`, `Session.call_of_accepted`, `Session.call_of_installed`:
  one call.
* `Session.after_of_refused`, `Session.installed_after_of_accepted`: a sequence of
  calls.
* `Session.installed_at_most_once`: the outcome of every call of a sequence.
-/

namespace PolyRow.Logging

variable {σ : Type}

/-! ## The stages -/

/-- Whether a text names a format, in any case of letters. -/
def LogFormat.isName (s : String) : Bool :=
  Text.sameIgnoringCase s "pretty" || Text.sameIgnoringCase s "json"

/-- The first stage: there may be no format of the name that is given. -/
def formatFault? : Option String → Option LoggingError
  | none => none
  | some name => if LogFormat.isName name then none else some (.invalidFormat name)

/-- The second stage: the level that is given may be no filter. -/
def filterFault? (read : String → Except FilterError Filter) :
    Option String → Option SetupFailure
  | none => none
  | some level =>
    match read level with
    | .ok _ => none
    | .error fault => some fault.failure

/-- The third stage: the log file that is given may not open. -/
def fileFault? [LogStore σ] (store : σ) : Option String → Option LoggingError
  | none => none
  | some path =>
    match LogStore.openForAppend store path with
    | .ok _ => none
    | .error cause => some (.logFile cause)

/-! ## Requests -/

/-- A way to ask for logging. -/
inductive Request where
  | settings (config : LoggingConfig)
  | environment (env : Environment)

namespace Request

/-- What the request wants to be let through; nothing if unset. -/
def level : Request → Option String
  | .settings config => config.level
  | .environment env => (env levelVariable).bind LoggingConfig.normalLevel

/-- The name of a format that is still to be read; settings have their format. -/
def formatName : Request → Option String
  | .settings _ => none
  | .environment env => env formatVariable

/-- The log file that the request wants. -/
def file : Request → Option String
  | .settings config => config.file
  | .environment env => (env fileVariable).bind LoggingConfig.normalFile

/-- The fault of the first stage that has one. -/
def fault? [LogStore σ] (read : String → Except FilterError Filter) (store : σ) (r : Request) :
    Option SetupFailure :=
  ((formatFault? r.formatName).map .error).or
    ((filterFault? read r.level).or ((fileFault? store r.file).map .error))

/-- The answer to a request when a subscriber is there already. -/
def lateOutcome (r : Request) : Except SetupFailure Bool :=
  match formatFault? r.formatName with
  | none => .ok false
  | some fault => .error (.error fault)

end Request

/-! ## One stage after the other -/

theorem LogFormat.ofText_of_isName {s : String} (h : isName s = true) :
    ∃ format, ofText s = .ok format := by
  unfold isName at h
  unfold ofText
  by_cases hpretty : Text.sameIgnoringCase s "pretty" = true
  · exact ⟨.pretty, if_pos hpretty⟩
  · have hjson : Text.sameIgnoringCase s "json" = true := by simpa [hpretty] using h
    exact ⟨.json, by rw [if_neg hpretty, if_pos hjson]⟩

theorem LogFormat.ofText_of_not_isName {s : String} (h : isName s = false) :
    ofText s = .error (.invalidFormat s) := by
  simp only [isName, Bool.or_eq_false_iff] at h
  simp [ofText, h.1, h.2]

/-- Settings are made of texts unless the format is at fault, and the level and the
file of the settings do not depend on it. -/
theorem LoggingConfig.ofParts_cases (level name file : Option String) :
    (∃ fault, formatFault? name = some fault ∧ ofParts level name file = .error fault) ∨
    (formatFault? name = none ∧ ∃ format,
      ofParts level name file = .ok ⟨level.bind normalLevel, format, file.bind normalFile⟩) := by
  cases name with
  | none => exact .inr ⟨rfl, default, rfl⟩
  | some s =>
      by_cases hname : LogFormat.isName s = true
      · obtain ⟨format, hformat⟩ := LogFormat.ofText_of_isName hname
        refine .inr ⟨if_pos hname, format, ?_⟩
        simp only [ofParts, hformat]
        rfl
      · have hformat := LogFormat.ofText_of_not_isName (Bool.not_eq_true _ ▸ hname)
        refine .inl ⟨.invalidFormat s, if_neg hname, ?_⟩
        simp only [ofParts, hformat]
        rfl

namespace Session

section Stages

variable [LogStore σ] (s : Session σ) (config : LoggingConfig)

theorem filterWith_cases (read : String → Except FilterError Filter) :
    (∃ fault, filterFault? read config.level = some fault ∧
      config.filterWith read = .error fault) ∨
    (filterFault? read config.level = none ∧ ∃ filter, config.filterWith read = .ok filter) := by
  unfold filterFault? LoggingConfig.filterWith
  cases config.level with
  | none => exact .inr ⟨rfl, .off, rfl⟩
  | some level =>
      cases hread : read level with
      | ok filter => exact .inr ⟨by simp [hread], filter, by simp only [hread]; rfl⟩
      | error fault => exact .inl ⟨fault.failure, by simp [hread], by simp only [hread]; rfl⟩

theorem openFile_cases :
    (∃ fault, fileFault? s.store config.file = some fault ∧
      s.openFile config = .error fault) ∨
    (fileFault? s.store config.file = none ∧ ∃ store, s.openFile config = .ok store) := by
  unfold fileFault? openFile
  cases config.file with
  | none => exact .inr ⟨rfl, s.store, rfl⟩
  | some path =>
      cases hopen : LogStore.openForAppend s.store path with
      | ok store => exact .inr ⟨by simp [hopen], store, by simp only [hopen]; rfl⟩
      | error cause => exact .inl ⟨.logFile cause, by simp [hopen], by simp only [hopen]; rfl⟩

/-- The filter is read before the file is opened, and its fault comes first. -/
theorem prepare_cases :
    (∃ fault, (filterFault? s.readFilter config.level).or
        ((fileFault? s.store config.file).map .error) = some fault ∧
      s.prepare config = .error fault) ∨
    ((filterFault? s.readFilter config.level).or
        ((fileFault? s.store config.file).map .error) = none ∧
      ∃ subscriber store, s.prepare config = .ok (subscriber, store) ∧
        subscriber.file = config.file) := by
  unfold prepare
  rcases filterWith_cases config s.readFilter with
    ⟨fault, hfault, hfilter⟩ | ⟨hnone, filter, hfilter⟩
  · exact .inl ⟨fault, by simp [hfault], by rw [hfilter]; rfl⟩
  · rcases openFile_cases s config with ⟨fault, hfault, hfile⟩ | ⟨hnone', store, hfile⟩
    · refine .inl ⟨.error fault, by simp [hnone, hfault], ?_⟩
      rw [hfilter, hfile]
      rfl
    · refine .inr ⟨by simp [hnone, hnone'], ⟨filter, config.format, config.file⟩, store, ?_, rfl⟩
      rw [hfilter, hfile]
      rfl

end Stages

/-! ## One request -/

section Requests

variable [LogStore σ] {s : Session σ}

/-- What a request does. -/
def request (s : Session σ) : Request → Except SetupFailure Bool × Session σ
  | .settings config => s.enable config
  | .environment env => s.enableFromEnvironment env

/-- **A request with a bad format, and one without.** The first is refused whatever the
session is; the second asks for settings with its level and file. -/
theorem request_cases (s : Session σ) (r : Request) :
    (∃ fault, formatFault? r.formatName = some fault ∧
      s.request r = (.error (.error fault), s)) ∨
    (formatFault? r.formatName = none ∧ ∃ config : LoggingConfig,
      config.level = r.level ∧ config.file = r.file ∧ s.request r = s.enable config) := by
  cases r with
  | settings config => exact .inr ⟨rfl, config, rfl, rfl, rfl⟩
  | environment env =>
      rcases LoggingConfig.ofParts_cases (env levelVariable) (env formatVariable)
        (env fileVariable) with ⟨fault, hfault, hparts⟩ | ⟨hnone, format, hparts⟩
      · refine .inl ⟨fault, hfault, ?_⟩
        simp [request, enableFromEnvironment, enableFromParts, hparts]
      · refine .inr ⟨hnone, ⟨(Request.environment env).level, format,
          (Request.environment env).file⟩, rfl, rfl, ?_⟩
        simp only [request, enableFromEnvironment, enableFromParts, hparts]
        rfl

@[simp] theorem subscriber_emit (s : Session σ) (e : Event) :
    (s.emit e).subscriber = s.subscriber := by
  unfold emit
  split
  · rfl
  · split <;> rfl

@[simp] theorem readFilter_emit (s : Session σ) (e : Event) :
    (s.emit e).readFilter = s.readFilter := by
  unfold emit
  split
  · rfl
  · split <;> rfl

theorem enable_of_installed (hs : s.subscriber.isSome) (config : LoggingConfig) :
    s.enable config = (.ok false, s) := by
  obtain ⟨subscriber, hs⟩ := Option.isSome_iff_exists.1 hs
  simp [enable, hs]

/-- Without a subscriber a request comes to its first fault, and nothing changes. -/
theorem request_of_fault (hs : s.subscriber = none) {r : Request} {fault : SetupFailure}
    (h : r.fault? s.readFilter s.store = some fault) : s.request r = (.error fault, s) := by
  unfold Request.fault? at h
  rcases request_cases s r with
    ⟨fault', hformat, hrequest⟩ | ⟨hformat, config, hlevel, hfile, hrequest⟩
  · rw [hformat] at h
    rw [hrequest, ← Option.some.inj h]
  · rw [hformat, ← hlevel, ← hfile] at h
    rcases s.prepare_cases config with ⟨fault', hfault, hprepare⟩ | ⟨hnone, _⟩
    · rw [Option.map_none, Option.none_or, hfault] at h
      rw [hrequest, ← Option.some.inj h]
      simp [enable, hs, hprepare]
    · rw [Option.map_none, Option.none_or, hnone] at h
      exact nomatch h

/-- Without a subscriber a request without a fault installs one. -/
theorem request_of_accepted (hs : s.subscriber = none) {r : Request}
    (h : r.fault? s.readFilter s.store = none) :
    (s.request r).1 = .ok true ∧
      (s.request r).2.subscriber.map Subscriber.file = some r.file := by
  unfold Request.fault? at h
  rcases request_cases s r with ⟨fault, hformat, _⟩ | ⟨hformat, config, hlevel, hfile, hrequest⟩
  · rw [hformat] at h
    exact nomatch h
  · rw [hformat, ← hlevel, ← hfile] at h
    rcases s.prepare_cases config with
      ⟨fault, hfault, _⟩ | ⟨_, subscriber, store, hprepare, hpath⟩
    · rw [Option.map_none, Option.none_or, hfault] at h
      exact nomatch h
    · rw [hrequest, ← hfile, ← hpath]
      simp [enable, hs, hprepare]

/-- Once a subscriber is there, only a bad format is still reported, and nothing
changes. -/
theorem request_of_installed (hs : s.subscriber.isSome) (r : Request) :
    s.request r = (r.lateOutcome, s) := by
  unfold Request.lateOutcome
  rcases request_cases s r with ⟨fault, hformat, hrequest⟩ | ⟨hformat, config, _, _, hrequest⟩
  · rw [hformat, hrequest]
  · rw [hformat, hrequest, enable_of_installed hs]

theorem readFilter_request (s : Session σ) (r : Request) :
    (s.request r).2.readFilter = s.readFilter := by
  rcases request_cases s r with ⟨fault, _, hrequest⟩ | ⟨_, config, _, _, hrequest⟩
  · rw [hrequest]
  · rw [hrequest]
    unfold enable
    split
    · rfl
    · split
      · rfl
      · simp

end Requests

end Session

/-! ## Sequences of calls -/

/-- A request, and the log files as they stand when it is made. -/
structure Call (σ : Type) where
  request : Request
  store : σ

namespace Call

variable [LogStore σ]

/-- The fault of the first stage that has one, for the files that the call meets. -/
def fault? (read : String → Except FilterError Filter) (c : Call σ) : Option SetupFailure :=
  c.request.fault? read c.store

end Call

namespace Session

variable [LogStore σ] {s : Session σ}

/-- What a call does: the files may have changed in any way before it. -/
def call (s : Session σ) (c : Call σ) : Except SetupFailure Bool × Session σ :=
  ({ s with store := c.store } : Session σ).request c.request

/-- The session that a sequence of calls leaves. -/
def after (s : Session σ) (calls : List (Call σ)) : Session σ :=
  calls.foldl (fun t c => (t.call c).2) s

/-- The outcome of each call of a sequence and the session that it leaves. -/
def history (s : Session σ) : List (Call σ) → List (Except SetupFailure Bool × Session σ)
  | [] => []
  | c :: rest => s.call c :: (s.call c).2.history rest

/-! ### One call -/

theorem call_of_fault (hs : s.subscriber = none) {c : Call σ} {fault : SetupFailure}
    (h : c.fault? s.readFilter = some fault) :
    s.call c = (.error fault, { s with store := c.store }) :=
  request_of_fault (s := { s with store := c.store }) hs h

theorem call_of_accepted (hs : s.subscriber = none) {c : Call σ}
    (h : c.fault? s.readFilter = none) :
    (s.call c).1 = .ok true ∧
      (s.call c).2.subscriber.map Subscriber.file = some c.request.file :=
  request_of_accepted (s := { s with store := c.store }) hs h

theorem call_of_installed (hs : s.subscriber.isSome) (c : Call σ) :
    s.call c = (c.request.lateOutcome, { s with store := c.store }) :=
  request_of_installed (s := { s with store := c.store }) hs c.request

theorem readFilter_call (s : Session σ) (c : Call σ) : (s.call c).2.readFilter = s.readFilter :=
  readFilter_request _ c.request

/-- After a call without a fault a subscriber is there, whether or not one was before. -/
theorem installed_call_of_accepted {c : Call σ} (h : c.fault? s.readFilter = none) :
    (s.call c).2.subscriber.isSome := by
  by_cases hs : s.subscriber.isSome
  · rw [call_of_installed hs]
    exact hs
  · have hinstalled := (call_of_accepted (Option.not_isSome_iff_eq_none.1 hs) h).2
    rw [← Option.isSome_map, hinstalled]
    rfl

/-- A call answers `true` only if it has no fault and no subscriber was there. -/
theorem call_eq_true {c : Call σ} (h : (s.call c).1 = .ok true) :
    s.subscriber = none ∧ c.fault? s.readFilter = none := by
  by_cases hs : s.subscriber.isSome
  · rw [call_of_installed hs] at h
    unfold Request.lateOutcome at h
    cases hformat : formatFault? c.request.formatName <;> simp [hformat] at h
  · have hnone : s.subscriber = none := Option.not_isSome_iff_eq_none.1 hs
    cases hfault : c.fault? s.readFilter with
    | none => exact ⟨hnone, rfl⟩
    | some fault =>
        rw [call_of_fault hnone hfault] at h
        exact nomatch h

/-! ### Many calls -/

/-- What a history shows of a call is what the call does after those before it. -/
theorem getElem?_history (before : List (Call σ)) (c : Call σ) (later : List (Call σ)) :
    (s.history (before ++ c :: later))[before.length]? = some ((s.after before).call c) := by
  induction before generalizing s with
  | nil => rfl
  | cons b rest ih => exact ih

/-- Refused calls leave nothing but the files that the last of them met. -/
theorem after_of_refused (hs : s.subscriber = none) {calls : List (Call σ)}
    (h : ∀ b ∈ calls, b.fault? s.readFilter ≠ none) :
    ∃ store, s.after calls = { s with store } := by
  induction calls generalizing s with
  | nil => exact ⟨s.store, rfl⟩
  | cons b rest ih =>
      obtain ⟨fault, hfault⟩ := Option.ne_none_iff_exists'.1 (h b List.mem_cons_self)
      have hcall := call_of_fault hs hfault
      have hrest : ∀ d ∈ rest, d.fault? (s.call b).2.readFilter ≠ none := by
        intro d hd
        rw [readFilter_call]
        exact h d (List.mem_cons_of_mem b hd)
      show ∃ store, (s.call b).2.after rest = { s with store }
      rw [hcall] at hrest ⊢
      exact ih (s := { s with store := b.store }) hs hrest

/-- A subscriber that is there stays. -/
theorem subscriber_after (hs : s.subscriber.isSome) (calls : List (Call σ)) :
    (s.after calls).subscriber = s.subscriber := by
  induction calls generalizing s with
  | nil => rfl
  | cons c rest ih =>
      show ((s.call c).2.after rest).subscriber = _
      rw [call_of_installed hs]
      exact ih (s := { s with store := c.store }) hs

/-- One call without a fault is enough for a subscriber to be there in the end. -/
theorem installed_after_of_accepted {calls : List (Call σ)}
    (h : ∃ b ∈ calls, b.fault? s.readFilter = none) : (s.after calls).subscriber.isSome := by
  obtain ⟨b, hb, haccepted⟩ := h
  induction calls generalizing s with
  | nil => exact absurd hb List.not_mem_nil
  | cons c rest ih =>
      show ((s.call c).2.after rest).subscriber.isSome
      rcases List.mem_cons.1 hb with rfl | hb
      · have hinstalled := installed_call_of_accepted haccepted
        rw [subscriber_after hinstalled]
        exact hinstalled
      · refine ih hb ?_
        rw [readFilter_call]
        exact haccepted

/-- Where a subscriber is there, no call of a sequence answers `true`. -/
theorem history_ne_true (hs : s.subscriber.isSome) (calls : List (Call σ)) :
    ∀ p ∈ s.history calls, p.1 ≠ .ok true := by
  induction calls generalizing s with
  | nil => simp [history]
  | cons c rest ih =>
      intro p hp
      rcases List.mem_cons.1 hp with rfl | hp
      · intro htrue
        rw [(call_eq_true htrue).1] at hs
        exact Bool.false_ne_true hs
      · rw [call_of_installed hs] at hp
        exact ih (s := { s with store := c.store }) hs p hp

/-- At most one call of a sequence answers `true`. -/
theorem pairwise_history (calls : List (Call σ)) :
    (s.history calls).Pairwise fun p q => ¬ (p.1 = .ok true ∧ q.1 = .ok true) := by
  induction calls generalizing s with
  | nil => exact .nil
  | cons c rest ih =>
      refine List.pairwise_cons.2 ⟨?_, ih⟩
      rintro q hq ⟨hc, htrue⟩
      have hinstalled := installed_call_of_accepted (call_eq_true hc).2
      exact history_ne_true hinstalled rest q hq htrue

/-- **Logging is installed at most once, and a failure can be repeated.** In a session
without a subscriber, whatever its filters are and wherever its files are kept, at most
one call of a sequence answers `true`. A call that comes after refused ones alone
returns its own first fault and leaves the session as it was, or it has no fault and
installs a subscriber. A call that comes after one without a fault changes nothing and
answers `false`, unless an environment names a bad format. -/
theorem installed_at_most_once (hs : s.subscriber = none) (calls : List (Call σ)) :
    ((s.history calls).Pairwise fun p q => ¬ (p.1 = .ok true ∧ q.1 = .ok true)) ∧
    ∀ before c later, calls = before ++ c :: later →
      ∃ outcome t, (s.history calls)[before.length]? = some (outcome, t) ∧
        ((∀ b ∈ before, b.fault? s.readFilter ≠ none) →
          (∀ fault, c.fault? s.readFilter = some fault →
            outcome = .error fault ∧ t = { s with store := c.store }) ∧
          (c.fault? s.readFilter = none → outcome = .ok true ∧
            t.subscriber.map Subscriber.file = some c.request.file)) ∧
        ((∃ b ∈ before, b.fault? s.readFilter = none) →
          outcome = c.request.lateOutcome ∧ t.subscriber.isSome ∧
            t = { s.after before with store := c.store }) := by
  refine ⟨pairwise_history calls, ?_⟩
  intro before c later hcalls
  refine ⟨((s.after before).call c).1, ((s.after before).call c).2, ?_, ?_, ?_⟩
  · rw [hcalls]
    exact getElem?_history before c later
  · intro hrefused
    obtain ⟨store, hafter⟩ := after_of_refused hs hrefused
    rw [hafter]
    constructor
    · intro fault hfault
      have hcall := call_of_fault (s := { s with store }) hs hfault
      rw [hcall]
      exact ⟨rfl, rfl⟩
    · intro haccepted
      exact call_of_accepted (s := { s with store }) hs haccepted
  · intro haccepted
    have hinstalled := installed_after_of_accepted haccepted
    rw [call_of_installed hinstalled]
    exact ⟨rfl, hinstalled, rfl⟩

/-- A directory with one regular file. -/
def withBlocker : Directory := ⟨[("blocker", {})]⟩

/-- A program that has just begun. -/
def fresh : Session Directory := { store := withBlocker }

/-- Calls that fail at the format, at the filter and at the file. -/
def refusedCalls : List (Call Directory) := [
  ⟨.environment fun name => if name = formatVariable then some "xml" else none, withBlocker⟩,
  ⟨.settings ⟨some "polymodel_core=loud", .pretty, some "run.log"⟩, withBlocker⟩,
  ⟨.settings ⟨some "debug", .pretty, some "blocker/run.log"⟩, withBlocker⟩]

/-- A call without a fault. -/
def acceptedCall : Call Directory :=
  ⟨.settings ⟨some "debug", .pretty, some "run.log"⟩, withBlocker⟩

/-- A call with settings that would have been refused. -/
def lateCall : Call Directory :=
  ⟨.settings ⟨some "polymodel_core=loud", .pretty, some "later.log"⟩, withBlocker⟩

/-- Three refused calls, one that is accepted, and one too many. -/
def fiveCalls : List (Call Directory) := refusedCalls ++ [acceptedCall, lateCall]

theorem installed_at_most_once_fiveCalls :
    fresh.subscriber = none ∧ (∀ b ∈ refusedCalls, b.fault? fresh.readFilter ≠ none) ∧
    acceptedCall.fault? fresh.readFilter = none ∧
    (fresh.history fiveCalls)[2]? =
      some (.error (.error (.logFile "Not a directory (os error 20)")), fresh) ∧
    (∃ t, (fresh.history fiveCalls)[3]? = some (.ok true, t) ∧
      t.subscriber.map Subscriber.file = some (some "run.log")) ∧
    ∃ t, (fresh.history fiveCalls)[4]? = some (.ok false, t) ∧ t.store = withBlocker := by
  have hrefused : ∀ b ∈ refusedCalls, b.fault? fresh.readFilter ≠ none := by decide +kernel
  have haccepted : acceptedCall.fault? fresh.readFilter = none := by decide +kernel
  have hfile : (refusedCalls[2]).fault? fresh.readFilter =
      some (.error (.logFile "Not a directory (os error 20)")) := by decide +kernel
  have hmain := (installed_at_most_once (s := fresh) rfl fiveCalls).2
  refine ⟨rfl, hrefused, haccepted, ?_, ?_, ?_⟩
  · obtain ⟨outcome, t, hget, hfirst, _⟩ :=
      hmain (refusedCalls.take 2) refusedCalls[2] [acceptedCall, lateCall] rfl
    have hbefore : ∀ b ∈ refusedCalls.take 2, b.fault? fresh.readFilter ≠ none := fun b hb =>
      hrefused b (List.mem_of_mem_take hb)
    obtain ⟨rfl, rfl⟩ := (hfirst hbefore).1 _ hfile
    exact hget
  · obtain ⟨outcome, t, hget, hfirst, _⟩ := hmain refusedCalls acceptedCall [lateCall] rfl
    obtain ⟨rfl, hsubscriber⟩ := (hfirst hrefused).2 haccepted
    exact ⟨t, hget, hsubscriber⟩
  · obtain ⟨outcome, t, hget, _, hlate⟩ := hmain (refusedCalls ++ [acceptedCall]) lateCall [] rfl
    obtain ⟨rfl, _, rfl⟩ := hlate ⟨acceptedCall, by simp, haccepted⟩
    exact ⟨_, hget, rfl⟩

end Session

end PolyRow.Logging
