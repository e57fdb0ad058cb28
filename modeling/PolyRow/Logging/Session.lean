import PolyRow.Logging.Config
import PolyRow.Logging.Store

/-!
# Logging sessions

Setting up logging in a running program. A subscriber is installed at most once:
once it is there, asking again changes nothing and answers `false`. Until then an
attempt passes three stages, the filter, the log file and the installation, and
one that fails leaves no subscriber behind, so it can be repeated.

Events go to the error stream and to the log file, if there is one, as far as
the filter of the subscriber lets them.
-/

namespace PolyRow.Logging

/-- What receives events. -/
structure Subscriber where
  filter : Filter
  format : LogFormat
  /-- The path of the log file. -/
  file : Option String
deriving DecidableEq

/-- A running program as far as logging goes, with its log files in a store. -/
structure Session (σ : Type) where
  subscriber : Option Subscriber := none
  store : σ
  /-- Records on the error stream. -/
  stream : List Event := []
  /-- How the program reads filters. -/
  readFilter : String → Except FilterError Filter := Filter.ofText

namespace Session

variable {σ : Type} [LogStore σ]

/-- Passes one event on. -/
def emit (s : Session σ) (e : Event) : Session σ :=
  match s.subscriber with
  | none => s
  | some sub =>
    if sub.filter.lets e then
      { s with
        stream := s.stream ++ [e]
        store := match sub.file with
          | none => s.store
          | some path => LogStore.append s.store path e }
    else s

/-- Passes events on, one after another. -/
def emitAll (s : Session σ) (es : List Event) : Session σ := es.foldl emit s

/-- The event that a new subscriber receives first. -/
def enabledEvent (format : LogFormat) : Event where
  level := .debug
  target := "polymodel_tools::logging"
  fields := [
    ("component", .text "logging"),
    ("operation", .text "enable_logging"),
    ("status", .text "success"),
    ("format", .text format.word),
    ("message", .text "Logging initialized")]

/-- The store once the log file of some settings is open. -/
def openFile (s : Session σ) (config : LoggingConfig) : Except LoggingError σ :=
  match config.file with
  | none => .ok s.store
  | some path => (LogStore.openForAppend s.store path).mapError .logFile

/-- The subscriber and the store that an attempt ends with. -/
def prepare (s : Session σ) (config : LoggingConfig) :
    Except SetupFailure (Subscriber × σ) := do
  let filter ← config.filterWith s.readFilter
  let store ← (s.openFile config).mapError .error
  return ({ filter, format := config.format, file := config.file }, store)

/-- Tries to set up logging: whether it was set up now, or why it could not be. -/
def enable (s : Session σ) (config : LoggingConfig) : Except SetupFailure Bool × Session σ :=
  match s.subscriber with
  | some _ => (.ok false, s)
  | none =>
    match s.prepare config with
    | .error e => (.error e, s)
    | .ok (subscriber, store) =>
      (.ok true, { s with subscriber := some subscriber, store }.emit
        (enabledEvent config.format))

/-- Tries to set up logging from texts. They are put in order first, whether or
not a subscriber is there. -/
def enableFromParts (s : Session σ) (level format file : Option String) :
    Except SetupFailure Bool × Session σ :=
  match LoggingConfig.ofParts level format file with
  | .error e => (.error (.error e), s)
  | .ok config => s.enable config

/-- Tries to set up logging as the variables of an environment say. -/
def enableFromEnvironment (s : Session σ) (env : Environment) :
    Except SetupFailure Bool × Session σ :=
  s.enableFromParts (env levelVariable) (env formatVariable) (env fileVariable)

end Session

end PolyRow.Logging
