import PolyRow.Logging.Filter

/-!
# Logging settings

What is logged, in which format and where. Settings are made from plain texts,
such as environment variables hold, and are put in order once, when they are
made: a level is trimmed, an empty level and the word `off` mean no logging, and
an empty file name means no file.
-/

namespace PolyRow.Logging

/-- The texts of environment variables by name. A variable that is not set, or whose
value is no text, has none. -/
abbrev Environment := String → Option String

/-- The environment variable that says what is logged. -/
def levelVariable : String := "POLYMODEL_TRACE"

/-- The environment variable that names the log file. -/
def fileVariable : String := "POLYMODEL_LOG_FILE"

/-- How records are written. -/
inductive LogFormat where
  | pretty
  | json
deriving DecidableEq

namespace LogFormat

/-- The name of the format, as settings give it. -/
def label : LogFormat → String
  | .pretty => "pretty"
  | .json => "json"

/-- The name of the format in records. -/
def word : LogFormat → String
  | .pretty => "Pretty"
  | .json => "Json"

instance : Inhabited LogFormat := ⟨.pretty⟩

/-- A format is read from its name in any case of letters; nothing around the
name is forgiven. -/
def ofText (s : String) : Except LoggingError LogFormat :=
  if Text.sameIgnoringCase s "pretty" then .ok .pretty
  else if Text.sameIgnoringCase s "json" then .ok .json
  else .error (.invalidFormat s)

end LogFormat

/-- Settings of logging. -/
structure LoggingConfig where
  /-- What to let through; nothing if unset. -/
  level : Option String
  format : LogFormat
  /-- Where records go besides the error stream. -/
  file : Option String
deriving DecidableEq

namespace LoggingConfig

/-- A level in order: trimmed, and unset if it says nothing or `off`. -/
def normalLevel (level : String) : Option String :=
  let trimmed := Text.trim level
  if trimmed.isEmpty || Text.sameIgnoringCase trimmed "off" then none else some trimmed

/-- A file name in order: unset if it is empty. -/
def normalFile (file : String) : Option String := if file.isEmpty then none else some file

/-- Settings from texts; only the format can be wrong. -/
def ofParts (level format file : Option String) : Except LoggingError LoggingConfig := do
  let format ← match format with
    | none => .ok default
    | some s => LogFormat.ofText s
  return { level := level.bind normalLevel, format, file := file.bind normalFile }

/-- The settings with another level, taken as it is. -/
def withLevel (config : LoggingConfig) (level : String) : LoggingConfig :=
  { config with level := some level }

/-- The filter that the level describes, as `read` reads it. -/
def filterWith (read : String → Except FilterError Filter) (config : LoggingConfig) :
    Except SetupFailure Filter :=
  match config.level with
  | none => .ok .off
  | some level => (read level).mapError FilterError.failure

/-- The filter that the level describes. -/
def filter (config : LoggingConfig) : Except SetupFailure Filter :=
  config.filterWith Filter.ofText

end LoggingConfig

end PolyRow.Logging
