import PolyRow.Text.Cut

/-!
# Errors of logging

Why logging could not be set up.
-/

namespace PolyRow.Logging

/-- What is wrong with a filter. -/
inductive FilterError where
  /-- A piece is blank or starts with a character that no directive starts with. -/
  | invalidDirective
  /-- What follows the equals sign of a piece is no level. -/
  | invalidLevel
  /-- A piece would be cut inside a character. -/
  | insideCharacter (split : Text.SplitCharacter)
deriving DecidableEq

/-- The fault, in words. -/
def FilterError.text : FilterError → String
  | .invalidDirective => "invalid filter directive"
  | .invalidLevel =>
    "error parsing level filter: expected one of \"off\", \"error\", \"warn\", \"info\", "
      ++ "\"debug\", \"trace\", or a number 0-5"
  | .insideCharacter split => split.text

/-- The environment variable that names the format of records. -/
def formatVariable : String := "POLYMODEL_LOG_FORMAT"

/-- Causes of failure of setting up logging. -/
inductive LoggingError where
  /-- The filter cannot be read. -/
  | invalidFilter (detail : String)
  /-- No format has this name. -/
  | invalidFormat (value : String)
  /-- The log file cannot be opened; the cause is given in words. -/
  | logFile (cause : String)
  /-- The sink of events cannot be put in place. -/
  | init (detail : String)
deriving DecidableEq

namespace LoggingError

/-- The code by which programs recognise the cause. -/
def code : LoggingError → String
  | .invalidFilter _ => "LOGGING_INVALID_FILTER"
  | .invalidFormat _ => "LOGGING_INVALID_FORMAT"
  | .logFile _ => "LOGGING_FILE_ERROR"
  | .init _ => "LOGGING_INIT_FAILED"

/-- What happened, without the code. -/
def detail : LoggingError → String
  | .invalidFilter d => "Invalid log filter: " ++ d
  | .invalidFormat v =>
    "Invalid " ++ formatVariable ++ " '" ++ v ++ "' (expected 'json' or 'pretty')"
  | .logFile c => "Failed to open log file: " ++ c
  | .init d => "Failed to initialize logging: " ++ d

/-- The full text: the code in brackets, then what happened. -/
def message (e : LoggingError) : String := "[" ++ e.code ++ "] " ++ e.detail

/-- Whether another error lies behind this one: only a file brings its own. -/
def hasSource : LoggingError → Bool
  | .logFile _ => true
  | _ => false

end LoggingError

/-- How setting up logging fails. -/
inductive SetupFailure where
  /-- With an error that has a code. -/
  | error (cause : LoggingError)
  /-- Without one, where a filter would be cut inside a character. -/
  | stopped (split : Text.SplitCharacter)
deriving DecidableEq

/-- How setting up logging fails if the filter cannot be read. -/
def FilterError.failure : FilterError → SetupFailure
  | .insideCharacter split => .stopped split
  | fault => .error (.invalidFilter fault.text)

end PolyRow.Logging
