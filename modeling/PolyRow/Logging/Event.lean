/-!
# Log events

What an operation reports about itself: how important the report is, which part
of the program it comes from, and named fields, the last of which is a message.
-/

namespace PolyRow.Logging

/-- How important an event is, from errors down to single steps. -/
inductive Level where
  | error
  | warn
  | info
  | debug
  | trace
deriving DecidableEq

namespace Level

/-- Verbosity: the least important level has the greatest number. -/
def verbosity : Level → Nat
  | .error => 1
  | .warn => 2
  | .info => 3
  | .debug => 4
  | .trace => 5

/-- The level in a record. -/
def word : Level → String
  | .error => "ERROR"
  | .warn => "WARN"
  | .info => "INFO"
  | .debug => "DEBUG"
  | .trace => "TRACE"

end Level

/-- The value of a field. -/
inductive FieldValue where
  | text (s : String)
  | count (n : Nat)
  | number (x : Float)
deriving DecidableEq

/-- A report of one operation. -/
structure Event where
  level : Level
  /-- The part of the program that reports. -/
  target : String
  /-- Named values in the order they were given; the message comes last. -/
  fields : List (String × FieldValue)
deriving DecidableEq

end PolyRow.Logging
