import PolyRow.Logging.Error
import PolyRow.Logging.Event
import PolyRow.Text.Alphanumeric
import PolyRow.Text.Blank

/-!
# Log filters

A filter is a list of directives, each of which gives the most verbose level let
through for the targets that start with a given text, or for all targets. The
directive with the longest such text decides about an event, and of several with
the same text the last one.

A filter is written as directives separated by commas. A directive is a level, a
target, or both around an equals sign; a target without a level lets everything
through. Blanks are not set aside: one next to a comma is part of the target or
the level there. Blanks in front of a target that has a level move the place where
the two are cut apart, and reading fails where that place is inside a character.
-/

namespace PolyRow.Logging

/-- The most verbose level let through; `none` lets nothing through. -/
abbrev Threshold := Option Level

/-- The threshold that a name or a number from zero to five stands for. -/
def Threshold.ofRank? : Nat → Option Threshold
  | 0 => some none
  | 1 => some (some .error)
  | 2 => some (some .warn)
  | 3 => some (some .info)
  | 4 => some (some .debug)
  | 5 => some (some .trace)
  | _ => none

/-- The names of the thresholds, from nothing to everything. -/
def Threshold.names : List String := ["off", "error", "warn", "info", "debug", "trace"]

/-- The number that a text of digits stands for. A plus sign may come first. -/
def readUnsigned? (s : String) : Option Nat :=
  let digits := match s.toList with
    | '+' :: rest => rest
    | cs => cs
  if !digits.isEmpty && digits.all Char.isDigit then
    some (digits.foldl (fun n d => 10 * n + (d.toNat - 48)) 0)
  else none

/-- A level is read from its name, in any case of letters, or from its number. -/
def Threshold.ofText? (s : String) : Option Threshold :=
  match readUnsigned? s with
  | some n => Threshold.ofRank? n
  | none => (Threshold.names.findIdx? (Text.sameIgnoringCase s)).bind Threshold.ofRank?

/-- The most verbose level let through for some targets. -/
structure Directive where
  /-- The text that targets start with; `none` is about all targets. -/
  target : Option String
  threshold : Threshold
deriving DecidableEq

namespace Directive

/-- Whether a directive can start with this character. -/
def startsWith (c : Char) : Bool := Text.isAlphanumeric c || c == '-' || c == ':' || c == '_'

/-- Reads the text behind an equals sign: nothing there lets everything through. -/
def levelOfText? (level : List Char) : Option Threshold :=
  if level.isEmpty then some (some .trace) else Threshold.ofText? (String.ofList level)

/-- Reads a piece of which `trimmed`, which is without the blanks around it, has an
equals sign. The place of the sign is counted in `trimmed`, but the piece is cut at
that place with its blanks. So behind blanks the sign is part of the level. -/
def ofTargetAndLevel (piece trimmed : List Char) : Except FilterError Directive := do
  let place := Text.byteLength (trimmed.takeWhile (· != '='))
  let target ← (Text.before place piece).mapError .insideCharacter
  let level ← (Text.fromPlace (place + 1) piece).mapError .insideCharacter
  match levelOfText? level with
  | some threshold => return ⟨some (String.ofList target), threshold⟩
  | none => .error .invalidLevel

/-- Reads one piece of a filter. Blanks in front are passed over only in the look
at its first character; otherwise blanks belong to the target or level that they
stand at, so that a level with blanks around it is a target. -/
def ofText (piece : String) : Except FilterError Directive :=
  let cs := piece.toList
  let trimmed := Text.trimChars cs
  match trimmed with
  | [] => .error .invalidDirective
  | first :: _ =>
    if !startsWith first then .error .invalidDirective
    else if trimmed.contains '=' then ofTargetAndLevel cs trimmed
    else match Threshold.ofText? piece with
      | some threshold => .ok ⟨none, threshold⟩
      | none => .ok ⟨some piece, some .trace⟩

example : (ofText "x=debug").toOption = some ⟨some "x", some .debug⟩ := by decide +kernel

example : (ofText " debug").toOption = some ⟨some " debug", some .trace⟩ := by decide +kernel

example : (ofText " x=debug").toOption = none := by decide +kernel

example : (ofText "x=debug ").toOption = none := by decide +kernel

example : (ofText " é=info").toOption = none := by decide +kernel

/-- Whether the directive is about events of this target. -/
def appliesTo (d : Directive) (target : String) : Bool :=
  match d.target with
  | none => true
  | some start => target.startsWith start

/-- How specific the directive is: all targets least, then by the length of the
text in bytes. -/
def specificity (d : Directive) : Nat :=
  match d.target with
  | none => 0
  | some start => start.utf8ByteSize + 1

end Directive

/-- Directives in the order they were given. -/
structure Filter where
  directives : List Directive
deriving DecidableEq

namespace Filter

/-- Lets nothing through. -/
def off : Filter := ⟨[⟨none, none⟩]⟩

/-- Pieces between commas, but for empty ones. -/
def pieces (s : String) : List String :=
  (Text.splitAt ',' s).filter fun piece => !piece.isEmpty

/-- Reads a filter; the first bad piece is the error. Without any piece, errors
are let through for all targets. -/
def ofText (s : String) : Except FilterError Filter :=
  match pieces s with
  | [] => .ok ⟨[⟨none, some .error⟩]⟩
  | ps => (ps.mapM Directive.ofText).map Filter.mk

/-- The directive that decides about a target. -/
def deciding? (f : Filter) (target : String) : Option Directive :=
  (f.directives.filter (·.appliesTo target)).foldl (fun best d =>
    match best with
    | none => some d
    | some b => if b.specificity ≤ d.specificity then some d else some b) none

/-- Whether an event is let through. -/
def lets (f : Filter) (e : Event) : Bool :=
  match (f.deciding? e.target).bind Directive.threshold with
  | none => false
  | some level => decide (e.level.verbosity ≤ level.verbosity)

end Filter

end PolyRow.Logging
