import PolyRow.Logging.Store
import PolyRow.Text.Cut

/-!
# Log directory

A directory of regular files, in which log files are opened and records are
appended to them. It holds no directories of its own, so a path leads to one of
its files, to the directory itself, or out of it; what lies outside is open to
writing and is not kept track of.
-/

namespace PolyRow.Logging

/-- Why a file cannot be opened for appending. -/
inductive PathError where
  | notFound
  | notADirectory
  | isADirectory
  | nameTooLong
  /-- The path holds a null character. -/
  | nullInPath
deriving DecidableEq

/-- The fault, in the words of the system. -/
def PathError.text : PathError → String
  | .notFound => "No such file or directory (os error 2)"
  | .notADirectory => "Not a directory (os error 20)"
  | .isADirectory => "Is a directory (os error 21)"
  | .nameTooLong => "File name too long (os error 36)"
  | .nullInPath => "file name contained an unexpected NUL byte"

/-- A regular file: what it held before, and the records appended since. -/
structure LogFile where
  earlier : String := ""
  records : List Event := []
deriving DecidableEq

/-- Files by name, in the order they came to be. -/
structure Directory where
  files : List (String × LogFile)
deriving DecidableEq

namespace Directory

/-- Whether there is a file of this name. -/
def holds (d : Directory) (name : String) : Bool := d.files.any (·.1 == name)

/-- The file that the rest of a path leads to, `depth` levels above the
directory; `none` is a file outside of it. -/
def follow (d : Directory) (depth : Nat) : List String → Except PathError (Option String)
  | [] => .error .isADirectory
  | [name] =>
    if name == "" || name == "." || name == ".." then .error .isADirectory
    else if 255 < name.utf8ByteSize then .error .nameTooLong
    else .ok (if depth = 0 then some name else none)
  | name :: rest =>
    if name == "" || name == "." then d.follow depth rest
    else if name == ".." then d.follow (depth + 1) rest
    else if rest.all (· == "") then .error .isADirectory
    else if 255 < name.utf8ByteSize then .error .nameTooLong
    else if depth = 0 && d.holds name then .error .notADirectory
    else .error .notFound

/-- The file that a path leads to. -/
def locate (d : Directory) (path : String) : Except PathError (Option String) :=
  if path.toList.contains '\x00' then .error .nullInPath
  else if 4096 ≤ path.utf8ByteSize then .error .nameTooLong
  else d.follow 0 (Text.splitAt '/' path)

/-- Opens a file for appending; one that is missing is made. -/
def openForAppend (d : Directory) (path : String) : Except PathError Directory := do
  match ← d.locate path with
  | none => return d
  | some name => return if d.holds name then d else ⟨d.files ++ [(name, ⟨"", []⟩)]⟩

/-- Appends a record to the file that a path leads to. -/
def append (d : Directory) (path : String) (e : Event) : Directory :=
  match d.locate path with
  | .ok (some name) =>
    ⟨d.files.map fun (n, f) =>
      if n == name then (n, { f with records := f.records ++ [e] }) else (n, f)⟩
  | _ => d

instance : LogStore Directory where
  openForAppend d path := (d.openForAppend path).mapError PathError.text
  append := append

end Directory

end PolyRow.Logging
