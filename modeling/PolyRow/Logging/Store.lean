import PolyRow.Logging.Event

/-!
# Log stores

Where log files live, as far as logging needs to know: a path can be opened for
appending, or there is a reason why not, and records can be appended to a path
that was opened.
-/

namespace PolyRow.Logging

/-- A place for log files. -/
class LogStore (σ : Type) where
  /-- The store once a path is open for appending, or the reason why it cannot
  be. -/
  openForAppend : σ → String → Except String σ
  /-- The store with a record appended to a path. -/
  append : σ → String → Event → σ

end PolyRow.Logging
