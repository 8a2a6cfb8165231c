/-!
# What events report

A batch is reported when it is scheduled, and once more when it was answered or
failed.

## Main definitions

* `EventKind` — the reports.
-/

namespace GraphWalk

/-- What an event reports of a batch. -/
inductive EventKind
  /-- A flush was scheduled. -/
  | scheduled
  /-- The batch was answered: the keys of its paths, and whether the state changed. -/
  | flushed (paths : List String) (changed : Bool)
  /-- The batch failed: the keys of its paths, and the text of the failure. -/
  | failed (paths : List String) (error : String)
  deriving DecidableEq, Repr, Inhabited

end GraphWalk
