import GraphWalk.Path

/-!
# Pending requests

The paths that wait for the next flush, the arguments last seen at every path, the
flush that is scheduled, and the traversal passes that are open.

## Main definitions

* `BatchId` — the number of a batch.
* `PendingSet` — what waits.
* `PendingSet.insert` — a path joins unless one of the same key waits already.
* `PendingSet.fingerprint` — the arguments seen at a key, and whether they changed.
* `PendingSet.discardUnder` — the paths at or below a key leave.
* `PendingSet.takeBatch`, `PendingSet.clear` — everything leaves, for a flush or for good.
-/

namespace GraphWalk

/-- The number of a batch. -/
abbrev BatchId := Nat

/-- What waits for the next flush. -/
structure PendingSet where
  /-- The waiting paths, in the order they came. -/
  paths : List Path := []
  /-- The keys of the waiting paths. -/
  keys : List String := []
  /-- The text of the arguments last seen under each key. -/
  fingerprints : Dict String := []
  /-- The batch whose flush is scheduled. -/
  scheduled : Option BatchId := none
  /-- When a path last joined. -/
  lastActivity : Option Nat := none
  /-- The number of open passes. -/
  openPasses : Nat := 0
  deriving Inhabited, Repr

namespace PendingSet

/-- Add a path, unless one of the same key waits already; the answer says whether it was added. -/
def insert (s : PendingSet) (path : Path) : Bool × PendingSet :=
  if s.keys.contains path.key then (false, s)
  else (true, { s with paths := s.paths ++ [path], keys := s.keys ++ [path.key] })

/-- Record the arguments seen under a key.  The answer is yes when others were seen before. -/
def fingerprint (s : PendingSet) (key args : String) : Bool × PendingSet :=
  ((Dict.get? s.fingerprints key).any (· != args),
    { s with fingerprints := Dict.insert s.fingerprints key args })

/-- The arguments last seen under a key. -/
def fingerprintOf? (s : PendingSet) (key : String) : Option String :=
  Dict.get? s.fingerprints key

/-- Drop the paths at or below a key; the answer says how many there were. -/
def discardUnder (s : PendingSet) (key : String) : Nat × PendingSet :=
  let paths := s.paths.filter fun path => !Path.isAtOrBelow path.key key
  let keys := s.keys.filter fun pending => !Path.isAtOrBelow pending key
  (s.paths.length - paths.length, { s with paths, keys })

/-- Schedule the flush of a batch.  The answer is the batch whose flush it replaces, which is to be
aborted. -/
def schedule (s : PendingSet) (batch : BatchId) : Option BatchId × PendingSet :=
  (s.scheduled, { s with scheduled := some batch })

/-- A flush is scheduled. -/
def isScheduled (s : PendingSet) : Bool := s.scheduled.isSome

/-- Forget the scheduled flush without aborting it. -/
def unschedule (s : PendingSet) : PendingSet := { s with scheduled := none }

/-- Note that a path joined at the given time. -/
def noteActivity (s : PendingSet) (time : Nat) : PendingSet := { s with lastActivity := some time }

/-- Open a pass. -/
def openPass (s : PendingSet) : PendingSet := { s with openPasses := s.openPasses + 1 }

/-- Close a pass; the answer says whether none is open any more. -/
def closePass (s : PendingSet) : Bool × PendingSet :=
  (s.openPasses - 1 == 0, { s with openPasses := s.openPasses - 1 })

/-- Some pass is open. -/
def inPass (s : PendingSet) : Bool := 0 < s.openPasses

/-- Take all paths for a flush.  The scheduled flush is forgotten, not aborted: it may be the one
that takes them. -/
def takeBatch (s : PendingSet) : List Path × PendingSet :=
  (s.paths, { s with paths := [], keys := [], scheduled := none })

/-- Forget paths, fingerprints and the scheduled flush, which is the answer and is to be aborted.
Open passes stay open. -/
def clear (s : PendingSet) : Option BatchId × PendingSet :=
  (s.scheduled, { s with paths := [], keys := [], fingerprints := [], scheduled := none })

/-- No path waits. -/
def isEmpty (s : PendingSet) : Bool := s.paths.isEmpty

/-- The number of waiting paths. -/
def size (s : PendingSet) : Nat := s.paths.length

/-! ### What each operation leaves behind -/

theorem isScheduled_eq_false_iff {s : PendingSet} : s.isScheduled = false ↔ s.scheduled = none := by
  rw [isScheduled, Option.isSome_eq_false_iff, Option.isNone_iff_eq_none]

theorem paths_insert (s : PendingSet) (path : Path) :
    (s.insert path).2.paths = if (s.insert path).1 then s.paths ++ [path] else s.paths := by
  unfold insert
  split <;> rfl

@[simp] theorem scheduled_insert (s : PendingSet) (path : Path) :
    (s.insert path).2.scheduled = s.scheduled := by
  unfold insert
  split <;> rfl

@[simp] theorem openPasses_insert (s : PendingSet) (path : Path) :
    (s.insert path).2.openPasses = s.openPasses := by
  unfold insert
  split <;> rfl

@[simp] theorem paths_fingerprint (s : PendingSet) (key args : String) :
    (s.fingerprint key args).2.paths = s.paths := rfl

@[simp] theorem paths_discardUnder (s : PendingSet) (key : String) :
    (s.discardUnder key).2.paths
      = s.paths.filter fun path => !Path.isAtOrBelow path.key key := rfl

@[simp] theorem paths_schedule (s : PendingSet) (batch : BatchId) :
    (s.schedule batch).2.paths = s.paths := rfl

@[simp] theorem paths_takeBatch (s : PendingSet) : s.takeBatch.2.paths = [] := rfl

@[simp] theorem fst_takeBatch (s : PendingSet) : s.takeBatch.1 = s.paths := rfl

@[simp] theorem paths_clear (s : PendingSet) : s.clear.2.paths = [] := rfl

@[simp] theorem scheduled_schedule (s : PendingSet) (batch : BatchId) :
    (s.schedule batch).2.scheduled = some batch := rfl

@[simp] theorem scheduled_takeBatch (s : PendingSet) : s.takeBatch.2.scheduled = none := rfl

@[simp] theorem scheduled_clear (s : PendingSet) : s.clear.2.scheduled = none := rfl

@[simp] theorem openPasses_clear (s : PendingSet) : s.clear.2.openPasses = s.openPasses := rfl

@[simp] theorem fingerprints_takeBatch (s : PendingSet) :
    s.takeBatch.2.fingerprints = s.fingerprints := rfl

end PendingSet

end GraphWalk
