import GraphWalk.Batch.Pending
import GraphWalk.Event.Kind
import GraphWalk.Selection
import GraphWalk.State
import GraphWalk.Transport.Error

/-!
# Batching

Leaf requests are collected and sent together.  The first request that waits arms a
flush task; when the task wakes, everything that waits goes out as one batch, and
the batch is in flight until its answer comes.  A pass holds flushes back; taking
the batch over leaves the task with nothing to do; disposal makes every batch that
is in flight a stranger.

Everything here is one indivisible step of the batcher.  Which step comes next is
for others to say: a clock, a server, a caller.

## Main definitions

* `FlushTask`, `Flight` — a task that has not woken yet, a batch that awaits its answer.
* `Batcher` — what is pending, in flight and known, and the events not yet read.
* `Batcher.register`, `Batcher.fingerprint` — a request, and the arguments seen at a path.
* `Batcher.openPass`, `Batcher.closePass` — the ends of a pass.
* `Batcher.wake`, `Batcher.flushNow` — the two ways a batch is sent.
* `Batcher.complete`, `Batcher.abandon` — the two ways a flight ends.
* `Batcher.dispose` — teardown.
-/

namespace GraphWalk

/-- A flush task that has not woken yet. -/
structure FlushTask where
  /-- The batch it is to flush. -/
  batch : BatchId
  /-- When it wakes. -/
  due : Nat
  /-- It was called off, and ends without doing anything. -/
  aborted : Bool := false
  deriving DecidableEq, Repr, Inhabited

/-- A batch that awaits its answer. -/
structure Flight where
  /-- The number of the batch. -/
  batch : BatchId
  /-- The epoch in which it was sent. -/
  epoch : Nat
  /-- Its paths, in the order they were registered. -/
  paths : List Path
  /-- A flush task sent it, and ends with it. -/
  byTask : Bool
  /-- The task that sent it was called off, and its answer will reach nobody. -/
  aborted : Bool := false
  deriving Repr, Inhabited

/-- The keys of the paths of a flight. -/
def Flight.keys (f : Flight) : List String := f.paths.map Path.key

/-- What the transport is asked for. -/
def Flight.selection (f : Flight) : Json := Selection.ofPaths f.paths

/-- The state of batching. -/
structure Batcher where
  /-- How results are merged. -/
  merger : Merger := {}
  /-- How long a flush task sleeps. -/
  flushDelay : Nat := 0
  /-- How many events are kept for reading. -/
  eventCapacity : Nat := 1024
  /-- The time. -/
  now : Nat := 0
  /-- What waits. -/
  pending : PendingSet := {}
  /-- What is known. -/
  state : State := {}
  /-- How often there was a teardown. -/
  epoch : Nat := 0
  /-- The number of the next batch. -/
  nextBatch : BatchId := 0
  /-- The flush tasks that have not woken yet, in the order they were armed. -/
  tasks : List FlushTask := []
  /-- The batches that await their answers, in the order they were sent. -/
  flights : List Flight := []
  /-- The number of flush tasks that have not ended. -/
  outstanding : Nat := 0
  /-- The events not yet read. -/
  events : List (BatchId × EventKind) := []
  deriving Repr, Inhabited

namespace Batcher

/-- Report an event.  It is lost when too many are unread. -/
def emit (b : Batcher) (batch : BatchId) (kind : EventKind) : Batcher :=
  if b.events.length < b.eventCapacity then { b with events := b.events ++ [(batch, kind)] } else b

/-- Call the task of a batch off, whether it is asleep or awaits an answer. -/
def abort (b : Batcher) (batch : Option BatchId) : Batcher :=
  { b with
    tasks := b.tasks.map fun task =>
      if some task.batch = batch then { task with aborted := true } else task
    flights := b.flights.map fun flight =>
      if flight.byTask ∧ some flight.batch = batch then { flight with aborted := true }
      else flight }

/-- Arm the flush of a new batch. -/
def arm (b : Batcher) : Batcher :=
  let batch := b.nextBatch
  let (replaced, pending) := b.pending.schedule batch
  let b := b.abort replaced
  let task : FlushTask := { batch, due := b.now + b.flushDelay }
  let b := { b with
    pending
    nextBatch := batch + 1
    tasks := b.tasks ++ [task]
    outstanding := b.outstanding + 1 }
  b.emit batch .scheduled

/-- Ask for a path.  Nothing happens when one of the same key waits already; otherwise a flush is
armed unless one is scheduled or a pass is open. -/
def register (b : Batcher) (path : Path) : Bool × Batcher :=
  let (added, pending) := b.pending.insert path
  if !added then (false, b)
  else
    let b := { b with pending := pending.noteActivity b.now }
    (true, if b.pending.isScheduled || b.pending.inPass then b else b.arm)

/-- Record the arguments seen at a path.  When they changed, the waiting paths at or below it are
dropped and what is known there is evicted; the answer says whether they did. -/
def fingerprint (b : Batcher) (path : Path) (args : Dict Json) : Bool × Batcher :=
  let (changed, pending) := b.pending.fingerprint path.key (Json.text (.object args))
  if !changed then (false, { b with pending })
  else
    (true, { b with
      pending := (pending.discardUnder path.key).2
      state := b.state.evict path.fields b.merger.marker })

/-- Open a pass: no flush leaves until it is closed. -/
def openPass (b : Batcher) : Batcher := { b with pending := b.pending.openPass }

/-- Close a pass.  Closing the last one arms a flush if something waits and none is scheduled. -/
def closePass (b : Batcher) : Batcher :=
  let (last, pending) := b.pending.closePass
  let b := { b with pending }
  if last && !b.pending.isEmpty && !b.pending.isScheduled then b.arm else b

/-- Take everything that waits for a batch.  There is no flight when nothing waits. -/
def drain (b : Batcher) (batch : BatchId) (byTask : Bool) : Option Flight × Batcher :=
  let (paths, pending) := b.pending.takeBatch
  let b := { b with pending }
  if paths.isEmpty then (none, b)
  else
    let flight : Flight := { batch, epoch := b.epoch, paths, byTask }
    (some flight, { b with flights := b.flights ++ [flight] })

/-- A flush task is over. -/
def taskEnded (b : Batcher) : Batcher := { b with outstanding := b.outstanding - 1 }

/-- The flush task of a batch sleeps no longer. -/
def withoutTask (b : Batcher) (batch : BatchId) : Batcher :=
  { b with tasks := b.tasks.filter fun task => task.batch != batch }

/-- The flush task of a batch wakes.  It ends at once when it was called off, when its batch is no
longer the scheduled one, or when a pass is open, and in that case the flush is no longer
scheduled.  Otherwise it takes what waits, and lives on with the flight. -/
def wake (b : Batcher) (task : FlushTask) : Option Flight × Batcher :=
  let b := b.withoutTask task.batch
  if task.aborted || b.pending.scheduled != some task.batch then (none, b.taskEnded)
  else if b.pending.inPass then
    (none, { b with pending := b.pending.unschedule }.taskEnded)
  else
    match b.drain task.batch true with
    | (none, b) => (none, b.taskEnded)
    | (some flight, b) => (some flight, b)

/-- Send what waits without waiting for the task.  The batch keeps the number of the scheduled
flush, if there is one. -/
def flushNow (b : Batcher) : Option Flight × Batcher :=
  match b.pending.scheduled with
  | some batch => b.drain batch false
  | none => { b with nextBatch := b.nextBatch + 1 }.drain b.nextBatch false

/-- A flight is over, and with it the task that sent it. -/
def land (b : Batcher) (flight : Flight) : Batcher :=
  let b := { b with flights := b.flights.filter fun other => other.batch != flight.batch }
  if flight.byTask then b.taskEnded else b

/-- The task that sent a flight was called off. -/
def isAborted (b : Batcher) (flight : Flight) : Bool :=
  b.flights.any fun other => other.batch == flight.batch && other.aborted

/-- The answer to a flight comes.  It counts for nothing when the task that sent it was called off,
or after a teardown; otherwise a result is absorbed, and result or failure are reported.  The answer
says whether the state changed. -/
def complete (b : Batcher) (flight : Flight) (outcome : Outcome) :
    Except TransportError Bool × Batcher :=
  let aborted := b.isAborted flight
  let b := b.land flight
  if aborted then (.ok false, b)
  else match outcome with
  | .ok result =>
    if b.epoch != flight.epoch then (.ok false, b)
    else
      let (changed, state) := b.state.absorb b.merger result
      (.ok changed, { b with state }.emit flight.batch (.flushed flight.keys changed))
  | .error e =>
    if b.epoch != flight.epoch then (.error e, b)
    else (.error e, b.emit flight.batch (.failed flight.keys e.message))

/-- Nobody waits for the answer to a flight any more: its batch is lost, and not reported. -/
def abandon (b : Batcher) (flight : Flight) : Batcher := b.land flight

/-- Teardown: the scheduled flush is called off, waiting paths, fingerprints and the state are
forgotten, and the answers to batches in flight will count for nothing. -/
def dispose (b : Batcher) : Batcher :=
  let (scheduled, pending) := b.pending.clear
  let b := b.abort scheduled
  { b with pending, epoch := b.epoch + 1, state := b.state.reset }

/-- No flush task is left, neither asleep nor awaiting an answer. -/
def isSettled (b : Batcher) : Bool := b.outstanding == 0

/-! ### What each operation leaves behind -/

@[simp] theorem pending_emit (b : Batcher) (batch : BatchId) (kind : EventKind) :
    (b.emit batch kind).pending = b.pending := by
  unfold emit
  split <;> rfl

@[simp] theorem tasks_emit (b : Batcher) (batch : BatchId) (kind : EventKind) :
    (b.emit batch kind).tasks = b.tasks := by
  unfold emit
  split <;> rfl

@[simp] theorem flights_emit (b : Batcher) (batch : BatchId) (kind : EventKind) :
    (b.emit batch kind).flights = b.flights := by
  unfold emit
  split <;> rfl

@[simp] theorem nextBatch_emit (b : Batcher) (batch : BatchId) (kind : EventKind) :
    (b.emit batch kind).nextBatch = b.nextBatch := by
  unfold emit
  split <;> rfl

@[simp] theorem state_emit (b : Batcher) (batch : BatchId) (kind : EventKind) :
    (b.emit batch kind).state = b.state := by
  unfold emit
  split <;> rfl

@[simp] theorem pending_arm (b : Batcher) :
    b.arm.pending = (b.pending.schedule b.nextBatch).2 := pending_emit ..

@[simp] theorem tasks_arm (b : Batcher) :
    b.arm.tasks = (b.abort b.pending.scheduled).tasks
      ++ [{ batch := b.nextBatch, due := b.now + b.flushDelay }] := tasks_emit ..

@[simp] theorem flights_arm (b : Batcher) :
    b.arm.flights = (b.abort b.pending.scheduled).flights := flights_emit ..

@[simp] theorem nextBatch_arm (b : Batcher) : b.arm.nextBatch = b.nextBatch + 1 :=
  nextBatch_emit ..

@[simp] theorem state_arm (b : Batcher) : b.arm.state = b.state := state_emit ..

@[simp] theorem pending_drain (b : Batcher) (batch : BatchId) (byTask : Bool) :
    (b.drain batch byTask).2.pending = b.pending.takeBatch.2 := by
  simp only [drain]
  split <;> rfl

@[simp] theorem tasks_drain (b : Batcher) (batch : BatchId) (byTask : Bool) :
    (b.drain batch byTask).2.tasks = b.tasks := by
  simp only [drain]
  split <;> rfl

@[simp] theorem nextBatch_drain (b : Batcher) (batch : BatchId) (byTask : Bool) :
    (b.drain batch byTask).2.nextBatch = b.nextBatch := by
  simp only [drain]
  split <;> rfl

@[simp] theorem state_drain (b : Batcher) (batch : BatchId) (byTask : Bool) :
    (b.drain batch byTask).2.state = b.state := by
  simp only [drain]
  split <;> rfl

@[simp] theorem flights_drain (b : Batcher) (batch : BatchId) (byTask : Bool) :
    (b.drain batch byTask).2.flights = b.flights ++ (b.drain batch byTask).1.toList := by
  simp only [drain]
  split <;> simp

/-- A flush that is taken need not be scheduled any more. -/
theorem drain_unschedule (b : Batcher) (batch : BatchId) (byTask : Bool) :
    { b with pending := b.pending.unschedule }.drain batch byTask = b.drain batch byTask := rfl

/-- Everything that waits makes up the flight; there is none when nothing waits. -/
theorem fst_drain (b : Batcher) (batch : BatchId) (byTask : Bool) :
    (b.drain batch byTask).1
      = if b.pending.paths = [] then none
        else some { batch, epoch := b.epoch, paths := b.pending.paths, byTask } := by
  simp only [drain, PendingSet.fst_takeBatch, List.isEmpty_iff]
  split <;> rfl

/-! ### What a request, a flush and a task that wakes can come to -/

/-- A path of a key that waits already changes nothing.  Any other joins those that wait, and a
flush is armed unless one is scheduled or a pass is open. -/
theorem register_cases (b : Batcher) (path : Path) :
    ((b.pending.insert path).1 = false ∧ b.register path = (false, b)) ∨
    (b.pending.insert path).1 = true ∧
      ∃ b₁ : Batcher, b₁ = { b with pending := (b.pending.insert path).2.noteActivity b.now } ∧
        b.register path
          = (true, if b₁.pending.isScheduled || b₁.pending.inPass then b₁ else b₁.arm) := by
  simp only [register]
  cases h : (b.pending.insert path).1 with
  | false => exact .inl ⟨rfl, by simp⟩
  | true => exact .inr ⟨rfl, _, rfl, by simp⟩

/-- Whoever flushes takes the number of the scheduled flush, or else a new one. -/
theorem flushNow_cases (b : Batcher) :
    (∃ batch, b.pending.scheduled = some batch ∧ b.flushNow = b.drain batch false) ∨
    b.pending.scheduled = none ∧
      b.flushNow = { b with nextBatch := b.nextBatch + 1 }.drain b.nextBatch false := by
  unfold flushNow
  cases b.pending.scheduled with
  | none => exact .inr ⟨rfl, rfl⟩
  | some batch => exact .inl ⟨batch, rfl, rfl⟩

/-- An answer lets its flight land, and then at most changes the state and reports. -/
theorem complete_cases (b : Batcher) (flight : Flight) (outcome : Outcome) :
    ∃ state events, (b.complete flight outcome).2 = { b.land flight with state, events } := by
  have hemit : ∀ (b : Batcher) (batch : BatchId) (kind : EventKind),
      ∃ events, b.emit batch kind = { b with events } := by
    intro b batch kind
    unfold emit
    split
    · exact ⟨_, rfl⟩
    · exact ⟨b.events, rfl⟩
  have hland : ∃ state events, b.land flight = { b.land flight with state, events } :=
    ⟨_, _, rfl⟩
  unfold complete
  dsimp only
  split
  · exact hland
  · cases outcome with
    | ok result =>
      dsimp only
      split
      · exact hland
      · obtain ⟨events, he⟩ := hemit { b.land flight with
          state := ((b.land flight).state.absorb (b.land flight).merger result).2 } flight.batch
          (.flushed flight.keys ((b.land flight).state.absorb (b.land flight).merger result).1)
        exact ⟨_, events, he⟩
    | error e =>
      dsimp only
      split
      · exact hland
      · obtain ⟨events, he⟩ := hemit (b.land flight) flight.batch (.failed flight.keys e.message)
        exact ⟨_, events, he⟩

/-- A task that wakes ends at once, or gives its flush up to the open pass, or sends what waits. -/
theorem wake_cases (b : Batcher) (task : FlushTask) :
    ((task.aborted = true ∨ b.pending.scheduled ≠ some task.batch) ∧
      b.wake task = (none, (b.withoutTask task.batch).taskEnded)) ∨
    (b.pending.scheduled = some task.batch ∧ b.pending.inPass = true ∧
      b.wake task
        = (none, { b.withoutTask task.batch with pending := b.pending.unschedule }.taskEnded)) ∨
    task.aborted = false ∧ b.pending.scheduled = some task.batch ∧ b.pending.inPass = false ∧
      (b.wake task).1 = ((b.withoutTask task.batch).drain task.batch true).1 ∧
      ∃ outstanding, (b.wake task).2
        = { ((b.withoutTask task.batch).drain task.batch true).2 with outstanding } := by
  have hpending : (b.withoutTask task.batch).pending = b.pending := rfl
  simp only [wake, hpending]
  by_cases hends : (task.aborted || b.pending.scheduled != some task.batch) = true
  · rw [if_pos hends]
    simp only [Bool.or_eq_true, bne_iff_ne] at hends
    exact .inl ⟨hends, rfl⟩
  rw [if_neg hends]
  simp only [Bool.or_eq_true, bne_iff_ne, not_or, Bool.not_eq_true, Decidable.not_not] at hends
  cases hpass : b.pending.inPass with
  | true => exact .inr (.inl ⟨hends.2, rfl, rfl⟩)
  | false =>
    refine .inr (.inr ⟨hends.1, hends.2, rfl, ?_⟩)
    rcases hdrain : (b.withoutTask task.batch).drain task.batch true with ⟨_ | flight, b'⟩
    · exact ⟨rfl, b'.outstanding - 1, rfl⟩
    · exact ⟨rfl, b'.outstanding, rfl⟩

end Batcher

end GraphWalk
