import GraphWalk.Session.Basic

/-!
# Scripts

A script is a list of commands to a session.  Every command is answered by a reply,
and by a view of the client afterwards if the client is looked at.

## Main definitions

* `Command`, `Reply` — what a session is told, and what it replies.
* `Session.run` — one command.
* `View` — what can be seen of a client.
* `Entry` — a reply, and a view of the client.
* `Session.runAll` — the entries of a script.
-/

namespace GraphWalk

/-- What a session is told. -/
inductive Command
  /-- Follow a chain from the root, or from a saved traversal. -/
  | query (chain : Chain) (source : Option String)
  /-- Let everything happen that can while the clock stands still. -/
  | tick
  /-- Move the clock by some milliseconds. -/
  | advance (milliseconds : Nat)
  /-- Wait until no flush task is left. -/
  | settled
  /-- Flush, and wait for the result. -/
  | flushNow
  /-- Begin a flush. -/
  | flushStart (slot : String)
  /-- Wait for a flush that was begun. -/
  | flushJoin (slot : String)
  /-- Give the server more answers. -/
  | respond (outcomes : List Outcome)
  /-- Release answers. -/
  | release (count : Nat)
  /-- Open a pass. -/
  | openPass (slot : String)
  /-- Close a pass. -/
  | closePass (slot : String)
  /-- Tear the client down. -/
  | dispose
  /-- Tell the state. -/
  | state
  /-- Tell the types of the schema. -/
  | schema
  /-- Tell the events not yet read. -/
  | events
  /-- Tell whether those who watch the state were woken since the last look. -/
  | changed
  deriving Inhabited

/-- What a session replies. -/
inductive Reply
  /-- Nothing. -/
  | done
  /-- What a chain comes to. -/
  | answer (answer : Answer)
  /-- Yes or no. -/
  | truth (value : Bool)
  /-- What became of a flush. -/
  | flush (result : FlushResult)
  /-- Patience ran out. -/
  | stuck
  /-- A value. -/
  | value (value : Json)
  /-- The types of the schema, if there is one. -/
  | types (names : Option (List String))
  /-- Events, each with the number of its batch among those named so far. -/
  | events (events : List (Nat × EventKind))
  deriving Inhabited

namespace Session

/-- Keep saved traversals. -/
def keep (s : Session) (saved : Saved) : Session := { s with saved := s.saved ++ saved }

/-- The latest traversal saved under a name. -/
def saved? (s : Session) (name : String) : Option Traversal :=
  (s.saved.reverse.find? fun entry => entry.1 == name).map Prod.snd

/-- Where a chain starts: at a saved traversal, or at the root. -/
def start (s : Session) (source : Option String) : Traversal :=
  (source.bind s.saved?).getD s.client.query

/-- The number of a batch among those named so far, and those named afterwards. -/
def numberOf (named : List BatchId) (batch : BatchId) : Nat × List BatchId :=
  match named.idxOf? batch with
  | some n => (n, named)
  | none => (named.length, named ++ [batch])

/-- Events with the numbers of their batches, and the batches named afterwards. -/
def numbered : List BatchId → List (BatchId × EventKind) → List (Nat × EventKind) × List BatchId
  | named, [] => ([], named)
  | named, (batch, kind) :: events =>
    let (n, named) := numberOf named batch
    let (events, named) := numbered named events
    ((n, kind) :: events, named)

/-- Wait for the flush of a batch. -/
def awaitFlush (s : Session) (batch : BatchId) : Option FlushResult × Session :=
  let (_, s) := s.waitUntil fun s => (s.result? batch).isSome
  (s.result? batch, s)

/-- Flush, and wait for the result.  When patience runs out the batch is lost. -/
def flushNow (s : Session) : Reply × Session :=
  match s.beginFlush with
  | (.error result, s) => (.flush result, s)
  | (.ok flight, s) =>
    match s.awaitFlush flight.batch with
    | (some result, s) => (.flush result, s)
    | (none, s) => (.stuck, s.abandon flight)

/-- Begin a flush in a slot. -/
def flushStart (s : Session) (slot : String) : Session :=
  let (begun, s) := s.beginFlush
  { s with flushes := Dict.insert s.flushes slot (begun.map Flight.batch) }.background

/-- Wait for the flush in a slot. -/
def flushJoin (s : Session) (slot : String) : Reply × Session :=
  match Dict.get? s.flushes slot with
  | none => (.done, s)
  | some (.error result) => (.flush result, s)
  | some (.ok batch) =>
    match s.awaitFlush batch with
    | (some result, s) => (.flush result, s)
    | (none, s) => (.stuck, s)

/-- Open a pass in a slot.  A pass that was held there is closed once the new one is open. -/
def openPass (s : Session) (slot : String) : Session :=
  let held := Dict.contains s.passes slot
  let s := { s with passes := Dict.insert s.passes slot () }.update Batcher.openPass
  if held then s.update Batcher.closePass else s

/-- Close the pass in a slot. -/
def closePass (s : Session) (slot : String) : Session :=
  if Dict.contains s.passes slot then
    { s with passes := Dict.erase s.passes slot }.update Batcher.closePass
  else s

/-- One command. -/
def run (s : Session) : Command → Reply × Session
  | .query chain source =>
    let ((answer, saved), client) := chain.eval (s.start source) s.client
    (.answer answer, { s with client }.keep saved)
  | .tick => (.done, s.background)
  | .advance milliseconds =>
    let s := s.background
    (.done, (s.setClock (s.now + milliseconds)).background)
  | .settled =>
    let (settled, s) := s.waitUntil fun s => s.client.batcher.isSettled
    (.truth settled, s)
  | .flushNow => s.flushNow
  | .flushStart slot => (.done, s.flushStart slot)
  | .flushJoin slot => s.flushJoin slot
  | .respond outcomes =>
    (.done, { s with server := { s.server with outcomes := s.server.outcomes ++ outcomes } })
  | .release count =>
    (.done, { s with server := { s.server with permits := s.server.permits + count } }.background)
  | .openPass slot => (.done, s.openPass slot)
  | .closePass slot => (.done, s.closePass slot)
  | .dispose => (.done, { s with client := s.client.dispose })
  | .state => (.value s.client.state.value, s)
  | .schema => (.types (s.client.schema.map Schema.typeNames), s)
  | .events =>
    let (events, named) := numbered s.named s.client.batcher.events
    (.events events, { s with named }.update fun b => { b with events := [] })
  | .changed =>
    let state := s.client.state
    (.truth (s.watcher.hasChanged state), { s with watcher := state.subscribe })

end Session

/-- What can be seen of a client. -/
structure View where
  /-- The paths that wait. -/
  pending : List Path
  /-- A flush is scheduled. -/
  scheduled : Bool
  /-- The version of the state. -/
  version : Nat
  /-- The state, if it was written since the previous view. -/
  state : Option Json
  /-- What the server was asked for since the previous view. -/
  sent : List Json
  deriving Inhabited

/-- A reply, and what could be seen after it if the client was looked at. -/
structure Entry where
  /-- The reply. -/
  reply : Reply
  /-- The view of the client. -/
  view : Option View
  deriving Inhabited

namespace Session

/-- Look at the client. -/
def look (s : Session) : View × Session :=
  let state := s.client.state
  ({ pending := s.client.pendingPaths
     scheduled := s.client.batcher.pending.isScheduled
     version := state.version
     state := if state.version == s.shownVersion then none else some state.value
     sent := s.server.sent },
    { s with shownVersion := state.version, server := { s.server with sent := [] } })

/-- One command, its entry, and the session afterwards.  The client is looked at if the command is
one of those that ask for it. -/
def entry (looks : Command → Bool) (s : Session) (command : Command) : Entry × Session :=
  let (reply, s) := s.run command
  if looks command then
    let (view, s) := s.look
    (⟨reply, some view⟩, s)
  else (⟨reply, none⟩, s)

/-- The entries of a script. -/
def runAll (looks : Command → Bool) : Session → List Command → List Entry
  | _, [] => []
  | s, command :: commands =>
    let (entry, s) := s.entry looks command
    entry :: runAll looks s commands

@[simp] theorem runAll_nil (looks : Command → Bool) (s : Session) : s.runAll looks [] = [] := rfl

/-- Every command has an entry. -/
@[simp] theorem length_runAll (looks : Command → Bool) (s : Session) (commands : List Command) :
    (s.runAll looks commands).length = commands.length := by
  induction commands generalizing s with
  | nil => rfl
  | cons command commands ih => simp [runAll, ih]

end Session

end GraphWalk
