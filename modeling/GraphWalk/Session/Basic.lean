import GraphWalk.Session.Chain

/-!
# Sessions

A session drives a client against a server that answers from a list, under a clock
that moves only when it is told to.  It decides nothing about batching: it picks
which of the batcher's steps comes next.

## Main definitions

* `Server` — the answers to come, and whether they have to be released.
* `Session` — a client, its server, and what a script holds on to.
* `Session.call` — a batch reaches the server.
* `Session.background` — everything that can happen while the clock stands still.
* `Session.waitUntil` — let the clock run until something has happened.
-/

namespace GraphWalk

/-- A server that answers from a list. -/
structure Server where
  /-- The answer to every batch, if it is always the same. -/
  fixed : Option Json := none
  /-- Answers from the list have to be released. -/
  gated : Bool := false
  /-- The number of released answers that nobody waits for. -/
  permits : Nat := 0
  /-- The answers to come; after the last one every answer is an empty object. -/
  outcomes : List Outcome := []
  /-- The batches that wait for a release, in the order they came. -/
  waiting : List Flight := []
  /-- The selections asked for and not yet reported. -/
  sent : List Json := []
  deriving Inhabited

/-- The next answer, and the server without it. -/
def Server.next (s : Server) : Outcome × Server :=
  match s.fixed, s.outcomes with
  | some v, _ => (.ok v, s)
  | none, outcome :: outcomes => (outcome, { s with outcomes })
  | none, [] => (.ok .empty, s)

/-- Answers have to be released: a server whose answer is always the same gives it at once. -/
def Server.isGated (s : Server) : Bool :=
  s.gated && s.fixed.isNone

/-- Note what was asked for. -/
def Server.record (s : Server) (selection : Json) : Server :=
  if s.fixed.isSome then s else { s with sent := s.sent ++ [selection] }

/-- What became of a flush that somebody waits for. -/
abbrev FlushResult := Except TransportError Bool

/-- A client, its server, and what a script holds on to. -/
structure Session where
  /-- The client. -/
  client : Client := {}
  /-- The server. -/
  server : Server := {}
  /-- What became of the flushes that ended, by their batches. -/
  results : List (BatchId × FlushResult) := []
  /-- Saved traversals. -/
  saved : Saved := []
  /-- Flushes begun and not yet joined: the batch, or the result where there was nothing to send. -/
  flushes : Dict (Except FlushResult BatchId) := []
  /-- Passes held open. -/
  passes : Dict Unit := []
  /-- The batches that were named in answers, in the order they first were. -/
  named : List BatchId := []
  /-- One who has watched the state from the start. -/
  watcher : Watcher := {}
  /-- The version that the latest view showed. -/
  shownVersion : Nat := 0
  deriving Inhabited

namespace Session

/-- How long is waited for something before it is given up, in milliseconds. -/
def patience : Nat := 3600000

/-- Let a step of the batcher happen. -/
def update (s : Session) (f : Batcher → Batcher) : Session :=
  { s with client := { s.client with batcher := f s.client.batcher } }

/-- The time. -/
def now (s : Session) : Nat := s.client.batcher.now

/-- Set the clock. -/
def setClock (s : Session) (time : Nat) : Session := s.update fun b => { b with now := time }

/-- The server answers a batch. -/
def deliver (s : Session) (flight : Flight) : FlushResult × Session :=
  let (outcome, server) := s.server.next
  let (result, batcher) := s.client.batcher.complete flight outcome
  (result, { s with
    server
    client := { s.client with batcher }
    results := (flight.batch, result) :: s.results })

/-- A batch reaches the server, which answers at once unless the answer has to be released. -/
def call (s : Session) (flight : Flight) : Session :=
  let server := s.server.record flight.selection
  if server.isGated && server.permits == 0 then
    { s with server := { server with waiting := server.waiting ++ [flight] } }
  else
    let server := if server.isGated then { server with permits := server.permits - 1 } else server
    (deliver { s with server } flight).2

/-- The released answers go to the batches that have waited longest. -/
def grant : List Flight → Session → Session
  | [], s => { s with server := { s.server with waiting := [] } }
  | flight :: waiting, s =>
    if s.server.permits = 0 then
      { s with server := { s.server with waiting := flight :: waiting } }
    else
      let server := { s.server with permits := s.server.permits - 1 }
      grant waiting (deliver { s with server } flight).2

/-- A flush task wakes, and its batch reaches the server. -/
def wake (s : Session) (task : FlushTask) : Session :=
  match s.client.batcher.wake task with
  | (none, batcher) => { s with client := { s.client with batcher } }
  | (some flight, batcher) => call { s with client := { s.client with batcher } } flight

/-- The flush tasks that wake by a given time, and those that were called off. -/
def dueTasks (s : Session) : List FlushTask :=
  s.client.batcher.tasks.filter fun task => task.aborted || task.due ≤ s.now

/-- Everything that can happen while the clock stands still: released answers arrive, then the
tasks that are due wake. -/
def background (s : Session) : Session :=
  let s := grant s.server.waiting s
  s.dueTasks.foldl wake s

/-- The times before a limit at which tasks wake, in order. -/
def wakeTimes (s : Session) (limit : Nat) : List Nat :=
  let times := (s.client.batcher.tasks.map (·.due)).filter fun time => s.now < time && time < limit
  times.mergeSort

/-- Move the clock from one time to the next until something has happened. -/
def runThrough (done : Session → Bool) : List Nat → Session → Session
  | [], s => s
  | time :: times, s => if done s then s else runThrough done times (s.setClock time).background

/-- Let the clock run until something has happened; the answer is no when patience runs out
first. -/
def waitUntil (s : Session) (done : Session → Bool) : Bool × Session :=
  if done s then (true, s)
  else
    let limit := s.now + patience
    let s := s.background
    let s := runThrough done (s.wakeTimes limit) s
    if done s then (true, s) else (false, s.setClock limit)

/-- What became of the flush of a batch, if it ended. -/
def result? (s : Session) (batch : BatchId) : Option FlushResult :=
  (s.results.find? fun result => result.1 == batch).map Prod.snd

/-- A flush begins: what waits is taken, and reaches the server at once.  The answer is the batch,
or the result when there is nothing to send. -/
def beginFlush (s : Session) : Except FlushResult Flight × Session :=
  match s.client.batcher.flushNow with
  | (none, batcher) => (.error (.ok false), { s with client := { s.client with batcher } })
  | (some flight, batcher) =>
    (.ok flight, call { s with client := { s.client with batcher } } flight)

/-- Nobody waits for the answer to a batch any more. -/
def abandon (s : Session) (flight : Flight) : Session :=
  let waiting := s.server.waiting.filter fun other => other.batch != flight.batch
  { s with server := { s.server with waiting } }.update fun b => b.abandon flight

end Session

end GraphWalk
