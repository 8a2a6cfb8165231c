import GraphWalk.Batch.Batcher

/-!
# Runs of a batcher

A batcher does one thing at a time, and what it does next is decided elsewhere: by
the callers, by the clock, by the server.  A run is any sequence of these steps from a
batcher to which nothing has happened.  It is recorded as a history, the latest
happening first, in which every step stands with what came of it.

## Main definitions

* `Happening` — a step and what came of it.
* `Batcher.Step` — the steps that are possible, with the passes that are held open.
* `Batcher.Run` — the histories of a batcher and where they lead.
* `History.guards`, `History.calls`, `History.accepted` — the passes held open, the calls
  of the transport, and the requests that were taken on.
-/

namespace GraphWalk

/-- Something that happened to a batcher, and what came of it. -/
inductive Happening
  /-- A path was asked for; the answer says whether it joined those that wait. -/
  | register (path : Path) (added : Bool)
  /-- Arguments were seen at a path; the answer says whether they changed. -/
  | fingerprint (path : Path) (args : Dict Json) (changed : Bool)
  /-- A pass was opened. -/
  | openPass
  /-- A pass was closed. -/
  | closePass
  /-- A flush task woke, and called the transport if there is a flight. -/
  | wake (task : FlushTask) (call : Option Flight)
  /-- Somebody flushed, and called the transport if there is a flight. -/
  | flushNow (call : Option Flight)
  /-- The answer to a flight came. -/
  | complete (flight : Flight) (outcome : Outcome) (result : Except TransportError Bool)
  /-- Somebody who had flushed waits for the answer no longer. -/
  | abandon (flight : Flight)
  /-- Teardown. -/
  | dispose
  /-- The clock was set. -/
  | setClock (time : Nat)
  /-- The events were read. -/
  | readEvents (events : List (BatchId × EventKind))

/-- What happened to a batcher, the latest first. -/
abbrev History := List Happening

namespace Happening

/-- The call of the transport that was made. -/
def call? : Happening → Option Flight
  | .wake _ call => call
  | .flushNow call => call
  | _ => none

/-- The path that joined those that wait. -/
def accepted? : Happening → Option Path
  | .register path true => some path
  | _ => none

end Happening

namespace History

/-- The number of passes that are held open: those opened and not yet closed. -/
def guards : History → Nat
  | [] => 0
  | .openPass :: history => guards history + 1
  | .closePass :: history => guards history - 1
  | _ :: history => guards history

/-- The calls of the transport, the latest first. -/
def calls (history : History) : List Flight := history.filterMap Happening.call?

/-- The paths that joined those that wait, the earliest first. -/
def accepted (history : History) : List Path := (history.filterMap Happening.accepted?).reverse

theorem calls_cons (happening : Happening) (history : History) :
    calls (happening :: history) = happening.call?.toList ++ calls history := by
  rw [calls, calls, List.filterMap_cons]
  cases happening.call? <;> rfl

theorem accepted_cons (happening : Happening) (history : History) :
    accepted (happening :: history) = accepted history ++ happening.accepted?.toList := by
  rw [accepted, accepted, List.filterMap_cons]
  cases happening.accepted? with
  | none => exact (List.append_nil _).symm
  | some path => exact List.reverse_cons

end History

namespace Batcher

/-- Nothing has happened to the batcher: it is as it was built. -/
def IsNew (b : Batcher) : Prop :=
  b = { merger := b.merger, flushDelay := b.flushDelay, eventCapacity := b.eventCapacity }

/-- One step of a batcher while some passes are held open.  Only a pass that is held open is
closed; only a task that sleeps wakes, at whatever time; an answer comes only to a flight that
awaits it, and nobody stops waiting for a flight but the one who flushed. -/
inductive Step (guards : Nat) (b : Batcher) : Happening → Batcher → Prop
  | register (path : Path) :
      Step guards b (.register path (b.register path).1) (b.register path).2
  | fingerprint (path : Path) (args : Dict Json) :
      Step guards b (.fingerprint path args (b.fingerprint path args).1) (b.fingerprint path args).2
  | openPass : Step guards b .openPass b.openPass
  | closePass (held : 0 < guards) : Step guards b .closePass b.closePass
  | wake {task : FlushTask} (asleep : task ∈ b.tasks) :
      Step guards b (.wake task (b.wake task).1) (b.wake task).2
  | flushNow : Step guards b (.flushNow b.flushNow.1) b.flushNow.2
  | complete {flight : Flight} (outcome : Outcome) (awaits : flight ∈ b.flights) :
      Step guards b (.complete flight outcome (b.complete flight outcome).1)
        (b.complete flight outcome).2
  | abandon {flight : Flight} (awaits : flight ∈ b.flights) (byCaller : flight.byTask = false) :
      Step guards b (.abandon flight) (b.abandon flight)
  | dispose : Step guards b .dispose b.dispose
  | setClock (time : Nat) : Step guards b (.setClock time) { b with now := time }
  | readEvents : Step guards b (.readEvents b.events) { b with events := [] }

/-- The histories of a batcher, and the batcher that each leads to. -/
inductive Run : History → Batcher → Prop
  /-- Nothing has happened. -/
  | start {b : Batcher} (new : b.IsNew) : Run [] b
  /-- One more step. -/
  | next {history : History} {b b' : Batcher} {happening : Happening} (run : Run history b)
      (step : Step history.guards b happening b') : Run (happening :: history) b'

end Batcher

end GraphWalk
