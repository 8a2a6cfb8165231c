import GraphWalk.Proofs.Batch.Ledger
import GraphWalk.Proofs.Batch.Schedule
import GraphWalk.Proofs.Batch.Teardown

/-!
# Reports

What is reported of a batch follows a protocol.  A batch is reported as scheduled when a
flush is armed for it, and then its outcome is reported once at most.  Only a batch that
somebody flushed while a pass was open has an outcome without having been scheduled.

Numbers of batches come from two places, and a number passes on when somebody takes a
scheduled flush over.  What keeps the reports in order is that a number is at one place
at a time: it is not given out yet, or scheduled, or awaited, or done with.

## Main definitions

* `EventKind.keys?` — the keys that an outcome reports.
* `History.read`, `Batcher.reports` — the events that were read, and what was reported of a batch.
* `Batcher.RoomyRun` — the runs in which there is always room for one more event.
* `Batcher.Emission`, `Batcher.Emits` — what a step reports, and what it does to the number that it
  reports of.
* `Batcher.FlushedInPass` — somebody flushed a batch while a pass was open.

## Main results

* `Batcher.Step.emission` — what a step reports.
* `Batcher.Reported` — where a number is, told by what was reported of it.
* `Batcher.batch_reports` — **the protocol of the reports.**
-/

namespace GraphWalk

/-- The keys that an outcome reports. -/
def EventKind.keys? : EventKind → Option (List String)
  | .scheduled => none
  | .flushed paths _ => some paths
  | .failed paths _ => some paths

/-- The events that were read, the earliest first. -/
def History.read : History → List (BatchId × EventKind)
  | [] => []
  | .readEvents events :: history => read history ++ events
  | _ :: history => read history

namespace Batcher

variable {guards : Nat} {history : History} {calls : List Flight} {b b' : Batcher}
  {happening : Happening} {flight : Flight} {batch : BatchId} {event : Option (BatchId × EventKind)}

/-- The reports of a batch among some events. -/
def reportsOf (batch : BatchId) (events : List (BatchId × EventKind)) : List EventKind :=
  events.filterMap fun event => if event.1 = batch then some event.2 else none

/-- What was reported of a batch, the earliest first, whether it was read or not. -/
def reports (history : History) (b : Batcher) (batch : BatchId) : List EventKind :=
  reportsOf batch (history.read ++ b.events)

theorem reportsOf_append (batch : BatchId) (old new : List (BatchId × EventKind)) :
    reportsOf batch (old ++ new) = reportsOf batch old ++ reportsOf batch new :=
  List.filterMap_append

theorem reportsOf_self (batch : BatchId) (kind : EventKind) :
    reportsOf batch [(batch, kind)] = [kind] := by
  rw [reportsOf, List.filterMap_cons, if_pos rfl]
  rfl

theorem reportsOf_of_ne {other : BatchId} (h : other ≠ batch) (kind : EventKind) :
    reportsOf batch [(other, kind)] = [] := by
  rw [reportsOf, List.filterMap_cons, if_neg h]
  rfl

/-- The runs in which there is always room for one more event. -/
inductive RoomyRun : History → Batcher → Prop
  /-- Nothing has happened. -/
  | start {b : Batcher} (new : b.IsNew) : RoomyRun [] b
  /-- One more step. -/
  | next {history : History} {b b' : Batcher} {happening : Happening} (roomy : RoomyRun history b)
      (room : b.events.length < b.eventCapacity) (step : Step history.guards b happening b') :
      RoomyRun (happening :: history) b'

theorem RoomyRun.run (roomy : RoomyRun history b) : Run history b := by
  induction roomy with
  | start new => exact .start new
  | next _ _ step ih => exact ih.next step

/-! ### What a step reports -/

/-- What a step reports, and what it does to the number that it reports of. -/
inductive Emission (b : Batcher) (happening : Happening) (b' : Batcher) :
    Option (BatchId × EventKind) → Prop
  /-- Nothing is reported, and no flush is scheduled anew. -/
  | quiet (scheduled : ∀ batch, b'.pending.scheduled = some batch →
        b.pending.scheduled = some batch)
      (next : b.nextBatch ≤ b'.nextBatch) : Emission b happening b' none
  /-- A flush is scheduled under the next number. -/
  | armed (call : happening.call? = none) (landing : happening.landing? = none)
      (scheduled : b'.pending.scheduled = some b.nextBatch)
      (next : b'.nextBatch = b.nextBatch + 1) :
      Emission b happening b' (some (b.nextBatch, .scheduled))
  /-- A flight lands and its outcome is reported. -/
  | ended {flight : Flight} {kind : EventKind} (landing : happening.landing? = some flight)
      (keys : kind.keys? = some flight.keys)
      (scheduled : b'.pending.scheduled = b.pending.scheduled)
      (next : b'.nextBatch = b.nextBatch) : Emission b happening b' (some (flight.batch, kind))

theorem events_emit (room : b.events.length < b.eventCapacity) (batch : BatchId)
    (kind : EventKind) : (b.emit batch kind).events = b.events ++ [(batch, kind)] := by
  rw [emit, if_pos room]

theorem events_arm (room : b.events.length < b.eventCapacity) :
    b.arm.events = b.events ++ [(b.nextBatch, .scheduled)] := by
  unfold arm
  dsimp only
  rw [events_emit]
  · rfl
  · exact room

theorem events_drain (b : Batcher) (batch : BatchId) (byTask : Bool) :
    (b.drain batch byTask).2.events = b.events := by
  simp only [drain]
  split <;> rfl

theorem nextBatch_land (b : Batcher) (flight : Flight) :
    (b.land flight).nextBatch = b.nextBatch := by
  unfold land
  dsimp only
  split <;> rfl

theorem eventCapacity_land (b : Batcher) (flight : Flight) :
    (b.land flight).eventCapacity = b.eventCapacity := by
  unfold land
  dsimp only
  split <;> rfl

/-- A step that reports at most one event, after those that were not read yet. -/
def Emits (b : Batcher) (happening : Happening) (b' : Batcher) : Prop :=
  ∃ event, Emission b happening b' event ∧ b'.events = b.events ++ event.toList

/-- A step that reports nothing and schedules no flush anew. -/
theorem Emits.quiet
    (hscheduled : ∀ batch, b'.pending.scheduled = some batch → b.pending.scheduled = some batch)
    (hnext : b.nextBatch ≤ b'.nextBatch) (hevents : b'.events = b.events) :
    Emits b happening b' :=
  ⟨none, .quiet hscheduled hnext, hevents.trans (List.append_nil _).symm⟩

/-- Arming a flush reports it, whatever has joined before. -/
theorem Emits.arm {b₁ : Batcher} (room : b.events.length < b.eventCapacity)
    (call : happening.call? = none) (landing : happening.landing? = none)
    (hnext : b₁.nextBatch = b.nextBatch) (hevents : b₁.events = b.events)
    (hcapacity : b₁.eventCapacity = b.eventCapacity) : Emits b happening b₁.arm := by
  have hroom : b₁.events.length < b₁.eventCapacity := by
    rw [hevents, hcapacity]
    exact room
  refine ⟨some (b.nextBatch, .scheduled), .armed call landing ?_ ?_, ?_⟩
  · rw [pending_arm, PendingSet.scheduled_schedule, hnext]
  · rw [nextBatch_arm, hnext]
  · rw [events_arm hroom, hevents, hnext]
    rfl

/-- What waits is taken without a report, be it under a number that was just used up. -/
theorem Emits.drain (b₁ : Batcher) (hnext : b.nextBatch ≤ b₁.nextBatch)
    (hevents : b₁.events = b.events) (batch : BatchId) (byTask : Bool) :
    Emits b happening (b₁.drain batch byTask).2 := by
  refine .quiet ?_ ?_ ?_
  · rw [pending_drain]
    nofun
  · rw [nextBatch_drain]
    exact hnext
  · rw [events_drain, hevents]

/-- The end of a flight whose outcome is not reported. -/
theorem Emits.land (b : Batcher) (flight : Flight) : Emits b happening (b.land flight) := by
  refine .quiet ?_ (Nat.le_of_eq (b.nextBatch_land flight).symm) (events_land b flight)
  rw [pending_land]
  exact fun _ => id

/-- The end of a flight whose outcome is reported, whatever is known afterwards. -/
theorem Emits.report (room : b.events.length < b.eventCapacity) (state : State)
    (kind : EventKind) (landing : happening.landing? = some flight)
    (keys : kind.keys? = some flight.keys)
    (hafter : b' = { b.land flight with state }.emit flight.batch kind) :
    Emits b happening b' := by
  have hroom : (b.land flight).events.length < (b.land flight).eventCapacity := by
    rw [events_land, eventCapacity_land]
    exact room
  refine ⟨some (flight.batch, kind), .ended landing keys ?_ ?_, ?_⟩
  · rw [hafter, pending_emit]
    exact congrArg _ (pending_land b flight)
  · rw [hafter, nextBatch_emit]
    exact b.nextBatch_land flight
  · rw [hafter]
    refine (events_emit (b := { b.land flight with state }) hroom _ _).trans ?_
    exact congrArg (· ++ _) (events_land b flight)

theorem emits_register (room : b.events.length < b.eventCapacity) (path : Path) :
    Emits b (.register path (b.register path).1) (b.register path).2 := by
  rcases b.register_cases path with ⟨-, hr⟩ | ⟨-, b₁, hb₁, hr⟩
  · rw [hr]
    exact .quiet (fun _ => id) (Nat.le_refl _) rfl
  · have hscheduled : b₁.pending.scheduled = b.pending.scheduled := by
      rw [hb₁]
      exact b.pending.scheduled_insert path
    have hnext : b₁.nextBatch = b.nextBatch := by rw [hb₁]
    have hevents : b₁.events = b.events := by rw [hb₁]
    rw [hr]
    dsimp only
    split
    · exact .quiet (fun batch => hscheduled ▸ id) (Nat.le_of_eq hnext.symm) hevents
    · exact .arm room rfl rfl hnext hevents (by rw [hb₁])

theorem emits_closePass (room : b.events.length < b.eventCapacity) :
    Emits b .closePass b.closePass := by
  unfold Batcher.closePass
  dsimp only
  split
  · exact .arm room rfl rfl rfl rfl rfl
  · exact .quiet (fun _ => id) (Nat.le_refl _) rfl

theorem emits_wake (b : Batcher) (task : FlushTask) :
    Emits b (.wake task (b.wake task).1) (b.wake task).2 := by
  rcases b.wake_cases task with ⟨-, hw⟩ | ⟨-, -, hw⟩ | ⟨-, -, -, -, outstanding, hw⟩
  · rw [hw]
    exact .quiet (fun _ => id) (Nat.le_refl _) rfl
  · rw [hw]
    exact .quiet nofun (Nat.le_refl _) rfl
  · rw [hw]
    refine .quiet ?_ ?_ (events_drain (b.withoutTask task.batch) task.batch true)
    · dsimp only
      rw [pending_drain]
      nofun
    · dsimp only
      rw [nextBatch_drain]
      exact Nat.le_refl _

theorem emits_flushNow (b : Batcher) : Emits b (.flushNow b.flushNow.1) b.flushNow.2 := by
  rcases b.flushNow_cases with ⟨batch, -, hflush⟩ | ⟨-, hflush⟩
  · rw [hflush]
    exact .drain b (Nat.le_refl _) rfl batch false
  · rw [hflush]
    exact .drain { b with nextBatch := b.nextBatch + 1 } (Nat.le_succ _) rfl b.nextBatch false

/-- An answer is reported in the epoch of its call, and otherwise counts for nothing. -/
theorem emits_complete (room : b.events.length < b.eventCapacity)
    (hawaited : ∀ other ∈ b.flights, other.aborted = false) (flight : Flight) (outcome : Outcome) :
    Emits b (.complete flight outcome (b.complete flight outcome).1)
      (b.complete flight outcome).2 := by
  by_cases hepoch : flight.epoch = b.epoch
  · have hsame : ((b.land flight).epoch != flight.epoch) = false := by
      rw [(b.land_frame flight).2.2, hepoch]
      exact bne_self_eq_false _
    cases outcome with
    | ok result =>
      refine .report room ((b.land flight).state.absorb (b.land flight).merger result).2
        (.flushed flight.keys ((b.land flight).state.absorb (b.land flight).merger result).1)
        rfl rfl ?_
      simp only [complete, isAborted_eq_false hawaited, hsame, Bool.false_eq_true, if_false]
    | error e =>
      refine .report room (b.land flight).state (.failed flight.keys e.message) rfl rfl ?_
      simp only [complete, isAborted_eq_false hawaited, hsame, Bool.false_eq_true, if_false]
  · rw [complete_of_stale hepoch]
    exact .land b flight

/-- **What a step reports.**  There is at most one event, and it stands after all that were reported
before, read or not. -/
theorem Step.emission (step : Step guards b happening b') (h : Tracked calls b)
    (room : b.events.length < b.eventCapacity) :
    ∃ event, Emission b happening b' event ∧ ∀ history : History,
      History.read (happening :: history) ++ b'.events
        = history.read ++ b.events ++ event.toList := by
  -- it is enough to say what joins the events, unless they were read
  have hunread : Emits b happening b' →
      (∀ history : History, History.read (happening :: history) = history.read) →
      ∃ event, Emission b happening b' event ∧ ∀ history : History,
        History.read (happening :: history) ++ b'.events
          = history.read ++ b.events ++ event.toList := by
    rintro ⟨event, hemission, hevents⟩ hread
    refine ⟨event, hemission, fun history => ?_⟩
    rw [hread, hevents, List.append_assoc]
  cases step with
  | register path => exact hunread (emits_register room path) fun _ => rfl
  | fingerprint path args =>
    refine hunread ?_ fun _ => rfl
    unfold Batcher.fingerprint
    dsimp only
    split
    · exact .quiet (fun _ => id) (Nat.le_refl _) rfl
    · exact .quiet (fun _ => id) (Nat.le_refl _) rfl
  | openPass => exact hunread (.quiet (fun _ => id) (Nat.le_refl _) rfl) fun _ => rfl
  | closePass => exact hunread (emits_closePass room) fun _ => rfl
  | @wake task _ => exact hunread (b.emits_wake task) fun _ => rfl
  | flushNow => exact hunread b.emits_flushNow fun _ => rfl
  | @complete flight outcome _ =>
    exact hunread (emits_complete room h.flight_awaited flight outcome) fun _ => rfl
  | @abandon flight _ _ => exact hunread (.land b flight) fun _ => rfl
  | dispose => exact hunread (.quiet nofun (Nat.le_refl _) rfl) fun _ => rfl
  | setClock => exact hunread (.quiet (fun _ => id) (Nat.le_refl _) rfl) fun _ => rfl
  | readEvents => exact ⟨none, .quiet (fun _ => id) (Nat.le_refl _), fun _ => rfl⟩

/-! ### Where a number is -/

/-- Somebody flushed a batch while a pass was open. -/
def FlushedInPass (history : History) (call : Flight) : Prop :=
  ∃ before, (.flushNow (some call) :: before) <:+ history ∧ 0 < History.guards before

theorem FlushedInPass.cons (h : FlushedInPass history flight) (happening : Happening) :
    FlushedInPass (happening :: history) flight := by
  obtain ⟨before, hsuffix, hguards⟩ := h
  exact ⟨before, hsuffix.trans (List.suffix_cons happening history), hguards⟩

/-- Only a flush by somebody, while a pass is open, has a number that is not the scheduled one. -/
theorem Step.call_scheduled (step : Step history.guards b happening b') (h : Held history.guards b)
    (hcall : happening.call? = some flight) :
    b.pending.scheduled = some flight.batch ∨
      flight.batch = b.nextBatch ∧ FlushedInPass (happening :: history) flight := by
  have hbatch : ∀ {b : Batcher} {batch : BatchId} {byTask : Bool},
      (b.drain batch byTask).1 = some flight → flight.batch = batch ∧ b.pending.paths ≠ [] := by
    intro b batch byTask hdrain
    rw [fst_drain] at hdrain
    split at hdrain
    · cases hdrain
    · next hwaits =>
      cases hdrain
      exact ⟨rfl, hwaits⟩
  cases step with
  | @wake task _ =>
    rcases b.wake_cases task with ⟨-, hw⟩ | ⟨-, -, hw⟩ | ⟨-, hscheduled, -, hw, -⟩
    · rw [hw] at hcall
      cases hcall
    · rw [hw] at hcall
      cases hcall
    · have hdrain : ((b.withoutTask task.batch).drain task.batch true).1 = some flight :=
        hw ▸ hcall
      exact .inl (hscheduled.trans (congrArg some (hbatch hdrain).1.symm))
  | flushNow =>
    have hmade : b.flushNow.1 = some flight := hcall
    rcases b.flushNow_cases with ⟨batch, hscheduled, hflush⟩ | ⟨hidle, hflush⟩
    · rw [hflush] at hmade
      exact .inl (hscheduled.trans (congrArg some (hbatch hmade).1.symm))
    · rw [hmade]
      rw [hflush] at hmade
      obtain ⟨hnumber, hwaits⟩ := hbatch hmade
      refine .inr ⟨hnumber, history, List.suffix_refl _, Nat.pos_of_ne_zero fun hnone => ?_⟩
      -- what waits while no pass is open has its flush scheduled
      have hscheduled : b.pending.isScheduled = true := h.armed hwaits (h.passes.trans hnone)
      rw [PendingSet.isScheduled, hidle] at hscheduled
      cases hscheduled
  | _ => cases hcall

/-- The reports of a batch are in order. -/
def InOrder (history : History) (batch : BatchId) (events : List EventKind) : Prop :=
  events = [] ∨ events = [.scheduled] ∨
    ∃ call ∈ history.calls, call.batch = batch ∧
      ∃ outcome : EventKind, outcome.keys? = some call.keys ∧
        (events = [.scheduled, outcome] ∨ events = [outcome] ∧ FlushedInPass history call)

theorem InOrder.cons {events : List EventKind} (h : InOrder history batch events)
    (happening : Happening) : InOrder (happening :: history) batch events := by
  rcases h with h | h | ⟨call, hcall, hbatch, outcome, hkeys, h⟩
  · exact .inl h
  · exact .inr (.inl h)
  · refine .inr (.inr ⟨call, ?_, hbatch, outcome, hkeys, ?_⟩)
    · rw [History.calls_cons]
      exact List.mem_append_right _ hcall
    · exact h.imp_right fun ⟨halone, hflushed⟩ => ⟨halone, hflushed.cons happening⟩

/-- Where a number is, told by what was reported of it. -/
structure Reported (history : History) (b : Batcher) : Prop where
  /-- Of a number that was not given out nothing was reported. -/
  fresh : ∀ batch, b.nextBatch ≤ batch → reports history b batch = []
  /-- The scheduled flush was reported as scheduled. -/
  scheduled : ∀ batch, b.pending.scheduled = some batch → reports history b batch = [.scheduled]
  /-- What is awaited was scheduled, or else flushed in a pass. -/
  awaited : ∀ flight ∈ b.flights, flight ∈ history.calls ∧
    (reports history b flight.batch = [.scheduled] ∨
      reports history b flight.batch = [] ∧ FlushedInPass history flight)
  /-- No number is reported out of order. -/
  ordered : ∀ batch, InOrder history batch (reports history b batch)

theorem reported_of_isNew (h : b.IsNew) : Reported [] b := by
  rw [h]
  constructor
  case fresh => exact fun _ _ => rfl
  case scheduled => nofun
  case awaited => nofun
  case ordered => exact fun _ => .inl rfl

theorem calls_cons_mem (h : flight ∈ history.calls) (happening : Happening) :
    flight ∈ History.calls (happening :: history) := by
  rw [History.calls_cons]
  exact List.mem_append_right _ h

/-- What is awaited has not ended, and a step alone says nothing of it. -/
theorem Reported.awaited_cons (h : Reported history b) (hflight : flight ∈ b.flights)
    (happening : Happening) :
    flight ∈ History.calls (happening :: history) ∧
      (reports history b flight.batch = [.scheduled] ∨
        reports history b flight.batch = [] ∧ FlushedInPass (happening :: history) flight) := by
  obtain ⟨hcalled, hreported⟩ := h.awaited flight hflight
  exact ⟨calls_cons_mem hcalled happening,
    hreported.imp_right fun ⟨hnone, hflushed⟩ => ⟨hnone, hflushed.cons happening⟩⟩

/-- The number of what is awaited was given out. -/
theorem Tracked.flight_lt (h : Tracked calls b) (hflight : flight ∈ b.flights) :
    flight.batch < b.nextBatch :=
  h.call_lt _ (h.flight_called flight hflight)

/-- A step that reports nothing moves no number, save that of a new flight: it takes the scheduled
one, or in a pass one that is fresh. -/
theorem Reported.quiet (h : Reported history b) (htracked : Tracked history.calls b)
    (hheld : Held history.guards b) (step : Step history.guards b happening b')
    (hsame : ∀ batch, reports (happening :: history) b' batch = reports history b batch)
    (hscheduled : ∀ batch, b'.pending.scheduled = some batch → b.pending.scheduled = some batch)
    (hnext : b.nextBatch ≤ b'.nextBatch) : Reported (happening :: history) b' := by
  constructor
  case fresh =>
    intro batch hbatch
    rw [hsame]
    exact h.fresh batch (Nat.le_trans hnext hbatch)
  case scheduled =>
    intro batch hbatch
    rw [hsame]
    exact h.scheduled batch (hscheduled batch hbatch)
  case awaited =>
    intro flight hflight
    rw [step.flights_eq htracked] at hflight
    rw [hsame]
    rcases Happening.mem_flightsAfter hflight with hflight | hcall
    · exact h.awaited_cons hflight happening
    · have hcalled : flight ∈ History.calls (happening :: history) := by
        rw [History.calls_cons, hcall]
        exact List.mem_append_left _ (List.mem_singleton.2 rfl)
      refine ⟨hcalled, ?_⟩
      rcases step.call_scheduled hheld hcall with hscheduled | ⟨hbatch, hflushed⟩
      · exact .inl (h.scheduled _ hscheduled)
      · exact .inr ⟨h.fresh _ (Nat.le_of_eq hbatch.symm), hflushed⟩
  case ordered =>
    intro batch
    rw [hsame]
    exact (h.ordered batch).cons happening

/-- A flush is scheduled under the next number, of which nothing was reported before. -/
theorem Reported.armed (h : Reported history b) (htracked : Tracked history.calls b)
    (step : Step history.guards b happening b') (hcall : happening.call? = none)
    (hlanding : happening.landing? = none)
    (hnew : reports (happening :: history) b' b.nextBatch
      = reports history b b.nextBatch ++ [.scheduled])
    (hsame : ∀ batch, batch ≠ b.nextBatch →
      reports (happening :: history) b' batch = reports history b batch)
    (hscheduled : b'.pending.scheduled = some b.nextBatch)
    (hnext : b'.nextBatch = b.nextBatch + 1) : Reported (happening :: history) b' := by
  rw [h.fresh _ (Nat.le_refl _), List.nil_append] at hnew
  constructor
  case fresh =>
    intro batch hbatch
    rw [hnext] at hbatch
    rw [hsame batch (Nat.ne_of_gt hbatch)]
    exact h.fresh batch (Nat.le_of_succ_le hbatch)
  case scheduled =>
    intro batch hbatch
    obtain rfl := Option.some.inj (hscheduled.symm.trans hbatch)
    exact hnew
  case awaited =>
    intro flight hflight
    rw [step.flights_eq htracked, Happening.flightsAfter_of_quiet hlanding hcall] at hflight
    rw [hsame _ (Nat.ne_of_lt (htracked.flight_lt hflight))]
    exact h.awaited_cons hflight happening
  case ordered =>
    intro batch
    by_cases hbatch : batch = b.nextBatch
    · rw [hbatch, hnew]
      exact .inr (.inl rfl)
    · rw [hsame batch hbatch]
      exact (h.ordered batch).cons happening

/-- A flight lands: its outcome comes after what was reported of it while it was awaited, and it is
awaited no longer. -/
theorem Reported.ended {landed : Flight} {kind : EventKind} (h : Reported history b)
    (htracked : Tracked history.calls b) (step : Step history.guards b happening b')
    (hlanding : happening.landing? = some landed) (hkeys : kind.keys? = some landed.keys)
    (hnew : reports (happening :: history) b' landed.batch
      = reports history b landed.batch ++ [kind])
    (hsame : ∀ batch, batch ≠ landed.batch →
      reports (happening :: history) b' batch = reports history b batch)
    (hscheduled : b'.pending.scheduled = b.pending.scheduled)
    (hnext : b'.nextBatch = b.nextBatch) : Reported (happening :: history) b' := by
  have hlanded : landed ∈ b.flights := step.landing_mem hlanding
  constructor
  case fresh =>
    intro batch hbatch
    rw [hnext] at hbatch
    rw [hsame batch (Nat.ne_of_gt (Nat.lt_of_lt_of_le (htracked.flight_lt hlanded) hbatch))]
    exact h.fresh batch hbatch
  case scheduled =>
    intro batch hbatch
    rw [hscheduled] at hbatch
    -- the number of a flight is not scheduled once more
    have hother : batch ≠ landed.batch := by
      rintro rfl
      exact htracked.scheduled_unsent _ hbatch (htracked.flight_called landed hlanded)
    rw [hsame batch hother]
    exact h.scheduled batch hbatch
  case awaited =>
    intro flight hflight
    rw [step.flights_eq htracked, Happening.flightsAfter_of_landing hlanding, List.mem_filter,
      bne_iff_ne] at hflight
    rw [hsame _ hflight.2]
    exact h.awaited_cons hflight.1 happening
  case ordered =>
    intro batch
    by_cases hbatch : batch = landed.batch
    · obtain ⟨hcalled, hreported⟩ := h.awaited_cons hlanded happening
      rw [hbatch, hnew]
      refine .inr (.inr ⟨landed, hcalled, rfl, kind, hkeys, ?_⟩)
      rcases hreported with hreported | ⟨hreported, hflushed⟩
      · exact .inl (by rw [hreported]; rfl)
      · exact .inr ⟨by rw [hreported]; rfl, hflushed⟩
    · rw [hsame batch hbatch]
      exact (h.ordered batch).cons happening

theorem Reported.step (h : Reported history b) (htracked : Tracked history.calls b)
    (hheld : Held history.guards b) (room : b.events.length < b.eventCapacity)
    (step : Step history.guards b happening b') : Reported (happening :: history) b' := by
  obtain ⟨event, hemission, hevents⟩ := step.emission htracked room
  have hreports : ∀ batch, reports (happening :: history) b' batch
      = reports history b batch ++ reportsOf batch event.toList := by
    intro batch
    rw [reports, hevents history, reportsOf_append]
    rfl
  cases hemission with
  | quiet scheduled next =>
    exact h.quiet htracked hheld step (fun batch => (hreports batch).trans (List.append_nil _))
      scheduled next
  | armed call landing scheduled next =>
    refine h.armed htracked step call landing ?_ (fun batch hbatch => ?_) scheduled next
    · rw [hreports, Option.toList_some, reportsOf_self]
    · rw [hreports, Option.toList_some, reportsOf_of_ne hbatch.symm, List.append_nil]
  | ended landing keys scheduled next =>
    refine h.ended htracked step landing keys ?_ (fun batch hbatch => ?_) scheduled next
    · rw [hreports, Option.toList_some, reportsOf_self]
    · rw [hreports, Option.toList_some, reportsOf_of_ne hbatch.symm, List.append_nil]

theorem RoomyRun.reported (roomy : RoomyRun history b) : Reported history b := by
  induction roomy with
  | start new => exact reported_of_isNew new
  | next roomy room step ih => exact ih.step roomy.run.tracked roomy.run.held room step

/-- **The protocol of the reports.**

After any run in which there was always room for one more event, nothing was reported of a batch, or
that it was scheduled, or that it was scheduled and then its outcome, or its outcome alone.  There
is an outcome only of a batch that was called, and its keys are those of the paths of the call,
which are the requests that were sent with it, in the order of registration.  An outcome is alone
only when somebody flushed the batch while a pass was open. -/
theorem batch_reports (roomy : RoomyRun history b) (batch : BatchId) :
    reports history b batch = [] ∨ reports history b batch = [.scheduled] ∨
      ∃ call ∈ history.calls, call.batch = batch ∧
        call.paths = Ledger.pathsOf (.sent batch) history.ledger ∧
        ∃ outcome : EventKind, outcome.keys? = some (call.paths.map Path.key) ∧
          (reports history b batch = [.scheduled, outcome] ∨
            reports history b batch = [outcome] ∧
              ∃ before, (.flushNow (some call) :: before) <:+ history ∧
                0 < History.guards before) := by
  rcases roomy.reported.ordered batch with h | h | ⟨call, hcall, rfl, outcome, hkeys, h⟩
  · exact .inl h
  · exact .inr (.inl h)
  · exact .inr (.inr ⟨call, hcall, rfl, roomy.run.balanced.sent call hcall, outcome, hkeys, h⟩)

/-- In a pass somebody flushes a request and the answer fails: that it failed is all that is
reported of its batch. -/
theorem batch_reports_flushed_in_pass :
    let item := Path.ofFields ["item", "name"]
    let requested : Batcher := (({} : Batcher).openPass.register item).2
    let call : Flight := { batch := 0, epoch := 0, paths := [item], byTask := false }
    let failure : TransportError := .other "gone"
    let history : History :=
      [.complete call (.error failure) (.error failure), .flushNow (some call), .register item true,
        .openPass]
    let failed : Batcher := (requested.flushNow.2.complete call (.error failure)).2
    RoomyRun history failed ∧
      reports history failed 0 = [.failed ["item.name"] "transport failure: gone"] ∧
      ∃ before, (.flushNow (some call) :: before) <:+ history ∧ 0 < History.guards before := by
  intro item requested call failure history failed
  have new : IsNew {} := rfl
  have roomy : RoomyRun history failed :=
    .next (.next (.next (.next (.start new) (by decide) .openPass) (by decide) (.register item))
      (by decide) .flushNow) (by decide) (.complete (.error failure) List.mem_cons_self)
  have hreports : reports history failed 0
      = [.failed ["item.name"] "transport failure: gone"] := rfl
  refine ⟨roomy, hreports, ?_⟩
  rcases batch_reports roomy 0 with h | h | ⟨made, hmade, -, -, outcome, -, h | ⟨-, hflushed⟩⟩
  · rw [hreports] at h
    cases h
  · rw [hreports] at h
    cases h
  · rw [hreports] at h
    cases h
  · cases List.mem_singleton.1 hmade
    exact hflushed

end Batcher

end GraphWalk
