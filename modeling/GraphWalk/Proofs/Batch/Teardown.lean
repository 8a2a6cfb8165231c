import GraphWalk.Proofs.Batch.Later

/-!
# Teardown

An answer that comes in another epoch than its call does nothing but let its flight
land.  Hence the flights of before a teardown can be taken out of everything that
happens later: what is left is a run in which they never were.

## Main definitions

* `Batcher.withFlights` — a batcher that awaits other flights.
* `Batcher.endsOld` — a happening that ends a flight of before the teardown.

## Main results

* `Batcher.Step.withFlights` — a step goes the same way beside other flights.
* `Batcher.teardown_isolates` — **what was called before a teardown counts for nothing after it.**
-/

namespace GraphWalk

namespace Batcher

/-- The batcher with other flights, and another number of tasks that have not ended. -/
def withFlights (b : Batcher) (flights : List Flight) (outstanding : Nat) : Batcher :=
  { b with flights, outstanding }

@[simp] theorem pending_withFlights (b : Batcher) (flights : List Flight) (n : Nat) :
    (b.withFlights flights n).pending = b.pending := rfl

@[simp] theorem epoch_withFlights (b : Batcher) (flights : List Flight) (n : Nat) :
    (b.withFlights flights n).epoch = b.epoch := rfl

variable {guards : Nat} {history since : History} {calls : List Flight} {b b' : Batcher}
  {happening : Happening} {flight : Flight} {flights : List Flight} {n : Nat}

/-! ### Operations beside other flights -/

theorem emit_withFlights (b : Batcher) (flights : List Flight) (n : Nat) (batch : BatchId)
    (kind : EventKind) :
    (b.withFlights flights n).emit batch kind = (b.emit batch kind).withFlights flights n := by
  unfold emit withFlights
  dsimp only
  split <;> rfl

theorem Tracked.withFlights (h : Tracked calls b)
    (hflights : ∀ flight ∈ flights, flight ∈ b.flights) (n : Nat) :
    Tracked calls (b.withFlights flights n) :=
  h.of_eq rfl hflights rfl rfl

/-- Where no flush is scheduled nothing is called off by arming one. -/
theorem arm_of_idle (h : b.pending.scheduled = none) :
    b.arm = Batcher.emit
      { b with
        pending := (b.pending.schedule b.nextBatch).2
        nextBatch := b.nextBatch + 1
        tasks := b.tasks ++ [{ batch := b.nextBatch, due := b.now + b.flushDelay }]
        outstanding := b.outstanding + 1 } b.nextBatch .scheduled := by
  have habort : b.abort (b.pending.schedule b.nextBatch).1 = b := by
    rw [show (b.pending.schedule b.nextBatch).1 = b.pending.scheduled from rfl, h, abort_none]
  unfold arm
  dsimp only
  rw [habort]

theorem arm_withFlights (h : b.pending.scheduled = none) (flights : List Flight) (n : Nat) :
    (b.withFlights flights n).arm = b.arm.withFlights flights (n + 1) := by
  have hidle : (b.withFlights flights n).pending.scheduled = none := h
  rw [arm_of_idle hidle, arm_of_idle h, ← emit_withFlights]
  rfl

theorem scheduled_of_idle (h : ¬(b.pending.isScheduled || b.pending.inPass) = true) :
    b.pending.scheduled = none := by
  rw [Bool.or_eq_true, not_or, Bool.not_eq_true] at h
  exact PendingSet.isScheduled_eq_false_iff.1 h.1

theorem register_withFlights (b : Batcher) (flights : List Flight) (n : Nat) (path : Path) :
    ∃ m, (b.withFlights flights n).register path
      = ((b.register path).1, (b.register path).2.withFlights flights m) := by
  rcases b.register_cases path with ⟨hadded, hr⟩ | ⟨hadded, b₁, hb₁, hr⟩
  · rcases (b.withFlights flights n).register_cases path with ⟨-, hr'⟩ | ⟨hadded', -⟩
    · refine ⟨n, ?_⟩
      rw [hr, hr']
    · exact absurd (hadded.symm.trans hadded') Bool.false_ne_true
  · rcases (b.withFlights flights n).register_cases path with ⟨hadded', -⟩ | ⟨-, b₂, hb₂, hr'⟩
    · exact absurd (hadded'.symm.trans hadded) Bool.false_ne_true
    · have hb : b₂ = b₁.withFlights flights n := by
        rw [hb₁, hb₂]
        rfl
      rw [hr, hr', hb, pending_withFlights]
      by_cases hbusy : (b₁.pending.isScheduled || b₁.pending.inPass) = true
      · refine ⟨n, ?_⟩
        rw [if_pos hbusy, if_pos hbusy]
      · refine ⟨n + 1, ?_⟩
        rw [if_neg hbusy, if_neg hbusy, arm_withFlights (scheduled_of_idle hbusy)]

theorem fingerprint_withFlights (b : Batcher) (flights : List Flight) (n : Nat) (path : Path)
    (args : Dict Json) :
    (b.withFlights flights n).fingerprint path args
      = ((b.fingerprint path args).1, (b.fingerprint path args).2.withFlights flights n) := by
  unfold fingerprint withFlights
  dsimp only
  split <;> rfl

theorem closePass_withFlights (b : Batcher) (flights : List Flight) (n : Nat) :
    ∃ m, (b.withFlights flights n).closePass = b.closePass.withFlights flights m := by
  unfold closePass
  dsimp only
  rw [pending_withFlights]
  split
  · next hlast =>
    refine ⟨n + 1, ?_⟩
    rw [← arm_withFlights]
    · rfl
    · rw [Bool.and_eq_true, Bool.not_eq_true'] at hlast
      exact PendingSet.isScheduled_eq_false_iff.1 hlast.2
  · exact ⟨n, rfl⟩

theorem drain_withFlights (b : Batcher) (flights : List Flight) (n : Nat) (batch : BatchId)
    (byTask : Bool) :
    (b.withFlights flights n).drain batch byTask
      = ((b.drain batch byTask).1,
          (b.drain batch byTask).2.withFlights (flights ++ (b.drain batch byTask).1.toList) n) := by
  unfold drain withFlights
  dsimp only
  split
  · rw [Option.toList_none, List.append_nil]
  · rfl

theorem wake_withFlights (b : Batcher) (flights : List Flight) (n : Nat) (task : FlushTask) :
    ∃ m, (b.withFlights flights n).wake task
      = ((b.wake task).1, (b.wake task).2.withFlights (flights ++ (b.wake task).1.toList) m) := by
  have hnil : flights = flights ++ (none : Option Flight).toList := (List.append_nil flights).symm
  unfold wake
  dsimp only
  rw [show (b.withFlights flights n).withoutTask task.batch
      = (b.withoutTask task.batch).withFlights flights n from rfl, pending_withFlights]
  split
  · refine ⟨n - 1, ?_⟩
    rw [← hnil]
    rfl
  · split
    · refine ⟨n - 1, ?_⟩
      rw [← hnil]
      rfl
    · rw [drain_withFlights]
      rcases (b.withoutTask task.batch).drain task.batch true with ⟨_ | flight, drained⟩
      · exact ⟨n - 1, rfl⟩
      · exact ⟨n, rfl⟩

theorem flushNow_withFlights (b : Batcher) (flights : List Flight) (n : Nat) :
    (b.withFlights flights n).flushNow
      = (b.flushNow.1, b.flushNow.2.withFlights (flights ++ b.flushNow.1.toList) n) := by
  unfold flushNow
  rw [pending_withFlights]
  cases b.pending.scheduled with
  | some batch => exact b.drain_withFlights flights n batch false
  | none =>
    exact { b with nextBatch := b.nextBatch + 1 }.drain_withFlights flights n b.nextBatch false

theorem land_withFlights (b : Batcher) (flights : List Flight) (n : Nat) (flight : Flight) :
    ∃ m, (b.withFlights flights n).land flight
      = (b.land flight).withFlights
          (flights.filter fun other => other.batch != flight.batch) m := by
  unfold land
  dsimp only
  split
  · exact ⟨n - 1, rfl⟩
  · exact ⟨n, rfl⟩

theorem complete_withFlights (h : Tracked calls b)
    (hflights : ∀ flight ∈ flights, flight ∈ b.flights) (n : Nat) (flight : Flight)
    (outcome : Outcome) :
    ∃ m, (b.withFlights flights n).complete flight outcome
      = ((b.complete flight outcome).1, (b.complete flight outcome).2.withFlights
          (flights.filter fun other => other.batch != flight.batch) m) := by
  obtain ⟨m, hland⟩ := b.land_withFlights flights n flight
  refine ⟨m, ?_⟩
  unfold complete
  rw [isAborted_eq_false h.flight_awaited,
    isAborted_eq_false (h.withFlights hflights n).flight_awaited, hland]
  dsimp only
  rw [if_neg Bool.false_ne_true, if_neg Bool.false_ne_true]
  cases outcome with
  | ok response =>
    dsimp only
    rw [epoch_withFlights]
    split
    · rfl
    · rw [← emit_withFlights]
      rfl
  | error e =>
    dsimp only
    rw [epoch_withFlights]
    split
    · rfl
    · rw [← emit_withFlights]

theorem dispose_withFlights (h : Tracked calls b)
    (hflights : ∀ flight ∈ flights, flight ∈ b.flights) (n : Nat) :
    (b.withFlights flights n).dispose = b.dispose.withFlights flights n := by
  have habort : ((b.withFlights flights n).abort b.pending.scheduled).flights = flights :=
    (h.withFlights hflights n).flights_abort
  have hdispose : (b.withFlights flights n).dispose = b.dispose.withFlights
      ((b.withFlights flights n).abort b.pending.scheduled).flights n := rfl
  rw [hdispose, habort]

/-- **A step goes the same way beside other flights**, as long as they include the one that
lands. -/
theorem Step.withFlights (h : Tracked calls b) (step : Step guards b happening b')
    (hflights : ∀ flight ∈ flights, flight ∈ b.flights)
    (hlanding : ∀ flight, happening.landing? = some flight → flight ∈ flights) (n : Nat) :
    ∃ m, Step guards (b.withFlights flights n) happening
      (b'.withFlights (happening.flightsAfter flights) m) := by
  cases step with
  | register path =>
    obtain ⟨m, hr⟩ := b.register_withFlights flights n path
    have hstep : Step guards (b.withFlights flights n) _ _ := .register path
    rw [hr] at hstep
    rw [Happening.flightsAfter_of_quiet rfl rfl]
    exact ⟨m, hstep⟩
  | fingerprint path args =>
    have hstep : Step guards (b.withFlights flights n) _ _ := .fingerprint path args
    rw [fingerprint_withFlights] at hstep
    rw [Happening.flightsAfter_of_quiet rfl rfl]
    exact ⟨n, hstep⟩
  | openPass =>
    rw [Happening.flightsAfter_of_quiet rfl rfl]
    exact ⟨n, .openPass⟩
  | closePass held =>
    obtain ⟨m, hclose⟩ := b.closePass_withFlights flights n
    have hstep : Step guards (b.withFlights flights n) _ _ := .closePass held
    rw [hclose] at hstep
    rw [Happening.flightsAfter_of_quiet rfl rfl]
    exact ⟨m, hstep⟩
  | @wake task asleep =>
    obtain ⟨m, hw⟩ := b.wake_withFlights flights n task
    have hstep : Step guards (b.withFlights flights n) _ _ := .wake asleep
    rw [hw] at hstep
    rw [Happening.flightsAfter_of_call rfl]
    exact ⟨m, hstep⟩
  | flushNow =>
    have hstep : Step guards (b.withFlights flights n) _ _ := .flushNow
    rw [flushNow_withFlights] at hstep
    rw [Happening.flightsAfter_of_call rfl]
    exact ⟨n, hstep⟩
  | @complete flight outcome _ =>
    obtain ⟨m, hc⟩ := complete_withFlights h hflights n flight outcome
    have hstep : Step guards (b.withFlights flights n) _ _ :=
      .complete outcome (hlanding flight rfl)
    rw [hc] at hstep
    rw [Happening.flightsAfter_of_landing rfl]
    exact ⟨m, hstep⟩
  | @abandon flight _ byCaller =>
    obtain ⟨m, hland⟩ := b.land_withFlights flights n flight
    have hstep : Step guards (b.withFlights flights n) _ _ :=
      .abandon (hlanding flight rfl) byCaller
    rw [Batcher.abandon, hland] at hstep
    rw [Happening.flightsAfter_of_landing rfl]
    exact ⟨m, hstep⟩
  | dispose =>
    have hstep : Step guards (b.withFlights flights n) _ _ := .dispose
    rw [dispose_withFlights h hflights] at hstep
    rw [Happening.flightsAfter_of_quiet rfl rfl]
    exact ⟨n, hstep⟩
  | setClock time =>
    rw [Happening.flightsAfter_of_quiet rfl rfl]
    exact ⟨n, .setClock time⟩
  | readEvents =>
    rw [Happening.flightsAfter_of_quiet rfl rfl]
    exact ⟨n, .readEvents⟩

/-! ### Answers of another epoch -/

/-- An answer that comes in another epoch than its call does nothing but let its flight land. -/
theorem complete_of_stale (h : flight.epoch ≠ b.epoch) (outcome : Outcome) :
    (b.complete flight outcome).2 = b.land flight := by
  have hepoch : ((b.land flight).epoch != flight.epoch) = true := by
    rw [(b.land_frame flight).2.2, bne_iff_ne]
    exact h.symm
  simp only [complete, hepoch, if_true]
  split
  · rfl
  · cases outcome <;> rfl

theorem Step.land_of_stale (step : Step guards b happening b')
    (hlanding : happening.landing? = some flight) (h : flight.epoch ≠ b.epoch) :
    b' = b.land flight := by
  cases step with
  | complete outcome _ =>
    obtain rfl := Option.some.inj hlanding
    exact complete_of_stale h outcome
  | abandon =>
    obtain rfl := Option.some.inj hlanding
    rfl
  | _ => cases hlanding

theorem events_land (b : Batcher) (flight : Flight) : (b.land flight).events = b.events := by
  unfold land
  dsimp only
  split <;> rfl

/-- Beside the same flights it makes no difference that another one has landed. -/
theorem land_withFlights_eq (b : Batcher) (flight : Flight) (flights : List Flight) (n : Nat) :
    (b.land flight).withFlights flights n = b.withFlights flights n := by
  unfold land
  dsimp only
  split <;> rfl

/-! ### Without the flights of before -/

/-- The end of a flight that was called before. -/
def endsOld (history : History) (happening : Happening) : Bool :=
  happening.landing?.any history.hasCalled

/-- Taking ends of flights out leaves the passes that are held open. -/
theorem guards_filter (since before history : History) :
    History.guards (since.filter (fun happening => !endsOld before happening) ++ history)
      = History.guards (since ++ history) := by
  induction since with
  | nil => rfl
  | cons happening since ih =>
    rw [List.filter_cons]
    cases happening with
    | openPass => exact congrArg (· + 1) ih
    | closePass => exact congrArg (· - 1) ih
    | complete => split <;> exact ih
    | abandon => split <;> exact ih
    | _ => exact ih

/-- **What happens after a teardown, without the flights of before.**  Where the ends of these
flights are taken out, the other steps lead to the same, beside the flights that are left. -/
theorem Later.withoutOld (run : Run history b)
    (later : Later (.dispose :: history) b.dispose since b') (n : Nat) :
    ∃ m, Later (.dispose :: history) (b.dispose.withFlights [] n)
      (since.filter fun happening => !endsOld history happening)
      (b'.withFlights (b'.flights.filter fun flight => !history.hasCalled flight) m) := by
  have hrun : Run (.dispose :: history) b.dispose := run.next .dispose
  -- the flights on the right are those that were called since
  induction later with
  | now =>
    have hnone : b.dispose.flights.filter (fun flight => !history.hasCalled flight) = [] := by
      rw [List.filter_eq_nil_iff]
      intro flight hflight
      rw [Bool.not_eq_true', Bool.not_eq_false, History.hasCalled_iff]
      exact hrun.tracked.flight_called flight hflight
    rw [hnone]
    exact ⟨n, .now⟩
  | @next since b₁ b₂ happening later step ih =>
    obtain ⟨m, ih⟩ := ih
    have htracked := (later.run hrun).tracked
    rw [List.filter_cons]
    cases hold : endsOld history happening with
    | true =>
      -- the end of an old flight is left out, and without it nothing is different
      obtain ⟨flight, hlanding, hcalled⟩ : ∃ flight, happening.landing? = some flight ∧
          history.hasCalled flight = true := by
        rw [endsOld, Option.any_eq_true] at hold
        exact hold
      have hstale : flight.epoch ≠ b₁.epoch :=
        Nat.ne_of_lt (later.epoch_lt run flight (step.landing_mem hlanding) hcalled)
      have hleft : (b₁.land flight).flights.filter (fun other => !history.hasCalled other)
          = b₁.flights.filter fun other => !history.hasCalled other := by
        -- a flight that is left has another number than the one that landed
        rw [flights_land, List.filter_filter]
        refine List.filter_congr fun other _ => ?_
        cases hother : history.hasCalled other with
        | true => rfl
        | false =>
          rw [Bool.not_false, Bool.true_and, bne_iff_ne]
          intro hbatch
          rw [History.hasCalled, hbatch] at hother
          rw [History.hasCalled, hother] at hcalled
          cases hcalled
      refine ⟨m, ?_⟩
      rw [step.land_of_stale hlanding hstale, hleft, land_withFlights_eq]
      exact ih
    | false =>
      -- a flight that lands here was called since, so it is awaited on the right as well
      have hkept : ∀ flight, happening.landing? = some flight →
          flight ∈ b₁.flights.filter fun flight => !history.hasCalled flight := by
        intro flight hlanding
        rw [endsOld, hlanding, Option.any_some] at hold
        rw [List.mem_filter, hold]
        exact ⟨step.landing_mem hlanding, rfl⟩
      have hcall : ∀ flight, happening.call? = some flight →
          (!history.hasCalled flight) = true := by
        intro flight hcall
        have hfresh : history.hasCalled flight = false := later.not_hasCalled hrun step hcall
        rw [hfresh]
        rfl
      obtain ⟨m', hstep⟩ := step.withFlights htracked
        (fun flight hflight => List.mem_of_mem_filter hflight) hkept m
      rw [step.flights_eq htracked, Happening.filter_flightsAfter hcall]
      refine ⟨m', ih.next ?_⟩
      rw [guards_filter]
      exact hstep

/-- **What was called before a teardown counts for nothing after it.**

However much happens since, the end of a flight that was called before the teardown changes neither
value nor version and is not reported.  And what happens since, these ends apart, happens in the
same way to a batcher that awaited nothing at the teardown, with the same answers, state and
events. -/
theorem teardown_isolates (run : Run history b)
    (later : Later (.dispose :: history) b.dispose since b') :
    (∀ flight ∈ b'.flights, history.hasCalled flight = true →
      (∀ outcome, (b'.complete flight outcome).2.state = b'.state ∧
        (b'.complete flight outcome).2.events = b'.events) ∧
      (b'.abandon flight).state = b'.state ∧ (b'.abandon flight).events = b'.events) ∧
    ∃ m, Later (.dispose :: history) (b.dispose.withFlights [] b.tasks.length)
      (since.filter fun happening => !endsOld history happening)
      (b'.withFlights (b'.flights.filter fun flight => !history.hasCalled flight) m) := by
  refine ⟨fun flight hflight hcalled => ?_, later.withoutOld run b.tasks.length⟩
  have hstale : flight.epoch ≠ b'.epoch := Nat.ne_of_lt (later.epoch_lt run flight hflight hcalled)
  have hland : (b'.land flight).state = b'.state ∧ (b'.land flight).events = b'.events :=
    ⟨(b'.land_frame flight).1, b'.events_land flight⟩
  refine ⟨fun outcome => ?_, hland⟩
  rw [complete_of_stale hstale outcome]
  exact hland

/-- A batch is on its way at a teardown, and another one is sent after it.  The answer to the first
one changes nothing, and the second one leaves as if it were alone. -/
theorem teardown_isolates_two_batches :
    let old : Flight := { batch := 0, epoch := 0, paths := [.ofFields ["old"]], byTask := false }
    let new : Flight := { batch := 1, epoch := 1, paths := [.ofFields ["new"]], byTask := false }
    let before := (({} : Batcher).register (.ofFields ["old"])).2.flushNow.2
    let after := (before.dispose.register (.ofFields ["new"])).2.flushNow.2
    let history := [.flushNow (some old), .register (.ofFields ["old"]) true]
    let answer : Outcome := .ok (.object [("old", .bool true)])
    (after.complete old answer).2.state = after.state ∧
      ∃ m, Later (.dispose :: history) (before.dispose.withFlights [] 1)
        [.flushNow (some new), .register (.ofFields ["new"]) true]
        ((after.complete old answer).2.withFlights [new] m) := by
  intro old new before after history answer
  have hnew : IsNew {} := rfl
  have run : Run history before := .next (.next (.start hnew) (.register _)) .flushNow
  have later : Later (.dispose :: history) before.dispose
      [.flushNow (some new), .register (.ofFields ["new"]) true] after :=
    .next (.next .now (.register _)) .flushNow
  have hflights : after.flights = [old, new] := rfl
  have hold : old ∈ after.flights := hflights ▸ List.mem_cons_self
  have answered : Later (.dispose :: history) before.dispose
      [.complete old answer (.ok false), .flushNow (some new),
        .register (.ofFields ["new"]) true] (after.complete old answer).2 :=
    later.next (.complete answer hold)
  obtain ⟨hends, -⟩ := teardown_isolates run later
  obtain ⟨-, m, hwithout⟩ := teardown_isolates run answered
  exact ⟨((hends old hold rfl).1 answer).1, m, hwithout⟩

end Batcher

end GraphWalk
