import GraphWalk.Proofs.Batch.Effects

/-!
# What happens later

A run is cut at some batcher in it: what happened before, and what happened since.  A
flight that is awaited later was awaited before or was called since, and it bears the
epoch in which it was called.

## Main definitions

* `Batcher.Later` — what happened since some batcher, and where it led.
* `History.hasCalled` — a flight was called.
* `Happening.landing?`, `Happening.flightsAfter` — the flight whose end a happening is, and the
  flights that are awaited after it.

## Main results

* `Batcher.Step.flights_eq` — which flights are awaited after a step.
* `Batcher.Run.epoch_le` — no flight is ahead of the batcher.
* `Batcher.Later.epoch_lt` — flights called before a teardown stay behind it.
-/

namespace GraphWalk

namespace Happening

/-- The flight that comes to its end. -/
def landing? : Happening → Option Flight
  | .complete flight _ _ => some flight
  | .abandon flight => some flight
  | _ => none

/-- The happening is the end of a flight. -/
def lands (happening : Happening) (flight : Flight) : Bool :=
  happening.landing?.any fun landed => flight.batch == landed.batch

/-- The flights that are awaited after a happening: those that were and have not landed, and the one
that was called. -/
def flightsAfter (happening : Happening) (flights : List Flight) : List Flight :=
  flights.filter (fun flight => !happening.lands flight) ++ happening.call?.toList

theorem flightsAfter_of_call {happening : Happening} (h : happening.landing? = none)
    (flights : List Flight) :
    happening.flightsAfter flights = flights ++ happening.call?.toList := by
  rw [flightsAfter, List.append_cancel_right_eq, List.filter_eq_self]
  intro flight _
  rw [lands, h]
  rfl

theorem flightsAfter_of_quiet {happening : Happening} (h : happening.landing? = none)
    (hcall : happening.call? = none) (flights : List Flight) :
    happening.flightsAfter flights = flights := by
  rw [flightsAfter_of_call h, hcall]
  exact List.append_nil flights

theorem flightsAfter_of_landing {happening : Happening} {flight : Flight}
    (h : happening.landing? = some flight) (flights : List Flight) :
    happening.flightsAfter flights = flights.filter fun other => other.batch != flight.batch := by
  have hcall : happening.call? = none := by
    cases happening with
    | complete => rfl
    | abandon => rfl
    | _ => cases h
  rw [flightsAfter, hcall, Option.toList_none, List.append_nil]
  refine List.filter_congr fun other _ => ?_
  rw [lands, h]
  rfl

/-- Flights may be left out before or after, if the one that was called stays. -/
theorem filter_flightsAfter {happening : Happening} {keep : Flight → Bool}
    (h : ∀ flight, happening.call? = some flight → keep flight = true) (flights : List Flight) :
    (happening.flightsAfter flights).filter keep
      = happening.flightsAfter (flights.filter keep) := by
  have hcall : happening.call?.toList.filter keep = happening.call?.toList := by
    rw [List.filter_eq_self]
    intro flight hflight
    exact h flight (Option.mem_toList.1 hflight)
  rw [flightsAfter, flightsAfter, List.filter_append, hcall, List.filter_filter, List.filter_filter]
  simp only [Bool.and_comm]

theorem mem_flightsAfter {happening : Happening} {flights : List Flight} {flight : Flight}
    (h : flight ∈ happening.flightsAfter flights) :
    flight ∈ flights ∨ happening.call? = some flight := by
  rw [flightsAfter, List.mem_append, Option.mem_toList] at h
  exact h.imp_left List.mem_of_mem_filter

end Happening

/-- A flight was called. -/
def History.hasCalled (history : History) (flight : Flight) : Bool :=
  history.calls.any fun call => call.batch == flight.batch

theorem History.hasCalled_iff {history : History} {flight : Flight} :
    history.hasCalled flight = true ↔ flight.batch ∈ history.calls.map Flight.batch := by
  rw [hasCalled, List.any_eq_true, List.mem_map]
  simp only [beq_iff_eq]

theorem History.calls_append (since history : History) :
    History.calls (since ++ history) = History.calls since ++ History.calls history :=
  List.filterMap_append

namespace Batcher

variable {guards : Nat} {history since : History} {b b' : Batcher} {happening : Happening}
  {flight : Flight}

/-- What happened since a batcher, which some history had led to, and the batcher that it led to in
turn. -/
inductive Later (history : History) (b : Batcher) : History → Batcher → Prop
  /-- Nothing happened since. -/
  | now : Later history b [] b
  /-- One more step. -/
  | next {since : History} {b₁ b₂ : Batcher} {happening : Happening}
      (later : Later history b since b₁)
      (step : Step (History.guards (since ++ history)) b₁ happening b₂) :
      Later history b (happening :: since) b₂

/-- A run may be cut anywhere. -/
theorem Later.run (later : Later history b since b') (run : Run history b) :
    Run (since ++ history) b' := by
  induction later with
  | now => exact run
  | next _ step ih => exact ih.next step

theorem Later.merger_eq (later : Later history b since b') : b'.merger = b.merger := by
  induction later with
  | now => rfl
  | next _ step ih => rw [step.merger_eq, ih]

/-! ### The flights that are awaited -/

theorem flights_land (b : Batcher) (flight : Flight) :
    (b.land flight).flights = b.flights.filter fun other => other.batch != flight.batch := by
  unfold land
  dsimp only
  split <;> rfl

theorem flights_complete (b : Batcher) (flight : Flight) (outcome : Outcome) :
    (b.complete flight outcome).2.flights
      = b.flights.filter fun other => other.batch != flight.batch := by
  obtain ⟨state, events, hc⟩ := b.complete_cases flight outcome
  rw [hc]
  exact flights_land b flight

/-- No flight has the number of the scheduled flush, so calling it off takes no answer from
anybody. -/
theorem Tracked.flights_abort {calls : List Flight} (h : Tracked calls b) :
    (b.abort b.pending.scheduled).flights = b.flights := by
  refine (List.map_congr_left fun flight hflight => ?_).trans b.flights.map_id
  rw [if_neg]
  · rfl
  · rintro ⟨-, hs⟩
    exact h.scheduled_unsent _ hs.symm (h.flight_called flight hflight)

theorem Tracked.flights_arm {calls : List Flight} (h : Tracked calls b) :
    b.arm.flights = b.flights := by
  rw [Batcher.flights_arm, h.flights_abort]

/-- **Which flights are awaited after a step.** -/
theorem Step.flights_eq {calls : List Flight} (h : Tracked calls b)
    (step : Step guards b happening b') : b'.flights = happening.flightsAfter b.flights := by
  cases step with
  | register path =>
    rw [Happening.flightsAfter_of_quiet rfl rfl]
    rcases b.register_cases path with ⟨-, hr⟩ | ⟨-, b₁, hb₁, hr⟩
    · rw [hr]
    · -- the flush that is scheduled anew takes the place of none that has called
      have htracked : Tracked calls b₁ := by
        rw [hb₁]
        exact h.of_eq rfl (fun _ hf => hf) rfl (b.pending.scheduled_insert path)
      have hflights : b₁.flights = b.flights := by rw [hb₁]
      rw [hr]
      dsimp only
      split
      · exact hflights
      · exact htracked.flights_arm.trans hflights
  | fingerprint path args =>
    rw [Happening.flightsAfter_of_quiet rfl rfl]
    unfold Batcher.fingerprint
    dsimp only
    split <;> rfl
  | openPass => exact (Happening.flightsAfter_of_quiet rfl rfl _).symm
  | closePass =>
    have htracked : Tracked calls { b with pending := b.pending.closePass.2 } :=
      h.of_eq rfl (fun _ hf => hf) rfl rfl
    rw [Happening.flightsAfter_of_quiet rfl rfl]
    unfold Batcher.closePass
    dsimp only
    split
    · exact htracked.flights_arm
    · rfl
  | @wake task _ =>
    rw [Happening.flightsAfter_of_call rfl, Happening.call?]
    rcases b.wake_cases task with ⟨-, hw⟩ | ⟨-, -, hw⟩ | ⟨-, -, -, hcall, outstanding, hw⟩
    · rw [hw]
      exact (List.append_nil _).symm
    · rw [hw]
      exact (List.append_nil _).symm
    · rw [hw, hcall]
      exact flights_drain (b.withoutTask task.batch) task.batch true
  | flushNow =>
    rw [Happening.flightsAfter_of_call rfl, Happening.call?]
    rcases b.flushNow_cases with ⟨batch, -, hflush⟩ | ⟨-, hflush⟩
    · rw [hflush]
      exact flights_drain b batch false
    · rw [hflush]
      exact flights_drain { b with nextBatch := b.nextBatch + 1 } b.nextBatch false
  | complete outcome _ =>
    rw [Happening.flightsAfter_of_landing rfl]
    exact flights_complete b _ outcome
  | abandon =>
    rw [Happening.flightsAfter_of_landing rfl]
    exact flights_land b _
  | dispose => exact h.flights_abort.trans (Happening.flightsAfter_of_quiet rfl rfl _).symm
  | setClock => exact (Happening.flightsAfter_of_quiet rfl rfl _).symm
  | readEvents => exact (Happening.flightsAfter_of_quiet rfl rfl _).symm

theorem epoch_of_drain {batch : BatchId} {byTask : Bool}
    (h : (b.drain batch byTask).1 = some flight) : flight.epoch = b.epoch := by
  rw [fst_drain] at h
  split at h
  · cases h
  · cases h
    rfl

/-- A call is made in the epoch of the batcher. -/
theorem Step.epoch_call (step : Step guards b happening b')
    (hcall : happening.call? = some flight) : flight.epoch = b.epoch := by
  cases step with
  | @wake task _ =>
    rcases b.wake_cases task with ⟨-, hw⟩ | ⟨-, -, hw⟩ | ⟨-, -, -, hw, -⟩
    · rw [hw] at hcall
      cases hcall
    · rw [hw] at hcall
      cases hcall
    · exact epoch_of_drain (b := b.withoutTask task.batch) (hw ▸ hcall)
  | flushNow =>
    rcases b.flushNow_cases with ⟨batch, -, hflush⟩ | ⟨-, hflush⟩
    · exact epoch_of_drain (hflush ▸ hcall)
    · exact epoch_of_drain (b := { b with nextBatch := b.nextBatch + 1 }) (hflush ▸ hcall)
  | _ => cases hcall

/-- A flight that is awaited after a step was awaited before, or was called. -/
theorem Step.mem_flights {calls : List Flight} (h : Tracked calls b)
    (step : Step guards b happening b') (hflight : flight ∈ b'.flights) :
    flight ∈ b.flights ∨ happening.call? = some flight :=
  Happening.mem_flightsAfter (step.flights_eq h ▸ hflight)

/-- What lands was awaited. -/
theorem Step.landing_mem (step : Step guards b happening b')
    (h : happening.landing? = some flight) : flight ∈ b.flights := by
  cases step with
  | complete outcome awaits => exact Option.some.inj h ▸ awaits
  | abandon awaits byCaller => exact Option.some.inj h ▸ awaits
  | _ => cases h

/-! ### Epochs -/

/-- No flight is ahead of the batcher. -/
theorem Run.epoch_le (run : Run history b) : ∀ flight ∈ b.flights, flight.epoch ≤ b.epoch := by
  induction run with
  | start new =>
    rw [new]
    nofun
  | next run step ih =>
    intro flight hflight
    rw [step.epoch_eq]
    refine Nat.le_trans ?_ (Nat.le_add_right _ _)
    rcases step.mem_flights run.tracked hflight with hflight | hcall
    · exact ih flight hflight
    · exact Nat.le_of_eq (step.epoch_call hcall)

/-- What was called before is not called again. -/
theorem Later.not_hasCalled {b₁ b₂ : Batcher} (later : Later history b since b₁)
    (run : Run history b) (step : Step (History.guards (since ++ history)) b₁ happening b₂)
    (hcall : happening.call? = some flight) : history.hasCalled flight = false := by
  have hnodup := ((later.next step).run run).tracked.calls_nodup
  rw [List.cons_append, History.calls_cons, hcall, Option.toList_some, List.singleton_append,
    List.map_cons, List.nodup_cons, History.calls_append, List.map_append] at hnodup
  rw [Bool.eq_false_iff, Ne, History.hasCalled_iff]
  exact fun hmem => hnodup.1 (List.mem_append_right _ hmem)

/-- **Flights called before a teardown stay behind it.** -/
theorem Later.epoch_lt (run : Run history b)
    (later : Later (.dispose :: history) b.dispose since b') :
    ∀ flight ∈ b'.flights, history.hasCalled flight = true → flight.epoch < b'.epoch := by
  have hrun : Run (.dispose :: history) b.dispose := run.next .dispose
  induction later with
  | now =>
    -- no flight is ahead of the batcher, which has moved on by one
    intro flight hflight _
    have hflights : b.dispose.flights = b.flights := run.tracked.flights_abort
    rw [hflights] at hflight
    exact Nat.lt_succ_of_le (run.epoch_le flight hflight)
  | next later step ih =>
    intro flight hflight hcalled
    rw [step.epoch_eq]
    refine Nat.lt_of_lt_of_le ?_ (Nat.le_add_right _ _)
    rcases step.mem_flights (later.run hrun).tracked hflight with hflight | hcall
    · exact ih flight hflight hcalled
    · -- a flight that was called since has a number of its own
      have hfresh : history.hasCalled flight = false := later.not_hasCalled hrun step hcall
      rw [hcalled] at hfresh
      cases hfresh

end Batcher

end GraphWalk
