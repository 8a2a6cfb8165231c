import GraphWalk.Proofs.Batch.Flush
import GraphWalk.Proofs.Batch.Requests

/-!
# What a step does to what is known

The state changes with an argument change, with an answer that says so, and with a
teardown.  What it changes to is read off the happening, so the state after a run is
told by the history alone.

## Main definitions

* `Happening.effect` — what a happening makes of the state.
* `Happening.teardowns` — how many teardowns a happening is.

## Main results

* `Batcher.Step.frame` — state, merger and epoch after a step.
* `Batcher.state_fingerprint_of_changed` — what is known after an argument change.
-/

namespace GraphWalk

namespace Happening

/-- What a happening makes of the state.  An answer counts only when it says that the state
changed. -/
def effect (merger : Merger) : Happening → State → State
  | .fingerprint path _ true, s => s.evict path.fields merger.marker
  | .complete _ (.ok response) (.ok true), s => (s.absorb merger response).2
  | .dispose, s => s.reset
  | _, s => s

/-- The number of teardowns. -/
def teardowns : Happening → Nat
  | .dispose => 1
  | _ => 0

end Happening

namespace Batcher

variable {guards : Nat} {b b' : Batcher} {happening : Happening}

theorem drain_frame (b : Batcher) (batch : BatchId) (byTask : Bool) :
    (b.drain batch byTask).2.state = b.state ∧ (b.drain batch byTask).2.merger = b.merger ∧
      (b.drain batch byTask).2.epoch = b.epoch :=
  ⟨state_drain b batch byTask, merger_drain b batch byTask, epoch_drain b batch byTask⟩

/-- What is known after an answer. -/
theorem state_complete_eq (b : Batcher) (flight : Flight) (outcome : Outcome) :
    (b.complete flight outcome).2.state
      = (Happening.complete flight outcome (b.complete flight outcome).1).effect b.merger
          b.state := by
  obtain ⟨hstate, hmerger, -⟩ := b.land_frame flight
  simp only [complete]
  split
  · -- nobody waits for the answer
    cases outcome <;> exact hstate
  · cases outcome with
    | error e =>
      dsimp only
      split
      · exact hstate
      · exact (state_emit ..).trans hstate
    | ok response =>
      dsimp only
      split
      · exact hstate
      · rw [state_emit, hstate, hmerger]
        cases hchanged : (b.state.absorb b.merger response).1 with
        | true => rfl
        | false => exact State.absorb_snd_of_fst_eq_false hchanged

/-- **What a step does to what is known.**  The state changes as the happening tells, results are
merged as before, and the epoch counts the teardowns. -/
theorem Step.frame (step : Step guards b happening b') :
    b'.state = happening.effect b.merger b.state ∧ b'.merger = b.merger ∧
      b'.epoch = b.epoch + happening.teardowns := by
  cases step with
  | register path => exact b.register_frame path
  | fingerprint path args =>
    unfold Batcher.fingerprint
    dsimp only
    split
    · exact ⟨rfl, rfl, rfl⟩
    · exact ⟨rfl, rfl, rfl⟩
  | openPass => exact ⟨rfl, rfl, rfl⟩
  | closePass =>
    unfold Batcher.closePass
    dsimp only
    split
    · exact arm_frame _
    · exact ⟨rfl, rfl, rfl⟩
  | @wake task _ =>
    -- only the last of the three ways to wake sends anything
    rcases b.wake_cases task with ⟨-, hw⟩ | ⟨-, -, hw⟩ | ⟨-, -, -, -, outstanding, hw⟩
    · rw [hw]
      exact ⟨rfl, rfl, rfl⟩
    · rw [hw]
      exact ⟨rfl, rfl, rfl⟩
    · rw [hw]
      exact (b.withoutTask task.batch).drain_frame task.batch true
  | flushNow =>
    rcases b.flushNow_cases with ⟨batch, -, hflush⟩ | ⟨-, hflush⟩
    · rw [hflush]
      exact b.drain_frame batch false
    · rw [hflush]
      exact { b with nextBatch := b.nextBatch + 1 }.drain_frame b.nextBatch false
  | @complete flight outcome _ =>
    obtain ⟨-, hmerger, hepoch⟩ := b.land_frame flight
    obtain ⟨state, events, hc⟩ := b.complete_cases flight outcome
    refine ⟨b.state_complete_eq flight outcome, ?_, ?_⟩
    · rw [hc]
      exact hmerger
    · rw [hc]
      exact hepoch
  | @abandon flight _ _ => exact b.land_frame flight
  | dispose => exact ⟨rfl, rfl, rfl⟩
  | setClock => exact ⟨rfl, rfl, rfl⟩
  | readEvents => exact ⟨rfl, rfl, rfl⟩

theorem Step.state_eq (step : Step guards b happening b') :
    b'.state = happening.effect b.merger b.state := step.frame.1

theorem Step.merger_eq (step : Step guards b happening b') : b'.merger = b.merger := step.frame.2.1

theorem Step.epoch_eq (step : Step guards b happening b') :
    b'.epoch = b.epoch + happening.teardowns := step.frame.2.2

/-- An argument change evicts what is known below the path. -/
theorem state_fingerprint_of_changed {path : Path} {args : Dict Json}
    (h : (b.fingerprint path args).1 = true) :
    (b.fingerprint path args).2.state = b.state.evict path.fields b.merger.marker := by
  have step : Step 0 b _ _ := .fingerprint path args
  rw [step.state_eq, h]
  rfl

end Batcher

end GraphWalk
