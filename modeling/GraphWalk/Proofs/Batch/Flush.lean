import GraphWalk.Proofs.Batch.Numbers
import GraphWalk.Proofs.Batch.Waiting

/-!
# A flush and its answer

What waits is sent in one of two ways, and either way everything that waits goes into
one flight.  An answer that is absorbed changes the state and nothing else that a
traversal sees.

## Main definitions

* `Batcher.Flushes` — the two ways in which what waits is sent.
* `Batcher.Flushed` — what is sent and what is left.
* `Batcher.answered` — the batcher after the answer to a flush.

## Main results

* `Batcher.Flushes.flushed` — both ways send the same.
* `Batcher.state_answered` — what is known after an answer.
-/

namespace GraphWalk

namespace Batcher

variable {b b' : Batcher} {call : Option Flight}

/-- What waits is sent: by whoever asks for it, or by the task of the scheduled flush when it wakes
outside of every pass. -/
inductive Flushes (b : Batcher) : Option Flight → Batcher → Prop
  | now : Flushes b b.flushNow.1 b.flushNow.2
  | task {task : FlushTask} (asleep : task ∈ b.tasks) (live : task.aborted = false)
      (scheduled : b.pending.scheduled = some task.batch) (idle : b.pending.inPass = false) :
      Flushes b (b.wake task).1 (b.wake task).2

/-- What a flush sends and what it leaves behind. -/
structure Flushed (b : Batcher) (call : Option Flight) (b' : Batcher) : Prop where
  none_iff : call = none ↔ b.pending.paths = []
  flight : ∀ flight ∈ call, flight.paths = b.pending.paths ∧ flight.epoch = b'.epoch
  state : b'.state = b.state
  merger : b'.merger = b.merger
  paths : b'.pending.paths = []
  awaited : ∀ flight ∈ b'.flights, flight.aborted = false

theorem merger_drain (b : Batcher) (batch : BatchId) (byTask : Bool) :
    (b.drain batch byTask).2.merger = b.merger := by
  simp only [drain]
  split <;> rfl

theorem epoch_drain (b : Batcher) (batch : BatchId) (byTask : Bool) :
    (b.drain batch byTask).2.epoch = b.epoch := by
  simp only [drain]
  split <;> rfl

theorem flushed_drain (h : ∀ flight ∈ b.flights, flight.aborted = false) (batch : BatchId)
    (byTask : Bool) : Flushed b (b.drain batch byTask).1 (b.drain batch byTask).2 where
  none_iff := by
    rw [fst_drain]
    split
    · next hp => exact ⟨fun _ => hp, fun _ => rfl⟩
    · next hp => exact ⟨nofun, fun h => absurd h hp⟩
  flight := by
    intro flight hflight
    rw [fst_drain] at hflight
    split at hflight
    · cases hflight
    · cases hflight
      exact ⟨rfl, (epoch_drain b batch byTask).symm⟩
  state := state_drain b batch byTask
  merger := merger_drain b batch byTask
  paths := paths_drain b batch byTask
  awaited := by
    intro flight hflight
    rw [flights_drain, List.mem_append, Option.mem_toList] at hflight
    rcases hflight with hflight | hflight
    · exact h flight hflight
    · rw [fst_drain] at hflight
      split at hflight
      · cases hflight
      · cases hflight
        rfl

/-- Both ways send everything that waits. -/
theorem Flushes.flushed (h : b.Flushes call b')
    (hb : ∀ flight ∈ b.flights, flight.aborted = false) :
    b.Flushed call b' := by
  cases h with
  | now =>
    rcases b.flushNow_cases with ⟨batch, -, hflush⟩ | ⟨-, hflush⟩
    · rw [hflush]
      exact flushed_drain hb batch false
    · rw [hflush]
      have hdrained := flushed_drain (b := { b with nextBatch := b.nextBatch + 1 }) hb b.nextBatch
        false
      exact ⟨hdrained.none_iff, hdrained.flight, hdrained.state, hdrained.merger, hdrained.paths,
        hdrained.awaited⟩
  | @task task _ live scheduled idle =>
    rcases b.wake_cases task with ⟨hends, -⟩ | ⟨-, hpass, -⟩ | ⟨-, -, -, hcall, outstanding, hw⟩
    · rcases hends with haborted | hnot
      · rw [live] at haborted
        cases haborted
      · exact absurd scheduled hnot
    · rw [idle] at hpass
      cases hpass
    · have hdrained := flushed_drain (b := b.withoutTask task.batch) hb task.batch true
      rw [hcall, hw]
      exact ⟨hdrained.none_iff, hdrained.flight, hdrained.state, hdrained.merger, hdrained.paths,
        hdrained.awaited⟩

/-! ### The answer -/

/-- The batcher after the answer to a flush.  When nothing was sent there is no answer. -/
def answered (b : Batcher) (call : Option Flight) (response : Json) : Batcher :=
  match call with
  | some flight => (b.complete flight (.ok response)).2
  | none => b

theorem land_frame (b : Batcher) (flight : Flight) :
    (b.land flight).state = b.state ∧ (b.land flight).merger = b.merger ∧
      (b.land flight).epoch = b.epoch := by
  unfold land
  dsimp only
  split <;> exact ⟨rfl, rfl, rfl⟩

theorem isAborted_eq_false (h : ∀ other ∈ b.flights, other.aborted = false) (flight : Flight) :
    b.isAborted flight = false := by
  rw [isAborted, List.any_eq_false]
  intro other hother
  rw [h other hother, Bool.and_false]
  exact Bool.false_ne_true

/-- An answer that somebody waits for is absorbed. -/
theorem state_complete {flight : Flight} {response : Json}
    (hawaited : ∀ other ∈ b.flights, other.aborted = false) (hepoch : flight.epoch = b.epoch) :
    (b.complete flight (.ok response)).2.state = (b.state.absorb b.merger response).2 := by
  obtain ⟨hstate, hmerger, hland⟩ := b.land_frame flight
  unfold complete
  dsimp only
  rw [isAborted_eq_false hawaited, if_neg Bool.false_ne_true, if_neg, state_emit, hstate, hmerger]
  rw [bne_iff_ne, hland, hepoch]
  exact fun h => h rfl

theorem pending_complete (b : Batcher) (flight : Flight) (outcome : Outcome) :
    (b.complete flight outcome).2.pending = b.pending := by
  obtain ⟨state, events, hc⟩ := b.complete_cases flight outcome
  rw [hc]
  exact pending_land b flight

theorem pending_answered (b : Batcher) (call : Option Flight) (response : Json) :
    (b.answered call response).pending = b.pending := by
  cases call with
  | none => rfl
  | some flight => exact pending_complete b flight _

/-- What is known after an answer to a flush. -/
theorem Flushed.state_answered {flight : Flight} (h : b.Flushed (some flight) b')
    (response : Json) :
    (b'.answered (some flight) response).state = (b.state.absorb b.merger response).2 := by
  rw [answered, state_complete h.awaited (h.flight flight rfl).2, h.state, h.merger]

end Batcher

end GraphWalk
