import Mathlib.Data.List.Nodup
import GraphWalk.Proofs.Batch.Run

/-!
# The numbers of batches

Every batch has a number.  A number is given to one task when its flush is scheduled,
and a batch is called under a number only while that flush is scheduled or when the
number is new; so no number is called twice, and a scheduled flush always has a task
that sleeps and has called nothing.  This is what later arguments about tasks, calls
and events rest on.

## Main definitions

* `Batcher.liveTasks` — the flush tasks of a batch that have not ended.
* `Batcher.Tracked` — how the tasks, the flights and the scheduled flush stand to the
  calls made so far.

## Main results

* `Batcher.Tracked.step`, `Batcher.Run.tracked` — every step keeps it, so it holds after
  every run.
* `Batcher.Tracked.liveTasks_eq_one` — a scheduled flush has exactly one live task.
-/

namespace GraphWalk

namespace Batcher

variable {calls : List Flight} {b b' : Batcher}

/-- The number of flush tasks of a batch that are alive: those asleep, and those that await the
answer to what they sent. -/
def liveTasks (b : Batcher) (batch : BatchId) : Nat :=
  b.tasks.countP (·.batch == batch)
    + b.flights.countP fun flight => flight.byTask && flight.batch == batch

/-- How the tasks, the flights and the scheduled flush stand to the calls made so far.  Numbers of
batches are not used twice, every flight was called and is awaited, and the scheduled flush has a
task that sleeps and has called nothing. -/
structure Tracked (calls : List Flight) (b : Batcher) : Prop where
  tasks_nodup : (b.tasks.map FlushTask.batch).Nodup
  calls_nodup : (calls.map Flight.batch).Nodup
  task_lt : ∀ task ∈ b.tasks, task.batch < b.nextBatch
  call_lt : ∀ batch ∈ calls.map Flight.batch, batch < b.nextBatch
  flight_called : ∀ flight ∈ b.flights, flight.batch ∈ calls.map Flight.batch
  flight_awaited : ∀ flight ∈ b.flights, flight.aborted = false
  scheduled_asleep : ∀ batch, b.pending.scheduled = some batch →
    ∃ task ∈ b.tasks, task.batch = batch ∧ task.aborted = false
  scheduled_unsent : ∀ batch, b.pending.scheduled = some batch → batch ∉ calls.map Flight.batch

/-! ### What single changes do -/

theorem tracked_of_isNew (h : b.IsNew) : Tracked [] b := by
  rw [h]
  constructor <;> simp

/-- A scheduled flush has exactly one live task. -/
theorem Tracked.liveTasks_eq_one (h : Tracked calls b) {batch : BatchId}
    (hs : b.pending.scheduled = some batch) : b.liveTasks batch = 1 := by
  obtain ⟨task, htask, rfl, -⟩ := h.scheduled_asleep batch hs
  have hasleep : b.tasks.countP (·.batch == task.batch) = 1 := by
    have hcount : (b.tasks.map FlushTask.batch).count task.batch = 1 :=
      List.count_eq_one_of_mem h.tasks_nodup (List.mem_map_of_mem htask)
    rwa [List.count, List.countP_map] at hcount
  -- a task that awaits an answer has called, and the scheduled one has not
  have hsent :
      b.flights.countP (fun flight => flight.byTask && flight.batch == task.batch) = 0 := by
    rw [List.countP_eq_zero]
    intro flight hflight hbatch
    rw [Bool.and_eq_true, beq_iff_eq] at hbatch
    exact h.scheduled_unsent _ hs (hbatch.2 ▸ h.flight_called flight hflight)
  rw [liveTasks, hasleep, hsent]

/-- Two tasks of one batch are the same task. -/
theorem Tracked.task_unique (h : Tracked calls b) {t u : FlushTask} (ht : t ∈ b.tasks)
    (hu : u ∈ b.tasks) (hbatch : t.batch = u.batch) : t = u :=
  List.inj_on_of_nodup_map h.tasks_nodup ht hu hbatch

/-- Tasks and flights may end and numbers may be passed over, as long as the task of the scheduled
flush stays. -/
theorem Tracked.mono (h : Tracked calls b) (htasks : b'.tasks.Sublist b.tasks)
    (hflights : ∀ flight ∈ b'.flights, flight ∈ b.flights) (hnext : b.nextBatch ≤ b'.nextBatch)
    (hscheduled : ∀ batch, b'.pending.scheduled = some batch → b.pending.scheduled = some batch ∧
      ∀ task ∈ b.tasks, task.batch = batch → task.aborted = false → task ∈ b'.tasks) :
    Tracked calls b' where
  tasks_nodup := h.tasks_nodup.sublist (htasks.map _)
  calls_nodup := h.calls_nodup
  task_lt := fun task ht => Nat.lt_of_lt_of_le (h.task_lt task (htasks.subset ht)) hnext
  call_lt := fun batch hb => Nat.lt_of_lt_of_le (h.call_lt batch hb) hnext
  flight_called := fun flight hf => h.flight_called flight (hflights flight hf)
  flight_awaited := fun flight hf => h.flight_awaited flight (hflights flight hf)
  scheduled_asleep := by
    intro batch hb
    obtain ⟨hold, hstays⟩ := hscheduled batch hb
    obtain ⟨task, ht, hbatch, hlive⟩ := h.scheduled_asleep batch hold
    exact ⟨task, hstays task ht hbatch hlive, hbatch, hlive⟩
  scheduled_unsent := fun batch hb => h.scheduled_unsent batch (hscheduled batch hb).1

/-- Nothing changes while tasks, flights, numbers and the scheduled flush stay. -/
theorem Tracked.of_eq (h : Tracked calls b) (htasks : b'.tasks = b.tasks)
    (hflights : ∀ flight ∈ b'.flights, flight ∈ b.flights) (hnext : b'.nextBatch = b.nextBatch)
    (hscheduled : b'.pending.scheduled = b.pending.scheduled) : Tracked calls b' := by
  refine h.mono (htasks ▸ List.Sublist.refl _) hflights (Nat.le_of_eq hnext.symm) fun batch hb => ?_
  rw [hscheduled] at hb
  exact ⟨hb, fun task ht _ _ => htasks ▸ ht⟩

/-- Where no flush is scheduled there is nobody to call off. -/
theorem abort_none (b : Batcher) : b.abort none = b := by
  simp [abort]

/-- Calling a task off does not end it. -/
theorem batches_abort (b : Batcher) (batch : Option BatchId) :
    (b.abort batch).tasks.map FlushTask.batch = b.tasks.map FlushTask.batch := by
  rw [abort, List.map_map]
  refine List.map_congr_left fun task _ => ?_
  rw [Function.comp_apply]
  split <;> rfl

theorem Tracked.arm (h : Tracked calls b) (hs : b.pending.scheduled = none) :
    Tracked calls b.arm := by
  have htasks : b.arm.tasks
      = b.tasks ++ [{ batch := b.nextBatch, due := b.now + b.flushDelay }] := by
    rw [tasks_arm, hs, abort_none]
  have hflights : b.arm.flights = b.flights := by rw [flights_arm, hs, abort_none]
  have hscheduled : b.arm.pending.scheduled = some b.nextBatch := by
    rw [pending_arm, PendingSet.scheduled_schedule]
  have hfresh : b.nextBatch ∉ b.tasks.map FlushTask.batch := by
    -- the next number is beyond those of all tasks
    intro hmem
    obtain ⟨task, ht, hbatch⟩ := List.mem_map.1 hmem
    exact Nat.lt_irrefl _ (hbatch ▸ h.task_lt task ht)
  constructor
  case tasks_nodup =>
    rw [htasks, List.map_append, List.map_singleton, ← List.concat_eq_append]
    exact h.tasks_nodup.concat hfresh
  case calls_nodup => exact h.calls_nodup
  case task_lt =>
    intro task ht
    rw [htasks, List.mem_append, List.mem_singleton] at ht
    rw [nextBatch_arm]
    rcases ht with ht | rfl
    · exact Nat.lt_succ_of_lt (h.task_lt task ht)
    · exact Nat.lt_succ_self _
  case call_lt =>
    intro batch hb
    rw [nextBatch_arm]
    exact Nat.lt_succ_of_lt (h.call_lt batch hb)
  case flight_called => exact hflights ▸ h.flight_called
  case flight_awaited => exact hflights ▸ h.flight_awaited
  case scheduled_asleep =>
    intro batch hb
    rw [hscheduled, Option.some.injEq] at hb
    subst hb
    exact ⟨_, htasks ▸ List.mem_append_right _ List.mem_cons_self, rfl, rfl⟩
  case scheduled_unsent =>
    intro batch hb hmem
    rw [hscheduled, Option.some.injEq] at hb
    subst hb
    exact Nat.lt_irrefl _ (h.call_lt _ hmem)

/-- A call uses a number up that no call had before. -/
theorem Tracked.drain (h : Tracked calls b) {batch : BatchId} (byTask : Bool)
    (hlt : batch < b.nextBatch) (hunsent : batch ∉ calls.map Flight.batch) :
    Tracked ((b.drain batch byTask).1.toList ++ calls) (b.drain batch byTask).2 := by
  have hnone : ∀ other, (b.drain batch byTask).2.pending.scheduled ≠ some other := by
    -- the call uses the scheduled flush up
    intro other hs
    rw [pending_drain, PendingSet.scheduled_takeBatch] at hs
    cases hs
  have hdrained : Tracked calls { (b.drain batch byTask).2 with flights := b.flights } :=
    h.mono (by rw [tasks_drain]) (fun _ hf => hf)
      (Nat.le_of_eq (nextBatch_drain b batch byTask).symm)
      fun other hs => absurd hs (hnone other)
  rw [fst_drain]
  by_cases hp : b.pending.paths = []
  · rw [if_pos hp]
    refine hdrained.of_eq rfl (fun flight hf => ?_) rfl rfl
    rwa [flights_drain, fst_drain, if_pos hp, Option.toList_none, List.append_nil] at hf
  rw [if_neg hp]
  have hflights : ∀ flight ∈ (b.drain batch byTask).2.flights,
      flight ∈ b.flights ∨ flight.batch = batch ∧ flight.aborted = false := by
    intro flight hf
    rw [flights_drain, fst_drain, if_neg hp, Option.toList_some, List.mem_append,
      List.mem_singleton] at hf
    rcases hf with hf | rfl
    · exact .inl hf
    · exact .inr ⟨rfl, rfl⟩
  constructor
  case tasks_nodup => exact hdrained.tasks_nodup
  case task_lt => exact hdrained.task_lt
  case calls_nodup => exact List.nodup_cons.2 ⟨hunsent, h.calls_nodup⟩
  case call_lt =>
    intro other hother
    rw [nextBatch_drain]
    rcases List.mem_cons.1 hother with rfl | hother
    · exact hlt
    · exact h.call_lt other hother
  case flight_called =>
    intro flight hf
    rcases hflights flight hf with hf | ⟨hbatch, -⟩
    · exact List.mem_cons_of_mem _ (h.flight_called flight hf)
    · exact hbatch ▸ List.mem_cons_self
  case flight_awaited =>
    intro flight hf
    rcases hflights flight hf with hf | ⟨-, hlive⟩
    · exact h.flight_awaited flight hf
    · exact hlive
  case scheduled_asleep => exact fun other hs => absurd hs (hnone other)
  case scheduled_unsent => exact fun other hs => absurd hs (hnone other)

/-! ### The steps -/

theorem Tracked.register (h : Tracked calls b) (path : Path) :
    Tracked calls (b.register path).2 := by
  rcases b.register_cases path with ⟨-, hr⟩ | ⟨-, b₁, rfl, hr⟩
  · rw [hr]
    exact h
  · rw [hr]
    have hb : Tracked calls { b with pending := (b.pending.insert path).2.noteActivity b.now } := by
      refine h.of_eq rfl (fun _ hf => hf) rfl ?_
      show (b.pending.insert path).2.scheduled = b.pending.scheduled
      exact b.pending.scheduled_insert path
    dsimp only
    split
    · exact hb
    · next hidle =>
      refine hb.arm ?_
      rw [Bool.or_eq_true, not_or, Bool.not_eq_true] at hidle
      exact PendingSet.isScheduled_eq_false_iff.1 hidle.1

theorem Tracked.fingerprint (h : Tracked calls b) (path : Path) (args : Dict Json) :
    Tracked calls (b.fingerprint path args).2 := by
  unfold Batcher.fingerprint
  dsimp only
  split
  · exact h.of_eq rfl (fun _ hf => hf) rfl rfl
  · exact h.of_eq rfl (fun _ hf => hf) rfl rfl

theorem Tracked.closePass (h : Tracked calls b) : Tracked calls b.closePass := by
  have hb : Tracked calls { b with pending := b.pending.closePass.2 } :=
    h.of_eq rfl (fun _ hf => hf) rfl rfl
  unfold Batcher.closePass
  dsimp only
  split
  · next hlast =>
    refine hb.arm ?_
    rw [Bool.and_eq_true, Bool.not_eq_true'] at hlast
    exact PendingSet.isScheduled_eq_false_iff.1 hlast.2
  · exact hb

theorem Tracked.flushNow (h : Tracked calls b) :
    Tracked (b.flushNow.1.toList ++ calls) b.flushNow.2 := by
  rcases b.flushNow_cases with ⟨batch, hs, hflush⟩ | ⟨hs, hflush⟩
  · rw [hflush]
    obtain ⟨task, ht, rfl, -⟩ := h.scheduled_asleep batch hs
    exact h.drain false (h.task_lt task ht) (h.scheduled_unsent _ hs)
  · rw [hflush]
    have hb : Tracked calls { b with nextBatch := b.nextBatch + 1 } :=
      h.mono (List.Sublist.refl _) (fun _ hf => hf) (Nat.le_succ _) fun batch hb =>
        absurd (hs.symm.trans hb) (by simp)
    exact hb.drain false (Nat.lt_succ_self _) fun hmem => Nat.lt_irrefl _ (h.call_lt _ hmem)

/-- A task that sleeps no longer, while its flush is not the scheduled one. -/
theorem Tracked.withoutTask (h : Tracked calls b) {task : FlushTask} (ht : task ∈ b.tasks)
    (hidle : task.aborted = true ∨ b.pending.scheduled ≠ some task.batch) :
    Tracked calls (b.withoutTask task.batch) := by
  refine h.mono List.filter_sublist (fun _ hf => hf) (Nat.le_refl _) fun batch hs => ⟨hs, ?_⟩
  intro other hother hbatch hlive
  refine List.mem_filter.2 ⟨hother, ?_⟩
  rw [bne_iff_ne]
  intro hsame
  rcases hidle with haborted | hidle
  · rw [← h.task_unique hother ht hsame, hlive] at haborted
    cases haborted
  · exact hidle (by rw [← hsame, hbatch]; exact hs)

theorem Tracked.wake (h : Tracked calls b) {task : FlushTask} (ht : task ∈ b.tasks) :
    Tracked ((b.wake task).1.toList ++ calls) (b.wake task).2 := by
  rcases b.wake_cases task with ⟨hidle, hw⟩ | ⟨hs, hpass, hw⟩ | ⟨hlive, hs, -, hcall, n, hw⟩
  · rw [hw]
    exact (h.withoutTask ht hidle).of_eq rfl (fun _ hf => hf) rfl rfl
  · rw [hw]
    refine h.mono List.filter_sublist (fun _ hf => hf) (Nat.le_refl _) fun batch hb => ?_
    cases hb
  · rw [hw, hcall]
    -- the flush is taken first, so that its task may go
    have hrest : Tracked calls { b.withoutTask task.batch with
        pending := (b.withoutTask task.batch).pending.unschedule } :=
      h.mono List.filter_sublist (fun _ hf => hf) (Nat.le_refl _) fun batch hb => by cases hb
    have hdrained := hrest.drain true (h.task_lt task ht) (h.scheduled_unsent _ hs)
    rw [drain_unschedule] at hdrained
    exact hdrained.of_eq rfl (fun _ hf => hf) rfl rfl

theorem Tracked.land (h : Tracked calls b) (flight : Flight) : Tracked calls (b.land flight) := by
  unfold Batcher.land
  dsimp only
  split
  · exact h.of_eq rfl (fun _ hf => List.mem_of_mem_filter hf) rfl rfl
  · exact h.of_eq rfl (fun _ hf => List.mem_of_mem_filter hf) rfl rfl

theorem Tracked.complete (h : Tracked calls b) (flight : Flight) (outcome : Outcome) :
    Tracked calls (b.complete flight outcome).2 := by
  rcases b.complete_cases flight outcome with ⟨state, events, hc⟩
  rw [hc]
  exact (h.land flight).of_eq rfl (fun _ hf => hf) rfl rfl

/-- Nobody awaits an answer under the number of the scheduled flush, so calling it off takes no
answer from anybody. -/
theorem Tracked.dispose (h : Tracked calls b) : Tracked calls b.dispose := by
  have hflights : ∀ flight ∈ b.dispose.flights, flight ∈ b.flights := by
    intro flight hf
    obtain ⟨other, hother, rfl⟩ := List.mem_map.1 hf
    rw [if_neg]
    · exact hother
    · rintro ⟨-, hs⟩
      exact h.scheduled_unsent _ hs.symm (h.flight_called other hother)
  have hbatches : b.dispose.tasks.map FlushTask.batch = b.tasks.map FlushTask.batch :=
    b.batches_abort b.pending.scheduled
  constructor
  case tasks_nodup => exact hbatches ▸ h.tasks_nodup
  case calls_nodup => exact h.calls_nodup
  case task_lt =>
    intro task ht
    have hmem : task.batch ∈ b.tasks.map FlushTask.batch := hbatches ▸ List.mem_map_of_mem ht
    obtain ⟨other, hother, hsame⟩ := List.mem_map.1 hmem
    exact hsame ▸ h.task_lt other hother
  case call_lt => exact h.call_lt
  case flight_called => exact fun flight hf => h.flight_called flight (hflights flight hf)
  case flight_awaited => exact fun flight hf => h.flight_awaited flight (hflights flight hf)
  case scheduled_asleep => intro batch hs; cases hs
  case scheduled_unsent => intro batch hs; cases hs

/-- What a step does to the numbers of batches. -/
theorem Tracked.step {history : History} {happening : Happening}
    (h : Tracked history.calls b) (step : Step history.guards b happening b') :
    Tracked (History.calls (happening :: history)) b' := by
  rw [History.calls_cons]
  cases step with
  | register path => exact h.register path
  | fingerprint path args => exact h.fingerprint path args
  | openPass => exact h.of_eq rfl (fun _ hf => hf) rfl rfl
  | closePass => exact h.closePass
  | wake asleep => exact h.wake asleep
  | flushNow => exact h.flushNow
  | complete outcome _ => exact h.complete _ outcome
  | abandon => exact h.land _
  | dispose => exact h.dispose
  | setClock => exact h.of_eq rfl (fun _ hf => hf) rfl rfl
  | readEvents => exact h.of_eq rfl (fun _ hf => hf) rfl rfl

theorem Run.tracked {history : History} (run : Run history b) : Tracked history.calls b := by
  induction run with
  | start new => exact tracked_of_isNew new
  | next _ step ih => exact ih.step step

end Batcher

end GraphWalk
