import Mathlib.Data.List.Perm.Basic
import GraphWalk.Proofs.Batch.Later
import GraphWalk.Proofs.Batch.Schedule

/-!
# What settled means

A batcher counts the flush tasks that have not ended.  A task is counted from the moment it is
armed until it ends, and it ends in one of many ways: it was called off, its batch was taken over,
a pass was open, nothing waited, or the answer to its batch came.  Whichever it is, the count goes
down by one, so it always is the number of the tasks that are alive.

When none is alive no flush is scheduled, so whatever waits is held back by a pass, and whatever
is on its way was sent by somebody else than a task.

## Main definitions

* `Batcher.live` — the batches whose flush tasks are alive.
* `Batcher.Turnover` — what a step can do to the tasks that are alive.

## Main results

* `Batcher.Step.turnover`, `Batcher.Run.counted` — every step counts right.
* `Batcher.settled_leaves` — **what the count says, and what is left when it is zero.**
-/

namespace GraphWalk

namespace Batcher

variable {guards : Nat} {history : History} {calls : List Flight} {b b' : Batcher}
  {happening : Happening} {task : FlushTask} {flight : Flight}

/-- The batches whose flush tasks are alive: the tasks that are asleep, called off or not, and those
that await the answer to what they sent. -/
def live (b : Batcher) : List BatchId :=
  b.tasks.map FlushTask.batch ++ (b.flights.filter Flight.byTask).map Flight.batch

/-! ### The counter -/

theorem outstanding_emit (b : Batcher) (batch : BatchId) (kind : EventKind) :
    (b.emit batch kind).outstanding = b.outstanding := by
  unfold emit
  split <;> rfl

theorem outstanding_arm (b : Batcher) : b.arm.outstanding = b.outstanding + 1 :=
  outstanding_emit ..

theorem outstanding_drain (b : Batcher) (batch : BatchId) (byTask : Bool) :
    (b.drain batch byTask).2.outstanding = b.outstanding := by
  simp only [drain]
  split <;> rfl

/-- A task that wakes is counted no longer, unless it has sent something. -/
theorem outstanding_wake (b : Batcher) (task : FlushTask) :
    (b.wake task).2.outstanding = b.outstanding - (b.wake task).1.isNone.toNat := by
  unfold wake
  dsimp only
  split
  · rfl
  · split
    · rfl
    · have hcount := outstanding_drain (b.withoutTask task.batch) task.batch true
      rcases hdrain : (b.withoutTask task.batch).drain task.batch true with ⟨_ | flight, drained⟩
      · rw [hdrain] at hcount
        exact congrArg (· - 1) hcount
      · rw [hdrain] at hcount
        exact hcount

theorem outstanding_flushNow (b : Batcher) : b.flushNow.2.outstanding = b.outstanding := by
  rcases b.flushNow_cases with ⟨batch, -, hflush⟩ | ⟨-, hflush⟩
  · rw [hflush, outstanding_drain]
  · rw [hflush, outstanding_drain]

theorem outstanding_land (b : Batcher) (flight : Flight) :
    (b.land flight).outstanding = b.outstanding - flight.byTask.toNat := by
  unfold land
  cases flight.byTask <;> rfl

theorem outstanding_complete (b : Batcher) (flight : Flight) (outcome : Outcome) :
    (b.complete flight outcome).2.outstanding = b.outstanding - flight.byTask.toNat := by
  obtain ⟨state, events, hc⟩ := b.complete_cases flight outcome
  rw [hc]
  exact outstanding_land b flight

/-! ### The tasks that are alive -/

theorem tasks_wake (b : Batcher) (task : FlushTask) :
    (b.wake task).2.tasks = b.tasks.filter fun other => other.batch != task.batch := by
  rcases b.wake_cases task with ⟨-, hw⟩ | ⟨-, -, hw⟩ | ⟨-, -, -, -, outstanding, hw⟩
  · rw [hw]
    rfl
  · rw [hw]
    rfl
  · rw [hw]
    exact tasks_drain (b.withoutTask task.batch) task.batch true

theorem byTask_of_drain {batch : BatchId} {byTask : Bool}
    (h : (b.drain batch byTask).1 = some flight) :
    flight.batch = batch ∧ flight.byTask = byTask := by
  rw [fst_drain] at h
  split at h
  · cases h
  · cases h
    exact ⟨rfl, rfl⟩

/-- What a task sends is its own. -/
theorem byTask_of_wake (h : (b.wake task).1 = some flight) :
    flight.batch = task.batch ∧ flight.byTask = true := by
  rcases b.wake_cases task with ⟨-, hw⟩ | ⟨-, -, hw⟩ | ⟨-, -, -, hcall, -⟩
  · rw [hw] at h
    cases h
  · rw [hw] at h
    cases h
  · exact byTask_of_drain (hcall.symm.trans h)

/-- What somebody flushes is no task's. -/
theorem byTask_of_flushNow (h : b.flushNow.1 = some flight) : flight.byTask = false := by
  rcases b.flushNow_cases with ⟨batch, -, hflush⟩ | ⟨-, hflush⟩
  · rw [hflush] at h
    exact (byTask_of_drain h).2
  · rw [hflush] at h
    exact (byTask_of_drain h).2

theorem tasks_land (b : Batcher) (flight : Flight) : (b.land flight).tasks = b.tasks := by
  unfold land
  dsimp only
  split <;> rfl

/-- A number that is there once is taken out by a filter. -/
theorem perm_cons_filter {batches : List BatchId} (h : batches.Nodup) {batch : BatchId}
    (hmem : batch ∈ batches) : batches.Perm (batch :: batches.filter (· != batch)) := by
  rw [← h.erase_eq_filter]
  exact List.perm_cons_erase hmem

/-- Flights bear different numbers. -/
theorem Run.flights_nodup (run : Run history b) : (b.flights.map Flight.batch).Nodup := by
  induction run with
  | start new =>
    rw [new]
    exact List.nodup_nil
  | @next history b b' happening run step ih =>
    have hnodup := (run.next step).tracked.calls_nodup
    rw [History.calls_cons] at hnodup
    rw [step.flights_eq run.tracked, Happening.flightsAfter]
    have hrest : ((b.flights.filter fun flight => !happening.lands flight).map
        Flight.batch).Nodup := ih.sublist (List.filter_sublist.map _)
    cases hcall : happening.call? with
    | none =>
      rw [Option.toList_none, List.append_nil]
      exact hrest
    | some call =>
      rw [hcall, Option.toList_some, List.singleton_append, List.map_cons,
        List.nodup_cons] at hnodup
      rw [Option.toList_some, List.map_append, List.map_singleton, ← List.concat_eq_append]
      refine hrest.concat fun hmem => hnodup.1 ?_
      -- the number of a call is on no flight from before
      obtain ⟨flight, hflight, hbatch⟩ := List.mem_map.1 hmem
      exact hbatch ▸ run.tracked.flight_called flight (List.mem_of_mem_filter hflight)

/-- What a step can do to the tasks that are alive. -/
inductive Turnover (b b' : Batcher) : Prop
  /-- The same tasks are alive, one of which may have sent what waited. -/
  | kept (live : b'.live.Perm b.live) (outstanding : b'.outstanding = b.outstanding)
  /-- A task is armed for a new batch. -/
  | armed (live : b'.live.Perm (b.nextBatch :: b.live))
      (outstanding : b'.outstanding = b.outstanding + 1)
  /-- A task ends. -/
  | ended (batch : BatchId) (live : b.live.Perm (batch :: b'.live))
      (outstanding : b'.outstanding = b.outstanding - 1)

/-- Nothing happens to tasks, flights and their count. -/
theorem Turnover.of_eq (htasks : b'.tasks.map FlushTask.batch = b.tasks.map FlushTask.batch)
    (hflights : b'.flights = b.flights) (hcount : b'.outstanding = b.outstanding) :
    Turnover b b' := by
  refine .kept ?_ hcount
  rw [live, live, htasks, hflights]

theorem Turnover.arm {b₁ : Batcher} (hs : b₁.pending.scheduled = none)
    (htasks : b₁.tasks = b.tasks) (hflights : b₁.flights = b.flights)
    (hnext : b₁.nextBatch = b.nextBatch) (hcount : b₁.outstanding = b.outstanding) :
    Turnover b b₁.arm := by
  refine .armed ?_ ?_
  · rw [live, live, tasks_arm, flights_arm, hs, abort_none, htasks, hflights, hnext,
      List.map_append, List.map_singleton, List.append_assoc, List.singleton_append]
    exact List.perm_middle
  · rw [outstanding_arm, hcount]

theorem turnover_register (b : Batcher) (path : Path) : Turnover b (b.register path).2 := by
  rcases b.register_cases path with ⟨-, hr⟩ | ⟨-, b₁, hb₁, hr⟩
  · rw [hr]
    exact .of_eq rfl rfl rfl
  · rw [hr]
    dsimp only
    split
    · rw [hb₁]
      exact .of_eq rfl rfl rfl
    · next hidle =>
      have hs : b₁.pending.scheduled = none := by
        rw [Bool.or_eq_true, not_or, Bool.not_eq_true] at hidle
        exact PendingSet.isScheduled_eq_false_iff.1 hidle.1
      subst hb₁
      exact .arm hs rfl rfl rfl rfl

theorem turnover_closePass (b : Batcher) : Turnover b b.closePass := by
  unfold closePass
  dsimp only
  split
  · next hlast =>
    refine .arm ?_ rfl rfl rfl rfl
    rw [Bool.and_eq_true, Bool.not_eq_true'] at hlast
    exact PendingSet.isScheduled_eq_false_iff.1 hlast.2
  · exact .of_eq rfl rfl rfl

/-- A task that wakes ends, or lives on with what it sent. -/
theorem Tracked.turnover_wake (h : Tracked calls b) (htask : task ∈ b.tasks) :
    Turnover b (b.wake task).2 := by
  have hstep : Step 0 b (.wake task (b.wake task).1) (b.wake task).2 := .wake htask
  have hflights : (b.wake task).2.flights = b.flights ++ (b.wake task).1.toList :=
    (hstep.flights_eq h).trans (Happening.flightsAfter_of_call rfl _)
  have hbatches : ((b.wake task).2.tasks.map FlushTask.batch)
      = (b.tasks.map FlushTask.batch).filter (· != task.batch) := by
    rw [tasks_wake, List.filter_map]
    rfl
  have hasleep := perm_cons_filter h.tasks_nodup (List.mem_map_of_mem htask)
  cases hcall : (b.wake task).1 with
  | none =>
    refine .ended task.batch ?_ ?_
    · rw [live, live, hbatches, hflights, hcall, Option.toList_none, List.append_nil]
      exact hasleep.append_right _
    · rw [outstanding_wake, hcall]
      rfl
  | some call =>
    obtain ⟨hbatch, hbyTask⟩ := byTask_of_wake hcall
    refine .kept ?_ ?_
    · rw [live, live, hbatches, hflights, hcall, Option.toList_some, List.filter_append,
        List.map_append, List.filter_singleton, hbyTask, cond_true, List.map_singleton, hbatch,
        ← List.append_assoc]
      -- the number passes from the task that slept to what it sent
      exact (List.perm_append_singleton _ _).trans ((hasleep.append_right _).symm)
    · rw [outstanding_wake, hcall]
      rfl

theorem Tracked.turnover_flushNow (h : Tracked calls b) : Turnover b b.flushNow.2 := by
  have hstep : Step 0 b (.flushNow b.flushNow.1) b.flushNow.2 := .flushNow
  have hflights : b.flushNow.2.flights = b.flights ++ b.flushNow.1.toList :=
    (hstep.flights_eq h).trans (Happening.flightsAfter_of_call rfl _)
  have htasks : b.flushNow.2.tasks = b.tasks := by
    rcases b.flushNow_cases with ⟨batch, -, hflush⟩ | ⟨-, hflush⟩
    · rw [hflush, tasks_drain]
    · rw [hflush, tasks_drain]
  refine .kept ?_ (outstanding_flushNow b)
  rw [live, live, htasks, hflights, List.filter_append]
  cases hcall : b.flushNow.1 with
  | none => rw [Option.toList_none, List.filter_nil, List.append_nil]
  | some call =>
    rw [Option.toList_some, List.filter_singleton, byTask_of_flushNow hcall, cond_false,
      List.append_nil]

/-- The end of a flight is the end of the task that sent it. -/
theorem turnover_landing (hnodup : (b.flights.map Flight.batch).Nodup) (hmem : flight ∈ b.flights)
    (htasks : b'.tasks = b.tasks)
    (hflights : b'.flights = b.flights.filter fun other => other.batch != flight.batch)
    (hcount : b'.outstanding = b.outstanding - flight.byTask.toNat) : Turnover b b' := by
  have hsent : (b'.flights.filter Flight.byTask).map Flight.batch
      = ((b.flights.filter Flight.byTask).map Flight.batch).filter (· != flight.batch) := by
    rw [hflights, List.filter_map, List.filter_filter, List.filter_filter]
    refine congrArg _ (List.filter_congr fun other _ => ?_)
    exact Bool.and_comm _ _
  cases hbyTask : flight.byTask with
  | true =>
    refine .ended flight.batch ?_ (by rw [hcount, hbyTask]; rfl)
    have hsentNodup : ((b.flights.filter Flight.byTask).map Flight.batch).Nodup :=
      hnodup.sublist (List.filter_sublist.map _)
    have hthere : flight.batch ∈ (b.flights.filter Flight.byTask).map Flight.batch :=
      List.mem_map_of_mem (List.mem_filter.2 ⟨hmem, hbyTask⟩)
    rw [live, live, htasks, hsent]
    exact ((perm_cons_filter hsentNodup hthere).append_left _).trans List.perm_middle
  | false =>
    refine .kept ?_ (by rw [hcount, hbyTask]; rfl)
    rw [live, live, htasks, hsent, List.filter_eq_self.2]
    -- no task's flight bears the number of this one
    intro batch hbatch
    obtain ⟨other, hother, rfl⟩ := List.mem_map.1 hbatch
    obtain ⟨hother, hbyOther⟩ := List.mem_filter.1 hother
    rw [bne_iff_ne]
    intro hsame
    obtain rfl := List.inj_on_of_nodup_map hnodup hother hmem hsame
    exact Bool.false_ne_true (hbyTask.symm.trans hbyOther)

/-- **What a step does to the tasks that are alive.** -/
theorem Step.turnover (step : Step guards b happening b') (h : Tracked calls b)
    (hnodup : (b.flights.map Flight.batch).Nodup) : Turnover b b' := by
  cases step with
  | register path => exact b.turnover_register path
  | fingerprint path args =>
    unfold Batcher.fingerprint
    dsimp only
    split
    · exact .of_eq rfl rfl rfl
    · exact .of_eq rfl rfl rfl
  | openPass => exact .of_eq rfl rfl rfl
  | closePass => exact b.turnover_closePass
  | wake asleep => exact h.turnover_wake asleep
  | flushNow => exact h.turnover_flushNow
  | @complete flight outcome awaits =>
    obtain ⟨state, events, hc⟩ := b.complete_cases flight outcome
    refine turnover_landing hnodup awaits ?_ (flights_complete b flight outcome)
      (outstanding_complete b flight outcome)
    rw [hc]
    exact tasks_land b flight
  | @abandon flight awaits _ =>
    exact turnover_landing hnodup awaits (tasks_land b flight) (flights_land b flight)
      (outstanding_land b flight)
  | dispose =>
    refine .of_eq ?_ h.flights_abort rfl
    exact b.batches_abort b.pending.scheduled
  | setClock => exact .of_eq rfl rfl rfl
  | readEvents => exact .of_eq rfl rfl rfl

/-! ### Runs -/

/-- The count is that of the tasks that are alive, and none of them is counted twice. -/
structure Counted (b : Batcher) : Prop where
  nodup : b.live.Nodup
  outstanding : b.outstanding = b.live.length

theorem counted_of_isNew (h : b.IsNew) : Counted b := by
  rw [h]
  exact ⟨List.nodup_nil, rfl⟩

/-- The number of the next batch is no live task's. -/
theorem Tracked.nextBatch_notMem_live (h : Tracked calls b) : b.nextBatch ∉ b.live := by
  intro hmem
  rw [live, List.mem_append, List.mem_map, List.mem_map] at hmem
  rcases hmem with ⟨task, htask, hbatch⟩ | ⟨flight, hflight, hbatch⟩
  · exact Nat.lt_irrefl _ (hbatch ▸ h.task_lt task htask)
  · have hcalled := h.flight_called flight (List.mem_of_mem_filter hflight)
    exact Nat.lt_irrefl _ (hbatch ▸ h.call_lt _ hcalled)

theorem Counted.step (h : Counted b) (hfresh : b.nextBatch ∉ b.live) (turnover : Turnover b b') :
    Counted b' := by
  cases turnover with
  | kept live outstanding =>
    exact ⟨live.nodup_iff.2 h.nodup, by rw [outstanding, h.outstanding, live.length_eq]⟩
  | armed live outstanding =>
    refine ⟨live.nodup_iff.2 (List.nodup_cons.2 ⟨hfresh, h.nodup⟩), ?_⟩
    rw [outstanding, h.outstanding, live.length_eq, List.length_cons]
  | ended batch live outstanding =>
    refine ⟨(List.nodup_cons.1 (live.nodup_iff.1 h.nodup)).2, ?_⟩
    rw [outstanding, h.outstanding, live.length_eq, List.length_cons, Nat.add_sub_cancel]

theorem Run.counted (run : Run history b) : Counted b := by
  induction run with
  | start new => exact counted_of_isNew new
  | next run step ih =>
    exact ih.step run.tracked.nextBatch_notMem_live (step.turnover run.tracked run.flights_nodup)

/-- Whatever awaits its answer and is no task's was flushed by somebody. -/
theorem Run.flushed_of_byTask_eq_false (run : Run history b) :
    ∀ flight ∈ b.flights, flight.byTask = false → .flushNow (some flight) ∈ history := by
  induction run with
  | start new =>
    rw [new]
    exact nofun
  | next run step ih =>
    intro flight hflight hbyTask
    rcases step.mem_flights run.tracked hflight with hflight | hcall
    · exact List.mem_cons_of_mem _ (ih flight hflight hbyTask)
    · cases step with
      | wake asleep =>
        exact absurd (hbyTask.symm.trans (byTask_of_wake hcall).2) Bool.false_ne_true
      | flushNow =>
        rw [show (Batcher.flushNow _).1 = some flight from hcall]
        exact List.mem_cons_self
      | _ => cases hcall

/-- **What the count says, and what is left when it is zero.**

After any run the count of flush tasks is the number of tasks that are alive.  So a task that ends
always takes one away: one that wakes and sends nothing, or one whose answer comes.  When the count
is zero no flush is scheduled, everything that awaits an answer was flushed by somebody, and paths
wait only while a pass is held open. -/
theorem settled_leaves (run : Run history b) :
    (b.live.Nodup ∧ b.outstanding = b.live.length) ∧
    (∀ task ∈ b.tasks,
      (b.wake task).2.outstanding + (b.wake task).1.isNone.toNat = b.outstanding) ∧
    (∀ flight ∈ b.flights, ∀ outcome,
      (b.complete flight outcome).2.outstanding + flight.byTask.toNat = b.outstanding) ∧
    (b.isSettled = true →
      b.pending.scheduled = none ∧
      (∀ flight ∈ b.flights, .flushNow (some flight) ∈ history) ∧
      (b.pending.paths ≠ [] → 0 < history.guards)) := by
  have hcounted := run.counted
  have hasleep : ∀ task ∈ b.tasks, 0 < b.outstanding := by
    intro task htask
    rw [hcounted.outstanding]
    exact List.length_pos_of_mem (List.mem_append_left _ (List.mem_map_of_mem htask))
  have hawaiting : ∀ flight ∈ b.flights, flight.byTask = true → 0 < b.outstanding := by
    intro flight hflight hbyTask
    rw [hcounted.outstanding]
    have hsent := List.mem_map_of_mem (f := Flight.batch) (List.mem_filter.2 ⟨hflight, hbyTask⟩)
    exact List.length_pos_of_mem (List.mem_append_right _ hsent)
  refine ⟨⟨hcounted.nodup, hcounted.outstanding⟩, ?_, ?_, ?_⟩
  · intro task htask
    rw [outstanding_wake]
    exact Nat.sub_add_cancel (Nat.le_trans (Bool.toNat_le _) (hasleep task htask))
  · intro flight hflight outcome
    rw [outstanding_complete]
    cases hbyTask : flight.byTask with
    | false => rfl
    | true => exact Nat.sub_add_cancel (hawaiting flight hflight hbyTask)
  · intro hsettled
    rw [isSettled, beq_iff_eq] at hsettled
    have hidle : b.pending.scheduled = none := by
      by_contra hscheduled
      obtain ⟨batch, hbatch⟩ := Option.ne_none_iff_exists'.1 hscheduled
      obtain ⟨task, htask, -, -⟩ := run.tracked.scheduled_asleep batch hbatch
      exact Nat.ne_of_gt (hasleep task htask) hsettled
    refine ⟨hidle, fun flight hflight => ?_, fun hwaits => Nat.pos_of_ne_zero fun hclosed => ?_⟩
    · refine run.flushed_of_byTask_eq_false flight hflight (Bool.eq_false_iff.2 fun hbyTask => ?_)
      exact Nat.ne_of_gt (hawaiting flight hflight hbyTask) hsettled
    · -- without a pass what waits has its flush scheduled
      have hscheduled : b.pending.isScheduled = true :=
        run.held.armed hwaits (run.held.passes.trans hclosed)
      rw [PendingSet.isScheduled, hidle] at hscheduled
      cases hscheduled

/-- A flush is taken over by somebody whose answer is still to come, and its task ends with nothing
to send.  Then the batcher is settled; what is asked for in a pass waits. -/
theorem settled_leaves_taken_over :
    let item := Path.ofFields ["item", "name"]
    let call : Flight := { batch := 0, epoch := 0, paths := [item], byTask := false }
    let task : FlushTask := { batch := 0, due := 0 }
    let ended : Batcher := ((({} : Batcher).register item).2.flushNow.2.wake task).2
    let held : Batcher := (ended.openPass.register item).2
    let history : History :=
      [.register item true, .openPass, .wake task none, .flushNow (some call), .register item true]
    Run history held ∧ held.isSettled = true ∧ held.flights = [call] ∧
      .flushNow (some call) ∈ history ∧ held.pending.paths = [item] ∧ 0 < history.guards := by
  intro item call task ended held history
  have new : IsNew {} := rfl
  have run : Run history held :=
    .next (.next (.next (.next (.next (.start new) (.register item)) .flushNow)
      (.wake List.mem_cons_self)) .openPass) (.register item)
  have hflights : held.flights = [call] := rfl
  have hpaths : held.pending.paths = [item] := rfl
  obtain ⟨-, -, -, hsettled⟩ := settled_leaves run
  obtain ⟨-, hflushed, hguards⟩ := hsettled rfl
  refine ⟨run, rfl, hflights, ?_, hpaths, ?_⟩
  · exact hflushed call (hflights ▸ List.mem_cons_self)
  · exact hguards (hpaths ▸ List.cons_ne_nil _ _)

end Batcher

end GraphWalk
