import GraphWalk.Proofs.Batch.Numbers

/-!
# Scheduled flushes

Whenever a path waits and no pass is held open, a flush is scheduled, and a scheduled
flush is as good as its word: exactly one task is alive for it, which sleeps, was not
called off and has not sent anything.  So a path that waits is sent when that task
wakes, and calling a task off never loses a batch that is on its way.

## Main definitions

* `Batcher.Armed`, `Batcher.Held` — a flush is scheduled when something waits, and the
  open passes are those that are held.

## Main results

* `Batcher.waiting_paths_flush` — no path that waits can get stuck.
-/

namespace GraphWalk

namespace Batcher

variable {b b' : Batcher} {guards : Nat}

/-- A flush is scheduled when something waits and no pass is open. -/
def Armed (b : Batcher) : Prop :=
  b.pending.paths ≠ [] → b.pending.openPasses = 0 → b.pending.isScheduled = true

/-! ### What waits has a flush -/

@[simp] theorem openPasses_arm (b : Batcher) : b.arm.pending.openPasses = b.pending.openPasses := by
  rw [pending_arm]
  rfl

/-- Arming a flush is enough, whatever waits. -/
theorem armed_arm (b : Batcher) : Armed b.arm := by
  intro _ _
  rw [pending_arm]
  rfl

/-- As many passes are open as are held open, and what waits has a flush. -/
structure Held (guards : Nat) (b : Batcher) : Prop where
  passes : b.pending.openPasses = guards
  armed : Armed b

theorem held_of_isNew (h : b.IsNew) : Held 0 b := by
  rw [h]
  exact ⟨rfl, fun hp => absurd rfl hp⟩

/-- With nothing waiting there is nothing to arm. -/
theorem Held.of_paths_eq_nil (hpasses : b.pending.openPasses = guards) (hp : b.pending.paths = []) :
    Held guards b :=
  ⟨hpasses, fun hne => absurd hp hne⟩

theorem Held.of_eq (h : Held guards b) (hp : b'.pending = b.pending) : Held guards b' := by
  refine ⟨hp ▸ h.passes, ?_⟩
  rw [Armed, hp]
  exact h.armed

theorem Held.register (h : Held guards b) (path : Path) : Held guards (b.register path).2 := by
  rcases b.register_cases path with ⟨-, hr⟩ | ⟨-, b₁, rfl, hr⟩
  · rw [hr]
    exact h
  · rw [hr]
    have hpasses : ((b.pending.insert path).2.noteActivity b.now).openPasses = guards := by
      rw [← h.passes]
      exact b.pending.openPasses_insert path
    dsimp only
    split
    · next hbusy =>
      refine ⟨hpasses, fun _ hopen => ?_⟩
      rw [Bool.or_eq_true, PendingSet.inPass, decide_eq_true_iff] at hbusy
      rcases hbusy with hs | hpass
      · exact hs
      · exact absurd hopen (Nat.ne_of_gt hpass)
    · exact ⟨(openPasses_arm _).trans hpasses, armed_arm _⟩

theorem Held.fingerprint (h : Held guards b) (path : Path) (args : Dict Json) :
    Held guards (b.fingerprint path args).2 := by
  unfold Batcher.fingerprint
  dsimp only
  split
  · exact ⟨h.passes, h.armed⟩
  · refine ⟨h.passes, fun hne hopen => h.armed (fun hp => hne ?_) hopen⟩
    show b.pending.paths.filter _ = []
    rw [hp, List.filter_nil]

theorem Held.closePass (h : Held guards b) : Held (guards - 1) b.closePass := by
  have hpasses : b.pending.closePass.2.openPasses = guards - 1 := by
    show b.pending.openPasses - 1 = guards - 1
    rw [h.passes]
  unfold Batcher.closePass
  dsimp only
  split
  · exact ⟨(openPasses_arm _).trans hpasses, armed_arm _⟩
  · next hidle =>
    refine ⟨hpasses, fun hne hopen => ?_⟩
    rw [Bool.and_eq_true, Bool.and_eq_true, not_and, Bool.not_eq_true, Bool.not_eq_false'] at hidle
    refine hidle ⟨beq_iff_eq.2 hopen, ?_⟩
    rw [Bool.not_eq_true', PendingSet.isEmpty, List.isEmpty_eq_false_iff]
    exact hne

theorem Held.flushNow (h : Held guards b) : Held guards b.flushNow.2 := by
  rcases b.flushNow_cases with ⟨batch, -, hflush⟩ | ⟨-, hflush⟩
  · rw [hflush]
    exact .of_paths_eq_nil (by rw [pending_drain]; exact h.passes) (by rw [pending_drain]; rfl)
  · rw [hflush]
    exact .of_paths_eq_nil (by rw [pending_drain]; exact h.passes) (by rw [pending_drain]; rfl)

/-- A flush that a task gives up is not missed: the pass that made it do so is still open. -/
theorem Held.wake (h : Held guards b) (task : FlushTask) : Held guards (b.wake task).2 := by
  rcases b.wake_cases task with ⟨-, hw⟩ | ⟨-, hpass, hw⟩ | ⟨-, -, -, -, n, hw⟩
  · rw [hw]
    exact h.of_eq rfl
  · rw [hw]
    refine ⟨h.passes, fun _ hopen => ?_⟩
    rw [PendingSet.inPass, decide_eq_true_iff] at hpass
    exact absurd hopen (Nat.ne_of_gt hpass)
  · rw [hw]
    refine .of_paths_eq_nil ?_ ?_
    · show ((b.withoutTask task.batch).drain task.batch true).2.pending.openPasses = guards
      rw [pending_drain]
      exact h.passes
    · show ((b.withoutTask task.batch).drain task.batch true).2.pending.paths = []
      rw [pending_drain]
      rfl

theorem Held.land (h : Held guards b) (flight : Flight) : Held guards (b.land flight) := by
  refine h.of_eq ?_
  unfold Batcher.land
  dsimp only
  split <;> rfl

theorem Held.step {history : History} {happening : Happening} (h : Held history.guards b)
    (step : Step history.guards b happening b') :
    Held (History.guards (happening :: history)) b' := by
  cases step with
  | register path => exact h.register path
  | fingerprint path args => exact h.fingerprint path args
  | openPass => exact ⟨congrArg (· + 1) h.passes, fun _ hopen => absurd hopen (Nat.succ_ne_zero _)⟩
  | closePass => exact h.closePass
  | wake => exact h.wake _
  | flushNow => exact h.flushNow
  | @complete flight outcome _ =>
    obtain ⟨state, events, hc⟩ := b.complete_cases flight outcome
    rw [hc]
    exact (h.land flight).of_eq rfl
  | abandon => exact h.land _
  | dispose => exact .of_paths_eq_nil h.passes rfl
  | setClock => exact h.of_eq rfl
  | readEvents => exact h.of_eq rfl

theorem Run.held {history : History} (run : Run history b) : Held history.guards b := by
  induction run with
  | start new => exact held_of_isNew new
  | next _ step ih => exact ih.step step

/-- **No path that waits can get stuck.**

After any run: while a path waits and no pass is held open a flush is scheduled; a scheduled flush
has exactly one live task, which sleeps, was not called off and whose batch the transport was not
called for, and once no pass is held open that task sends everything that waits when it wakes.  No
batch that awaits its answer was called off. -/
theorem waiting_paths_flush {history : History} (run : Run history b) :
    (b.pending.paths ≠ [] → history.guards = 0 → b.pending.isScheduled = true) ∧
    (∀ batch, b.pending.scheduled = some batch →
      b.liveTasks batch = 1 ∧ batch ∉ history.calls.map Flight.batch ∧
      ∃ task ∈ b.tasks, task.batch = batch ∧ task.aborted = false ∧
        (history.guards = 0 → b.pending.paths ≠ [] →
          ∃ call, (b.wake task).1 = some call ∧ call.paths = b.pending.paths)) ∧
    ∀ flight ∈ b.flights, flight.aborted = false := by
  have htracked := run.tracked
  have hheld := run.held
  refine ⟨?_, ?_, htracked.flight_awaited⟩
  · intro hne hguards
    exact hheld.armed hne (hheld.passes.trans hguards)
  · intro batch hs
    obtain ⟨task, ht, rfl, hlive⟩ := htracked.scheduled_asleep batch hs
    refine ⟨htracked.liveTasks_eq_one hs, htracked.scheduled_unsent _ hs, task, ht, rfl, hlive, ?_⟩
    intro hguards hne
    rcases b.wake_cases task with ⟨hidle, -⟩ | ⟨-, hpass, -⟩ | ⟨-, -, -, hcall, -⟩
    · rcases hidle with haborted | hidle
      · exact absurd (hlive.symm.trans haborted) (by simp)
      · exact absurd hs hidle
    · rw [PendingSet.inPass, hheld.passes, hguards] at hpass
      cases hpass
    · rw [hcall, fst_drain]
      exact ⟨_, if_neg hne, rfl⟩

/-- A request is registered, its task wakes inside a pass and gives the flush up, and closing the
pass schedules a flush anew. -/
theorem waiting_paths_flush_after_pass :
    let item := Path.ofFields ["item", "name"]
    let requested : Batcher := (({} : Batcher).register item).2
    let deferred : Batcher := (requested.openPass.wake { batch := 0, due := 0 }).2
    Run [.closePass, .wake { batch := 0, due := 0 } none, .openPass, .register item true]
        deferred.closePass ∧
      deferred.closePass.pending.isScheduled = true ∧ deferred.closePass.liveTasks 1 = 1 := by
  intro item requested deferred
  have new : IsNew {} := rfl
  have run : Run [.closePass, .wake { batch := 0, due := 0 } none, .openPass, .register item true]
      deferred.closePass :=
    .next (.next (.next (.next (.start new) (.register item)) .openPass)
      (.wake List.mem_cons_self)) (.closePass Nat.one_pos)
  have hwaits := waiting_paths_flush run
  exact ⟨run, hwaits.1 (List.cons_ne_nil _ _) rfl, (hwaits.2.1 1 rfl).1⟩

end Batcher

end GraphWalk
