import GraphWalk.Proofs.Batch.Later
import GraphWalk.Proofs.Batch.Ledger
import GraphWalk.Proofs.Batch.Schedule

/-!
# Passes

While a pass is held open no task sends anything.  What waits when the last pass is
closed leaves together: until the next call of the transport it all waits, less what
changes of arguments drop, and the next call takes it.  It makes no difference when the
flush was armed.

## Main definitions

* `Happening.discards`, `History.keeps` — whether a change of arguments drops a path.

## Main results

* `Batcher.Step.kept_prefix`, `Batcher.Later.kept_prefix` — what waited waits on, before all that
  joined later.
* `Batcher.pass_bounds_batch` — **a pass is the exact boundary of a batch.**
-/

namespace GraphWalk

/-- The happening is a change of arguments at or above a path. -/
def Happening.discards (path : Path) : Happening → Bool
  | .fingerprint changed _ true => Path.isAtOrBelow path.key changed.key
  | _ => false

/-- No arguments changed at or above a path. -/
def History.keeps (since : History) (path : Path) : Bool :=
  since.all fun happening => !happening.discards path

namespace History

variable {since : History} {happening : Happening}

theorem keeps_cons (happening : Happening) (since : History) (path : Path) :
    keeps (happening :: since) path = (!happening.discards path && keeps since path) := rfl

theorem calls_eq_nil_cons :
    calls (happening :: since) = [] ↔ happening.call? = none ∧ calls since = [] := by
  rw [calls_cons, List.append_eq_nil_iff, Option.toList_eq_nil_iff]

end History

/-- A path that is settled is settled for good. -/
theorem Fate.after_append_of_settled {path : Path} {since : History}
    (h : Fate.after path since ≠ .waiting) (later : History) :
    Fate.after path (later ++ since) = Fate.after path since := by
  induction later with
  | nil => rfl
  | cons happening later ih =>
    rw [List.cons_append, Fate.after, if_neg]
    · exact ih
    · rw [ih]
      exact h

namespace Batcher

variable {guards : Nat} {history since later : History} {b b' : Batcher} {happening : Happening}
  {path : Path} {task : FlushTask} {call : Flight}

/-! ### What a pass holds back -/

/-- A task that wakes while a pass is open sends nothing and leaves everything that waits. -/
theorem wake_of_inPass (h : b.pending.inPass = true) (task : FlushTask) :
    (b.wake task).1 = none ∧ (b.wake task).2.pending.paths = b.pending.paths := by
  rcases b.wake_cases task with ⟨-, hw⟩ | ⟨-, -, hw⟩ | ⟨-, -, hidle, -⟩
  · rw [hw]
    exact ⟨rfl, rfl⟩
  · rw [hw]
    exact ⟨rfl, rfl⟩
  · rw [h] at hidle
    cases hidle

/-- With no pass held open, some task that sleeps sends whatever waits when it wakes. -/
theorem Run.exists_sender (run : Run history b) (hguards : history.guards = 0)
    (hwaits : b.pending.paths ≠ []) :
    ∃ task ∈ b.tasks, task.aborted = false ∧
      ∃ call, (b.wake task).1 = some call ∧ call.paths = b.pending.paths := by
  have hpasses : b.pending.openPasses = 0 := run.held.passes.trans hguards
  have hscheduled : b.pending.isScheduled = true := run.held.armed hwaits hpasses
  obtain ⟨batch, hbatch⟩ := Option.isSome_iff_exists.1 hscheduled
  obtain ⟨task, htask, rfl, hlive⟩ := run.tracked.scheduled_asleep batch hbatch
  refine ⟨task, htask, hlive, ?_⟩
  rcases b.wake_cases task with ⟨hidle, -⟩ | ⟨-, hpass, -⟩ | ⟨-, -, -, hcall, -⟩
  · -- neither was the task called off nor is the flush another's
    rcases hidle with haborted | hother
    · rw [hlive] at haborted
      cases haborted
    · exact absurd hbatch hother
  · rw [PendingSet.inPass, hpasses] at hpass
    cases hpass
  · rw [hcall, fst_drain, if_neg]
    · exact ⟨_, rfl, rfl⟩
    · exact hwaits

/-! ### What waits on -/

/-- Short of a call and of a teardown, only a change of arguments settles a path. -/
theorem isNone_settles (hcall : happening.call? = none) (hlive : happening ≠ .dispose)
    (path : Path) : (happening.settles path).isNone = !happening.discards path := by
  cases happening with
  | wake _ made =>
    cases hcall
    rfl
  | flushNow made =>
    cases hcall
    rfl
  | fingerprint changed _ yes =>
    cases yes with
    | false => rfl
    | true =>
      rw [Happening.settles, Happening.discards]
      cases Path.isAtOrBelow path.key changed.key <;> rfl
  | dispose => exact absurd rfl hlive
  | _ => rfl

/-- What waited waits on, less what was dropped, before all that joins. -/
theorem Step.kept_prefix (step : Step guards b happening b') (hcall : happening.call? = none)
    (hlive : happening ≠ .dispose) :
    b.pending.paths.filter (fun path => !happening.discards path) <+: b'.pending.paths := by
  have hkept : (fun path => (happening.settles path).isNone)
      = fun path => !happening.discards path := funext (isNone_settles hcall hlive)
  rw [step.paths_eq, hkept]
  exact List.prefix_append _ _

/-- **Until the next call what waited waits on.** -/
theorem Later.kept_prefix (h : Later history b since b') (hcalls : since.calls = [])
    (hlive : .dispose ∉ since) :
    b.pending.paths.filter since.keeps <+: b'.pending.paths := by
  induction h with
  | now =>
    have hall : b.pending.paths.filter (History.keeps []) = b.pending.paths :=
      List.filter_eq_self.2 fun _ _ => rfl
    exact hall.symm ▸ List.prefix_rfl
  | @next since b₁ b₂ happening _ step ih =>
    obtain ⟨hcall, hcalls⟩ := History.calls_eq_nil_cons.1 hcalls
    rw [List.mem_cons, not_or] at hlive
    have hstep := step.kept_prefix hcall (Ne.symm hlive.1)
    -- what is kept by all happenings is kept by the earlier ones, and then by the last
    have hboth : b.pending.paths.filter (History.keeps (happening :: since))
        = (b.pending.paths.filter since.keeps).filter fun path => !happening.discards path := by
      rw [List.filter_filter]
      rfl
    rw [hboth]
    exact ((ih hcalls hlive.2).filter _).trans hstep

/-- A path that is kept waits until the next call. -/
theorem after_of_keeps (hcalls : since.calls = []) (hlive : .dispose ∉ since)
    (hkeeps : since.keeps path = true) : Fate.after path since = .waiting := by
  induction since with
  | nil => rfl
  | cons happening since ih =>
    obtain ⟨hcall, hcalls⟩ := History.calls_eq_nil_cons.1 hcalls
    rw [List.mem_cons, not_or] at hlive
    rw [History.keeps_cons, Bool.and_eq_true] at hkeeps
    have hnone : happening.settles path = none := by
      rw [← Option.isNone_iff_eq_none, isNone_settles hcall (Ne.symm hlive.1), hkeeps.1]
    rw [Fate.after, if_pos (ih hcalls hlive.2 hkeeps.2), hnone, Option.getD_none]

/-- The next call decides what becomes of a path that is kept. -/
theorem after_of_call (hcalls : since.calls = []) (hlive : .dispose ∉ since)
    (hkeeps : since.keeps path = true) (hcall : happening.call? = some call) (later : History) :
    Fate.after path (later ++ happening :: since) = .sent call.batch := by
  have hsent : Fate.after path (happening :: since) = .sent call.batch := by
    rw [Fate.after, if_pos (after_of_keeps hcalls hlive hkeeps), settles_of_call hcall,
      Option.getD_some]
  rw [Fate.after_append_of_settled, hsent]
  rw [hsent]
  exact Fate.noConfusion

/-! ### What comes next -/

/-- What happened later happened from some batcher on. -/
theorem Later.split (h : Later history b (later ++ since) b') :
    ∃ b₁, Later history b since b₁ ∧ Later (since ++ history) b₁ later b' := by
  induction later generalizing b' with
  | nil => exact ⟨b', h, .now⟩
  | cons happening later ih =>
    cases h with
    | next before step =>
      obtain ⟨b₁, hsince, hlater⟩ := ih before
      refine ⟨b₁, hsince, hlater.next ?_⟩
      rw [← List.append_assoc]
      exact step

/-- The next call takes what is kept. -/
theorem Later.call_takes (h : Later history b (later ++ happening :: since) b')
    (hcalls : since.calls = []) (hlive : .dispose ∉ since) (hcall : happening.call? = some call) :
    b.pending.paths.filter since.keeps <+: call.paths := by
  obtain ⟨b₁, hcut, -⟩ := h.split
  cases hcut with
  | next before step =>
    obtain ⟨hpaths, -⟩ := step.paths_call hcall
    rw [hpaths]
    exact before.kept_prefix hcalls hlive

/-- **A pass is the exact boundary of a batch.**

After any run as many passes are counted as are held open, and while one is, no task sends anything
when it wakes, nor does it take anything from what waits.  When the last pass is closed and there is
no teardown from then on, look at the paths that waited at that moment and were not dropped by a
change of arguments since.  Until the transport is called next they all wait, first and in the same
order, and whenever no pass is held open some task sends them when it wakes.  The call that comes
next takes them all, and it settles each of them for good. -/
theorem pass_bounds_batch (run : Run history b) :
    b.pending.openPasses = history.guards ∧
    (0 < history.guards → ∀ task ∈ b.tasks,
      (b.wake task).1 = none ∧ (b.wake task).2.pending.paths = b.pending.paths) ∧
    (history.guards = 1 → ∀ since b',
      Later (.closePass :: history) b.closePass since b' → .dispose ∉ since →
      (since.calls = [] →
        b.pending.paths.filter since.keeps <+: b'.pending.paths ∧
        (History.guards (since ++ .closePass :: history) = 0 →
          b.pending.paths.filter since.keeps ≠ [] →
          ∃ task ∈ b'.tasks, task.aborted = false ∧
            ∃ call, (b'.wake task).1 = some call ∧
              b.pending.paths.filter since.keeps <+: call.paths)) ∧
      ∀ (later : History) (happening : Happening) (before : History) (call : Flight),
        since = later ++ happening :: before →
        before.calls = [] → happening.call? = some call →
        b.pending.paths.filter before.keeps <+: call.paths ∧
        ∀ path ∈ b.pending.paths.filter before.keeps,
          Fate.after path since = .sent call.batch) := by
  have hpasses : b.pending.openPasses = history.guards := run.held.passes
  refine ⟨hpasses, ?_, ?_⟩
  · intro hguards task _
    refine wake_of_inPass ?_ task
    rw [PendingSet.inPass, hpasses]
    exact decide_eq_true hguards
  · intro hlast since b' hlater hlive
    have closed : Run (.closePass :: history) b.closePass :=
      run.next (.closePass (hlast ▸ Nat.one_pos))
    rw [← b.paths_closePass]
    constructor
    · intro hcalls
      have hwait := hlater.kept_prefix hcalls hlive
      refine ⟨hwait, fun hguards hkept => ?_⟩
      have hwaits : b'.pending.paths ≠ [] := by
        intro hnone
        rw [hnone] at hwait
        exact hkept (List.prefix_nil.1 hwait)
      obtain ⟨task, htask, hasleep, call, hcall, hpaths⟩ :=
        (hlater.run closed).exists_sender hguards hwaits
      exact ⟨task, htask, hasleep, call, hcall, hpaths ▸ hwait⟩
    · rintro later happening before call rfl hcalls hcall
      have hbefore : .dispose ∉ before := fun hmem =>
        hlive (List.mem_append_right _ (List.mem_cons_of_mem _ hmem))
      refine ⟨hlater.call_takes hcalls hbefore hcall, fun path hpath => ?_⟩
      exact after_of_call hcalls hbefore (List.mem_filter.1 hpath).2 hcall later

/-- The flush of a first request is armed, a pass is opened in which its task gives the flush up and
a second request joins; when the pass is closed a new task sends both. -/
theorem pass_bounds_batch_deferred :
    let name := Path.ofFields ["item", "name"]
    let price := Path.ofFields ["item", "price"]
    let opened : Batcher := (({} : Batcher).register name).2.openPass
    let deferred : Batcher := ((opened.wake { batch := 0, due := 0 }).2.register price).2
    let call : Flight := { batch := 1, epoch := 0, paths := [name, price], byTask := true }
    Run [.register price true, .wake { batch := 0, due := 0 } none, .openPass, .register name true]
        deferred ∧
      deferred.pending.openPasses = 1 ∧
      (deferred.closePass.wake { batch := 1, due := 0 }).1 = some call ∧
      [name, price] <+: call.paths ∧
      Fate.after name [.wake { batch := 1, due := 0 } (some call)] = .sent 1 := by
  intro name price opened deferred call
  have new : IsNew {} := rfl
  have run : Run [.register price true, .wake { batch := 0, due := 0 } none, .openPass,
      .register name true] deferred :=
    .next (.next (.next (.next (.start new) (.register name)) .openPass)
      (.wake List.mem_cons_self)) (.register price)
  have later : Later (.closePass :: [.register price true, .wake { batch := 0, due := 0 } none,
      .openPass, .register name true]) deferred.closePass
      [.wake { batch := 1, due := 0 } (some call)]
      (deferred.closePass.wake { batch := 1, due := 0 }).2 :=
    .next .now (.wake List.mem_cons_self)
  obtain ⟨hpasses, -, hclosed⟩ := pass_bounds_batch run
  obtain ⟨-, hnext⟩ := hclosed rfl _ _ later (by simp)
  obtain ⟨htakes, hsent⟩ := hnext [] _ [] call rfl rfl rfl
  exact ⟨run, hpasses, rfl, htakes, hsent name List.mem_cons_self⟩

end Batcher

end GraphWalk
