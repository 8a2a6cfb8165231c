import Mathlib.Data.List.Nodup
import GraphWalk.Proofs.Batch.Run

/-!
# What waits

A pending set keeps its keys beside its paths.  The two are filled and emptied
together: the keys are those of the paths, in their order, and no key is there twice.
What a step does to the paths is read off the happening it leaves in the history:
some of those that waited are settled, and at most one path joins at the end.

## Main definitions

* `PendingSet.WellFormed` — the keys are those of the paths, and all different.
* `Fate`, `Happening.settles` — what can become of a path that waits, and what a
  happening does to it.

## Main results

* `Batcher.Run.wellFormed` — the pending set is well formed after every run.
* `Batcher.Step.paths_eq`, `Batcher.Step.paths_call` — what waits after a step, and what
  is sent by it.
-/

namespace GraphWalk

/-! ### Keys and paths -/

namespace PendingSet

variable {s : PendingSet}

/-- The keys are those of the waiting paths, and no two paths have the same. -/
structure WellFormed (s : PendingSet) : Prop where
  keys_eq : s.keys = s.paths.map Path.key
  nodup : s.keys.Nodup

theorem wellFormed_of_paths_eq_nil (hp : s.paths = []) (hk : s.keys = []) : s.WellFormed :=
  ⟨by rw [hp, hk, List.map_nil], by rw [hk]; exact List.nodup_nil⟩

/-- The paths that wait have different keys. -/
theorem WellFormed.paths_nodup (h : s.WellFormed) : (s.paths.map Path.key).Nodup :=
  h.keys_eq ▸ h.nodup

/-- A path is refused exactly when one of its key waits. -/
theorem WellFormed.fst_insert (h : s.WellFormed) (path : Path) :
    (s.insert path).1 = true ↔ path.key ∉ s.paths.map Path.key := by
  rw [← h.keys_eq, insert]
  split
  · next hmem => exact ⟨fun hf => (by cases hf), fun hnot => absurd (by simpa using hmem) hnot⟩
  · next hmem => exact ⟨fun _ => by simpa using hmem, fun _ => rfl⟩

theorem WellFormed.insert (h : s.WellFormed) (path : Path) : (s.insert path).2.WellFormed := by
  unfold PendingSet.insert
  split
  · exact h
  · next hmem =>
    rw [List.contains_iff_mem] at hmem
    constructor
    · show s.keys ++ [path.key] = (s.paths ++ [path]).map Path.key
      rw [List.map_append, h.keys_eq, List.map_singleton]
    · show (s.keys ++ [path.key]).Nodup
      rw [← List.concat_eq_append]
      exact h.nodup.concat hmem

theorem WellFormed.discardUnder (h : s.WellFormed) (key : String) :
    (s.discardUnder key).2.WellFormed := by
  constructor
  · show s.keys.filter _ = (s.paths.filter _).map Path.key
    rw [h.keys_eq, List.filter_map]
    rfl
  · exact h.nodup.filter _

end PendingSet

/-! ### What a happening does to a path that waits -/

/-- What has become of a request that was taken on. -/
inductive Fate
  /-- It waits. -/
  | waiting
  /-- The transport was called for it, with this batch. -/
  | sent (batch : BatchId)
  /-- The arguments seen at this key changed, and it was asked for with the old ones. -/
  | dropped (key : String)
  /-- There was a teardown. -/
  | cleared
  deriving DecidableEq, Repr

/-- What a happening makes of a path that waits; none when the path waits on. -/
def Happening.settles (path : Path) : Happening → Option Fate
  | .wake _ call => call.map fun flight => .sent flight.batch
  | .flushNow call => call.map fun flight => .sent flight.batch
  | .fingerprint changed _ true =>
    if Path.isAtOrBelow path.key changed.key then some (.dropped changed.key) else none
  | .dispose => some .cleared
  | _ => none

namespace Batcher

variable {guards : Nat} {b b' : Batcher} {happening : Happening} {history : History}

/-- A call settles everything that waits. -/
theorem settles_of_call {call : Flight} (hcall : happening.call? = some call) (path : Path) :
    happening.settles path = some (.sent call.batch) := by
  cases happening with
  | wake _ made => cases hcall; rfl
  | flushNow made => cases hcall; rfl
  | _ => cases hcall

/-- What is settled as sent was sent by a call. -/
theorem call_of_settles {path : Path} {batch : BatchId}
    (h : happening.settles path = some (.sent batch)) :
    ∃ call, happening.call? = some call ∧ call.batch = batch := by
  cases happening with
  | wake _ made =>
    obtain ⟨call, hcall, hbatch⟩ := Option.map_eq_some_iff.1 h
    exact ⟨call, hcall, Fate.sent.inj hbatch⟩
  | flushNow made =>
    obtain ⟨call, hcall, hbatch⟩ := Option.map_eq_some_iff.1 h
    exact ⟨call, hcall, Fate.sent.inj hbatch⟩
  | fingerprint changed _ yes =>
    cases yes with
    | false => cases h
    | true =>
      rw [Happening.settles] at h
      split at h <;> cases h
  | _ => cases h

/-- Nothing is settled into waiting. -/
theorem settles_ne_waiting (path : Path) : happening.settles path ≠ some .waiting := by
  cases happening with
  | wake _ made => cases made <;> exact nofun
  | flushNow made => cases made <;> exact nofun
  | fingerprint changed _ yes =>
    cases yes with
    | false => exact nofun
    | true =>
      rw [Happening.settles]
      split <;> exact nofun
  | _ => exact nofun

theorem pending_land (b : Batcher) (flight : Flight) : (b.land flight).pending = b.pending := by
  unfold land
  dsimp only
  split <;> rfl

/-- What waits goes into the flight, if there is one, and nothing waits afterwards. -/
theorem paths_drain (b : Batcher) (batch : BatchId) (byTask : Bool) :
    (b.drain batch byTask).2.pending.paths = [] := by
  rw [pending_drain]
  rfl

/-- Every flight takes what waits, and something does. -/
theorem paths_of_drain {batch : BatchId} {byTask : Bool} {call : Flight}
    (h : (b.drain batch byTask).1 = some call) :
    call.paths = b.pending.paths ∧ b.pending.paths ≠ [] := by
  rw [fst_drain] at h
  split at h
  · cases h
  · next hne =>
    cases h
    exact ⟨rfl, hne⟩

/-- No flight leaves only when nothing waits. -/
theorem paths_of_drain_none {batch : BatchId} {byTask : Bool}
    (h : (b.drain batch byTask).1 = none) : b.pending.paths = [] := by
  rw [fst_drain] at h
  split at h
  · assumption
  · cases h

/-- A call of the transport takes what waits, and something does. -/
theorem Step.paths_call (step : Step guards b happening b') {call : Flight}
    (hcall : happening.call? = some call) :
    call.paths = b.pending.paths ∧ b.pending.paths ≠ [] := by
  cases step with
  | @wake task _ =>
    rcases b.wake_cases task with ⟨-, hw⟩ | ⟨-, -, hw⟩ | ⟨-, -, -, hw, -⟩
    · rw [hw] at hcall
      cases hcall
    · rw [hw] at hcall
      cases hcall
    · exact paths_of_drain (b := b.withoutTask task.batch) (hw ▸ hcall)
  | flushNow =>
    rcases b.flushNow_cases with ⟨batch, -, hflush⟩ | ⟨-, hflush⟩
    · exact paths_of_drain (hflush ▸ hcall)
    · exact paths_of_drain (b := { b with nextBatch := b.nextBatch + 1 }) (hflush ▸ hcall)
  | _ => cases hcall

/-- Where nothing is settled all that waited waits on. -/
theorem filter_unsettled (paths : List Path) (h : ∀ path, happening.settles path = none) :
    paths.filter (fun path => (happening.settles path).isNone) = paths := by
  rw [List.filter_eq_self]
  intro path _
  rw [h path]
  rfl

/-- A flush leaves nothing that waits, whether there was something to send or not. -/
theorem paths_flush {batch : BatchId} {byTask : Bool}
    (hcall : happening.call? = (b.drain batch byTask).1) :
    b.pending.paths.filter (fun path => (happening.settles path).isNone) = [] := by
  cases hflight : (b.drain batch byTask).1 with
  | none => rw [paths_of_drain_none hflight, List.filter_nil]
  | some call =>
    rw [List.filter_eq_nil_iff]
    intro path _
    rw [settles_of_call (hcall.trans hflight) path]
    exact Bool.false_ne_true

/-- A step that settles nothing and takes nothing on leaves what waits as it was. -/
theorem paths_eq_of_kept (hpaths : b'.pending.paths = b.pending.paths)
    (haccepted : happening.accepted? = none) (h : ∀ path, happening.settles path = none) :
    b'.pending.paths
      = b.pending.paths.filter (fun path => (happening.settles path).isNone)
        ++ happening.accepted?.toList := by
  rw [haccepted, filter_unsettled _ h, hpaths]
  exact (List.append_nil _).symm

theorem paths_closePass (b : Batcher) : b.closePass.pending.paths = b.pending.paths := by
  unfold Batcher.closePass
  dsimp only
  split
  · rw [pending_arm]
    rfl
  · rfl

/-- After a step there waits what it did not settle, and then what it took on. -/
theorem Step.paths_eq (step : Step guards b happening b') :
    b'.pending.paths
      = b.pending.paths.filter (fun path => (happening.settles path).isNone)
        ++ happening.accepted?.toList := by
  cases step with
  | register path =>
    rw [filter_unsettled _ fun _ => rfl]
    -- only the first path of a key is taken on
    rcases b.register_cases path with ⟨-, hr⟩ | ⟨hadded, b₁, rfl, hr⟩
    · rw [hr]
      exact (List.append_nil _).symm
    · have hpaths : (b.pending.insert path).2.paths = b.pending.paths ++ [path] := by
        rw [PendingSet.paths_insert, if_pos hadded]
      rw [hr]
      dsimp only
      split
      · exact hpaths
      · rw [pending_arm]
        exact hpaths
  | fingerprint path args =>
    have hnone : (Happening.fingerprint path args (b.fingerprint path args).1).accepted? = none :=
      rfl
    rw [hnone, Option.toList_none, List.append_nil]
    unfold Batcher.fingerprint
    dsimp only
    split
    · exact (filter_unsettled _ fun _ => rfl).symm
    · show b.pending.paths.filter _ = _
      -- the change drops exactly what it settles
      refine List.filter_congr fun waiting _ => ?_
      rw [Happening.settles]
      cases Path.isAtOrBelow waiting.key path.key <;> rfl
  | openPass => exact paths_eq_of_kept rfl rfl fun _ => rfl
  | closePass => exact paths_eq_of_kept b.paths_closePass rfl fun _ => rfl
  | @wake task _ =>
    rcases b.wake_cases task with ⟨-, hw⟩ | ⟨-, -, hw⟩ | ⟨-, -, -, hcall, outstanding, hw⟩
    · rw [hw]
      exact paths_eq_of_kept rfl rfl fun _ => rfl
    · rw [hw]
      exact paths_eq_of_kept rfl rfl fun _ => rfl
    · -- the task itself is gone before the call is made, which does not concern what waits
      have hmade : (Happening.wake task (b.wake task).1).call?
          = ((b.withoutTask task.batch).drain task.batch true).1 := hcall
      rw [hw]
      refine Eq.trans ?_ (List.append_nil _).symm
      exact (paths_drain _ _ _).trans (paths_flush hmade).symm
  | flushNow =>
    refine Eq.trans ?_ (List.append_nil _).symm
    rcases b.flushNow_cases with ⟨batch, -, hflush⟩ | ⟨-, hflush⟩
    · rw [hflush]
      exact (paths_drain _ _ _).trans (paths_flush rfl).symm
    · rw [hflush]
      exact (paths_drain _ _ _).trans
        (paths_flush (b := { b with nextBatch := b.nextBatch + 1 }) rfl).symm
  | @complete flight outcome _ =>
    obtain ⟨state, events, hc⟩ := b.complete_cases flight outcome
    rw [hc]
    exact paths_eq_of_kept (congrArg _ (pending_land b flight)) rfl fun _ => rfl
  | @abandon flight _ _ =>
    exact paths_eq_of_kept (congrArg _ (pending_land b flight)) rfl fun _ => rfl
  | dispose =>
    refine (List.append_eq_nil_iff.2 ⟨?_, rfl⟩).symm
    rw [List.filter_eq_nil_iff]
    intro path _
    exact Bool.false_ne_true
  | setClock => exact paths_eq_of_kept rfl rfl fun _ => rfl
  | readEvents => exact paths_eq_of_kept rfl rfl fun _ => rfl

/-! ### Keys after a run -/

theorem Step.wellFormed (step : Step guards b happening b') (h : b.pending.WellFormed) :
    b'.pending.WellFormed := by
  -- whoever flushes leaves an empty set
  have htaken : ∀ (b : Batcher) (batch : BatchId) (byTask : Bool),
      (b.drain batch byTask).2.pending.WellFormed := by
    intro b batch byTask
    rw [pending_drain]
    exact PendingSet.wellFormed_of_paths_eq_nil rfl rfl
  cases step with
  | register path =>
    rcases b.register_cases path with ⟨-, hr⟩ | ⟨-, b₁, rfl, hr⟩
    · rw [hr]
      exact h
    · have hinsert := h.insert path
      rw [hr]
      dsimp only
      split
      · exact ⟨hinsert.keys_eq, hinsert.nodup⟩
      · rw [pending_arm]
        exact ⟨hinsert.keys_eq, hinsert.nodup⟩
  | fingerprint path args =>
    unfold Batcher.fingerprint
    dsimp only
    split
    · exact ⟨h.keys_eq, h.nodup⟩
    · have hrest := h.discardUnder path.key
      exact ⟨hrest.keys_eq, hrest.nodup⟩
  | openPass => exact ⟨h.keys_eq, h.nodup⟩
  | closePass =>
    unfold Batcher.closePass
    dsimp only
    split
    · rw [pending_arm]
      exact ⟨h.keys_eq, h.nodup⟩
    · exact ⟨h.keys_eq, h.nodup⟩
  | @wake task _ =>
    rcases b.wake_cases task with ⟨-, hw⟩ | ⟨-, -, hw⟩ | ⟨-, -, -, -, outstanding, hw⟩
    · rw [hw]
      exact h
    · rw [hw]
      exact ⟨h.keys_eq, h.nodup⟩
    · rw [hw]
      exact htaken _ _ _
  | flushNow =>
    rcases b.flushNow_cases with ⟨batch, -, hflush⟩ | ⟨-, hflush⟩
    · rw [hflush]
      exact htaken _ _ _
    · rw [hflush]
      exact htaken _ _ _
  | @complete flight outcome _ =>
    obtain ⟨state, events, hc⟩ := b.complete_cases flight outcome
    rw [hc]
    exact pending_land b flight ▸ h
  | @abandon flight _ _ => exact pending_land b flight ▸ h
  | dispose => exact PendingSet.wellFormed_of_paths_eq_nil rfl rfl
  | setClock => exact h
  | readEvents => exact h

theorem Run.wellFormed (run : Run history b) : b.pending.WellFormed := by
  induction run with
  | start new =>
    rw [new]
    exact PendingSet.wellFormed_of_paths_eq_nil rfl rfl
  | next _ step ih => exact step.wellFormed ih

end Batcher

end GraphWalk
