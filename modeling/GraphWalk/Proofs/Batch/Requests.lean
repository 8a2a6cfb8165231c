import GraphWalk.Proofs.Batch.Numbers
import GraphWalk.Proofs.Batch.Waiting

/-!
# Requests made in a row

Several paths are asked for, one after the other.  Afterwards one path waits for every
key among them and among those that waited before.

## Main definitions

* `Batcher.registerAll` — paths asked for, one after the other.

## Main results

* `Batcher.mem_registerAll`, `Batcher.key_mem_registerAll` — what waits then.
-/

namespace GraphWalk

namespace Batcher

variable {b : Batcher} {paths : List Path} {path : Path}

/-- Paths asked for, one after the other. -/
def registerAll (b : Batcher) (paths : List Path) : Batcher :=
  paths.foldl (fun b path => (b.register path).2) b

theorem registerAll_append (b : Batcher) (paths more : List Path) :
    b.registerAll (paths ++ more) = (b.registerAll paths).registerAll more := List.foldl_append

/-! ### What requests leave alone -/

/-- Arming a flush leaves alone what is known, how results are merged, and the epoch. -/
theorem arm_frame (b : Batcher) :
    b.arm.state = b.state ∧ b.arm.merger = b.merger ∧ b.arm.epoch = b.epoch := by
  refine ⟨state_arm b, ?_, ?_⟩
  · simp only [arm, emit]
    split <;> rfl
  · simp only [arm, emit]
    split <;> rfl

/-- A request changes what waits, and arms a flush at most. -/
theorem register_frame (b : Batcher) (path : Path) :
    (b.register path).2.state = b.state ∧ (b.register path).2.merger = b.merger ∧
      (b.register path).2.epoch = b.epoch := by
  rcases b.register_cases path with ⟨-, hr⟩ | ⟨-, b₁, rfl, hr⟩
  · rw [hr]
    exact ⟨rfl, rfl, rfl⟩
  · rw [hr]
    dsimp only
    split
    · exact ⟨rfl, rfl, rfl⟩
    · exact arm_frame _

theorem registerAll_frame (b : Batcher) (paths : List Path) :
    (b.registerAll paths).state = b.state ∧ (b.registerAll paths).merger = b.merger ∧
      (b.registerAll paths).epoch = b.epoch := by
  induction paths generalizing b with
  | nil => exact ⟨rfl, rfl, rfl⟩
  | cons path paths ih =>
    obtain ⟨hstate, hmerger, hepoch⟩ := b.register_frame path
    obtain ⟨hstates, hmergers, hepochs⟩ := ih (b.register path).2
    exact ⟨hstates.trans hstate, hmergers.trans hmerger, hepochs.trans hepoch⟩

theorem Tracked.registerAll {calls : List Flight} (h : Tracked calls b) (paths : List Path) :
    Tracked calls (b.registerAll paths) := by
  induction paths generalizing b with
  | nil => exact h
  | cons path paths ih => exact ih (h.register path)

theorem wellFormed_register (h : b.pending.WellFormed) (path : Path) :
    (b.register path).2.pending.WellFormed := by
  have step : Step 0 b (.register path (b.register path).1) (b.register path).2 := .register path
  exact step.wellFormed h

/-! ### What waits afterwards -/

/-- After a request the path waits if none of its key did before. -/
theorem paths_register (h : b.pending.WellFormed) (path : Path) :
    (b.register path).2.pending.paths
      = if path.key ∈ b.pending.paths.map Path.key then b.pending.paths
        else b.pending.paths ++ [path] := by
  have step : Step 0 b (.register path (b.register path).1) (b.register path).2 := .register path
  rw [step.paths_eq, filter_unsettled _ fun _ => rfl]
  rcases b.register_cases path with ⟨hadded, hr⟩ | ⟨hadded, b₁, -, hr⟩
  · rw [hr, if_pos]
    · exact List.append_nil _
    · rw [← Decidable.not_not (p := path.key ∈ _), ← h.fst_insert, hadded]
      exact Bool.false_ne_true
  · rw [hr, if_neg ((h.fst_insert path).1 hadded)]
    rfl

theorem mem_register (h : b.pending.WellFormed) {other : Path}
    (hmem : other ∈ (b.register path).2.pending.paths) :
    other ∈ b.pending.paths ∨ other = path := by
  rw [paths_register h] at hmem
  split at hmem
  · exact .inl hmem
  · rcases List.mem_append.1 hmem with hmem | hmem
    · exact .inl hmem
    · exact .inr (List.mem_singleton.1 hmem)

/-- Whatever waits waited before or was asked for. -/
theorem mem_registerAll (h : b.pending.WellFormed) {other : Path}
    (hmem : other ∈ (b.registerAll paths).pending.paths) :
    other ∈ b.pending.paths ∨ other ∈ paths := by
  induction paths generalizing b with
  | nil => exact .inl hmem
  | cons path paths ih =>
    rcases ih (wellFormed_register h path) hmem with hbefore | hlater
    · rcases mem_register h hbefore with hbefore | rfl
      · exact .inl hbefore
      · exact .inr List.mem_cons_self
    · exact .inr (List.mem_cons_of_mem _ hlater)

theorem key_mem_register (h : b.pending.WellFormed) {key : String}
    (hkey : key ∈ b.pending.paths.map Path.key ∨ key = path.key) :
    key ∈ (b.register path).2.pending.paths.map Path.key := by
  rw [paths_register h]
  split
  · next hthere =>
    rcases hkey with hkey | rfl
    · exact hkey
    · exact hthere
  · rw [List.map_append, List.mem_append, List.map_singleton, List.mem_singleton]
    exact hkey

/-- Some path waits for every key that waited before or was asked for. -/
theorem key_mem_registerAll (h : b.pending.WellFormed) (paths : List Path) {key : String}
    (hkey : key ∈ b.pending.paths.map Path.key ∨ key ∈ paths.map Path.key) :
    key ∈ (b.registerAll paths).pending.paths.map Path.key := by
  induction paths generalizing b with
  | nil =>
    rcases hkey with hkey | hkey
    · exact hkey
    · cases hkey
  | cons path paths ih =>
    refine ih (wellFormed_register h path) ?_
    rw [List.map_cons, List.mem_cons] at hkey
    rcases hkey with hbefore | rfl | hlater
    · exact .inl (key_mem_register h (.inl hbefore))
    · exact .inl (key_mem_register h (.inr rfl))
    · exact .inr hlater

end Batcher

end GraphWalk
