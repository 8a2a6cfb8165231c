import GraphWalk.Proofs.Batch.Later
import GraphWalk.Proofs.Path.Keys

/-!
# The arguments seen last

Under every key the batcher remembers the arguments that it saw last there, until a
teardown.  A path that gives arguments lies at or below the key that they were seen
under, so it is dropped when others are seen there.  What waits can only give arguments
that are no longer the latest when it gave them already as it was asked for.

## Main definitions

* `Path.Gives` — a path gives arguments behind its beginning.
* `History.argumentsAt?` — the arguments seen last under a key.
* `History.Current` — a path gives the arguments that were seen last, wherever it gives any.

## Main results

* `Batcher.Run.fingerprintOf?_eq` — what is remembered is what was seen last.
* `Batcher.Run.exists_registered` — under the keys of the arguments that a waiting path gives
  nothing else has been seen since it was asked for.
* `Batcher.Run.current` — paths that are current when they are asked for stay so.
* `Batcher.Run.refused_for_same` — such a path is refused for one with the same arguments only.
-/

namespace GraphWalk

/-! ### Arguments in a path -/

namespace Path

variable {p front : Path} {args given : Dict Json} {name : String}

/-- The path gives arguments behind its beginning. -/
def Gives (p front : Path) (args : Dict Json) : Prop :=
  ∃ rest, p.steps = front.steps ++ .arguments args :: rest

theorem not_gives_ofFields {names : List String} : ¬(ofFields names).Gives front args := by
  rintro ⟨rest, h⟩
  have hmem : Step.arguments args ∈ names.map Step.field := by
    show _ ∈ (ofFields names).steps
    rw [h]
    exact List.mem_append_right _ List.mem_cons_self
  obtain ⟨name, -, hname⟩ := List.mem_map.1 hmem
  cases hname

theorem not_gives_root : ¬root.Gives front args := @not_gives_ofFields front args []

/-- A path with one more step gives what it gave before, and that step if it is of arguments. -/
theorem gives_concat_iff (p : Path) (step : Step) :
    (Path.mk (p.steps ++ [step])).Gives front args
      ↔ p.Gives front args ∨ front = p ∧ step = .arguments args := by
  constructor
  · rintro ⟨rest, h⟩
    rcases List.eq_nil_or_concat rest with rfl | ⟨init, last, rfl⟩
    · obtain ⟨hfront, hstep⟩ := List.append_inj' h rfl
      exact .inr ⟨congrArg Path.mk hfront.symm, (List.cons.inj hstep).1⟩
    · rw [List.concat_eq_append, ← List.cons_append, ← List.append_assoc] at h
      exact .inl ⟨init, (List.append_inj' h rfl).1⟩
  · rintro (⟨rest, h⟩ | ⟨rfl, rfl⟩)
    · refine ⟨rest ++ [step], ?_⟩
      rw [h, List.append_assoc, List.cons_append]
    · exact ⟨[], rfl⟩

theorem gives_withField_iff : (p.withField name).Gives front args ↔ p.Gives front args := by
  refine (gives_concat_iff p (.field name)).trans (or_iff_left ?_)
  rintro ⟨-, h⟩
  cases h

theorem gives_withArguments_iff :
    (p.withArguments given).Gives front args ↔ p.Gives front args ∨ front = p ∧ given = args := by
  rw [withArguments, gives_concat_iff, Step.arguments.injEq]

/-- A path gives what it gives without its last step. -/
theorem Gives.of_parent (h : p.parent.Gives front args) : p.Gives front args := by
  obtain ⟨steps⟩ := p
  rcases List.eq_nil_or_concat steps with rfl | ⟨init, last, rfl⟩
  · exact h
  · rw [parent, List.concat_eq_append, List.dropLast_concat] at h
    rw [List.concat_eq_append]
    exact (gives_concat_iff ⟨init⟩ last).2 (.inl h)

/-- A path lies at or below the key under which its arguments are seen, whatever names are in
it. -/
theorem Gives.isAtOrBelow (h : p.Gives front args) : isAtOrBelow p.key front.key = true := by
  obtain ⟨rest, hsteps⟩ := h
  have hfields : p.fields = front.fields ++ rest.filterMap Step.name? := by
    rw [fields, hsteps, List.filterMap_append]
    rfl
  by_cases hfront : front.fields = []
  · rw [Path.isAtOrBelow, key.eq_def front, hfront]
    rfl
  · rw [Path.isAtOrBelow, key, key, String.toList_ofList, String.toList_ofList, hfields,
      joined_append hfront, Text.after?_append]
    cases rest.filterMap Step.name? with
    | nil => exact Bool.or_true _
    | cons name names => exact Bool.or_true _

end Path

/-! ### What was seen last -/

/-- What a happening makes of the arguments that were seen last under a key. -/
def Happening.seenAt (key : String) : Happening → Option String → Option String
  | .fingerprint path args _, before =>
    if key = path.key then some (Json.text (.object args)) else before
  | .dispose, _ => none
  | _, before => before

namespace History

variable {history before : History} {path : Path}

/-- The arguments that were seen last under a key since the last teardown. -/
def argumentsAt? (history : History) (key : String) : Option String :=
  history.foldr (Happening.seenAt key) none

theorem argumentsAt?_cons (happening : Happening) (history : History) (key : String) :
    argumentsAt? (happening :: history) key = happening.seenAt key (history.argumentsAt? key) := rfl

/-- Wherever the path gives arguments they are those that were seen last. -/
def Current (history : History) (path : Path) : Prop :=
  ∀ front args, path.Gives front args →
    history.argumentsAt? front.key = some (Json.text (.object args))

/-- Whatever was asked for gave the arguments that were seen last at that time. -/
def AsksCurrent (history : History) : Prop :=
  ∀ (later before : History) (path : Path) (added : Bool),
    history = later ++ .register path added :: before → before.Current path

theorem asksCurrent_of_cons (later : History) {happening : Happening}
    (h : AsksCurrent (later ++ happening :: before)) : AsksCurrent before := by
  rintro since earlier path added rfl
  exact h (later ++ happening :: since) earlier path added
    (List.append_assoc later (happening :: since) (.register path added :: earlier)).symm

theorem asksCurrent_nil : AsksCurrent [] := fun _ _ _ _ h =>
  absurd h.symm (List.append_ne_nil_of_right_ne_nil _ (List.cons_ne_nil _ _))

theorem AsksCurrent.cons (h : AsksCurrent history) {happening : Happening}
    (hnew : ∀ path added, happening = .register path added → history.Current path) :
    AsksCurrent (happening :: history) := by
  intro later before path added heq
  rcases List.cons_eq_append_iff.1 heq with ⟨-, hlast⟩ | ⟨earlier, -, hbefore⟩
  · obtain ⟨hregister, rfl⟩ := List.cons.inj hlast
    exact hnew path added hregister.symm
  · exact h earlier before path added hbefore

end History

namespace Batcher

variable {guards : Nat} {history later before : History} {b b' : Batcher} {happening : Happening}
  {path : Path}

/-- The answer is yes when other arguments are remembered. -/
theorem fst_fingerprint (b : Batcher) (path : Path) (args : Dict Json) :
    (b.fingerprint path args).1
      = (b.pending.fingerprintOf? path.key).any (· != Json.text (.object args)) := by
  unfold fingerprint
  dsimp only
  cases h : (b.pending.fingerprint path.key (Json.text (.object args))).1 with
  | false => exact h.symm
  | true => exact h.symm

theorem fingerprints_arm (b : Batcher) : b.arm.pending.fingerprints = b.pending.fingerprints := by
  rw [pending_arm]
  rfl

theorem fingerprints_drain (b : Batcher) (batch : BatchId) (byTask : Bool) :
    (b.drain batch byTask).2.pending.fingerprints = b.pending.fingerprints := by
  rw [pending_drain]
  rfl

theorem fingerprints_register (b : Batcher) (path : Path) :
    (b.register path).2.pending.fingerprints = b.pending.fingerprints := by
  have hinsert : (b.pending.insert path).2.fingerprints = b.pending.fingerprints := by
    unfold PendingSet.insert
    split <;> rfl
  rcases b.register_cases path with ⟨-, hr⟩ | ⟨-, b₁, rfl, hr⟩
  · rw [hr]
  · rw [hr]
    dsimp only
    split
    · exact hinsert
    · exact (fingerprints_arm _).trans hinsert

/-- Only what is seen, and a teardown, change what is remembered. -/
theorem Step.fingerprintOf?_eq (step : Step guards b happening b') (key : String) :
    b'.pending.fingerprintOf? key = happening.seenAt key (b.pending.fingerprintOf? key) := by
  -- all other steps leave the table as it is
  have kept (h : b'.pending.fingerprints = b.pending.fingerprints) :
      b'.pending.fingerprintOf? key = b.pending.fingerprintOf? key :=
    congrArg (Dict.get? · key) h
  cases step with
  | register path => exact kept (b.fingerprints_register path)
  | fingerprint path args =>
    have hinsert : (b.fingerprint path args).2.pending.fingerprints
        = Dict.insert b.pending.fingerprints path.key (Json.text (.object args)) := by
      unfold Batcher.fingerprint
      dsimp only
      split <;> rfl
    rw [PendingSet.fingerprintOf?, hinsert, Dict.get?_insert]
    rfl
  | openPass => rfl
  | closePass =>
    refine kept ?_
    unfold Batcher.closePass
    dsimp only
    split
    · exact fingerprints_arm _
    · rfl
  | @wake task _ =>
    refine kept ?_
    rcases b.wake_cases task with ⟨-, hw⟩ | ⟨-, -, hw⟩ | ⟨-, -, -, -, outstanding, hw⟩
    · rw [hw]
      rfl
    · rw [hw]
      rfl
    · rw [hw]
      exact fingerprints_drain (b.withoutTask task.batch) task.batch true
  | flushNow =>
    refine kept ?_
    rcases b.flushNow_cases with ⟨batch, -, hflush⟩ | ⟨-, hflush⟩
    · rw [hflush]
      exact fingerprints_drain b batch false
    · rw [hflush]
      exact fingerprints_drain { b with nextBatch := b.nextBatch + 1 } b.nextBatch false
  | @complete flight outcome _ =>
    exact kept (congrArg PendingSet.fingerprints (b.pending_complete flight outcome))
  | @abandon flight _ _ => exact kept (congrArg PendingSet.fingerprints (b.pending_land flight))
  | dispose => rfl
  | setClock => rfl
  | readEvents => rfl

/-- **What is remembered is what was seen last.** -/
theorem Run.fingerprintOf?_eq (run : Run history b) (key : String) :
    b.pending.fingerprintOf? key = history.argumentsAt? key := by
  induction run with
  | start new =>
    rw [new]
    rfl
  | next _ step ih => rw [step.fingerprintOf?_eq, ih, History.argumentsAt?_cons]

/-- A run may be cut anywhere. -/
theorem Run.split (run : Run (later ++ before) b) :
    ∃ b₁, Run before b₁ ∧ Later before b₁ later b := by
  induction later generalizing b with
  | nil => exact ⟨b, run, .now⟩
  | cons happening later ih =>
    cases run with
    | next run step =>
      obtain ⟨b₁, hbefore, hlater⟩ := ih run
      exact ⟨b₁, hbefore, hlater.next step⟩

/-- A step of the run, and the batcher at which it was taken. -/
theorem Run.step_at (run : Run (later ++ happening :: before) b) :
    ∃ b₁ b₂, Run before b₁ ∧ Step before.guards b₁ happening b₂ := by
  obtain ⟨b₂, hcut, -⟩ := run.split
  cases hcut with
  | next hbefore step => exact ⟨_, b₂, hbefore, step⟩

/-! ### What waits gives the arguments that it gave when it was asked for -/

/-- A happening that leaves a path waiting leaves what was seen under the keys of its arguments. -/
theorem Step.seenAt_eq (step : Step guards b happening b') (hkept : happening.settles path = none)
    {front : Path} {args : Dict Json} (hgives : path.Gives front args) {seen : String}
    (hseen : b.pending.fingerprintOf? front.key = some seen) :
    happening.seenAt front.key (some seen) = some seen := by
  cases step with
  | fingerprint other given =>
    rw [Happening.seenAt]
    split
    · next hkey =>
      -- arguments that differ from those seen there would have dropped the path
      have hsame : (b.fingerprint other given).1 = false := by
        rw [Bool.eq_false_iff]
        intro hchanged
        rw [hchanged, Happening.settles, ← hkey, hgives.isAtOrBelow, if_pos rfl] at hkept
        cases hkept
      rw [fst_fingerprint, ← hkey, hseen, Option.any_some, bne_eq_false_iff_eq] at hsame
      rw [hsame]
    · rfl
  | dispose => cases hkept
  | _ => rfl

/-- **What waits was asked for once, and under the keys of its arguments nothing else has been seen
since.** -/
theorem Run.exists_registered (run : Run history b) (hpath : path ∈ b.pending.paths) :
    ∃ later before : History, history = later ++ .register path true :: before ∧
      ∀ front args seen, path.Gives front args → before.argumentsAt? front.key = some seen →
        history.argumentsAt? front.key = some seen := by
  induction run with
  | start new =>
    rw [new] at hpath
    cases hpath
  | @next history b b' happening run step ih =>
    rw [step.paths_eq, List.mem_append, List.mem_filter, Option.isNone_iff_eq_none,
      Option.mem_toList] at hpath
    rcases hpath with ⟨hwaits, hkept⟩ | hnew
    · obtain ⟨later, before, rfl, hseen⟩ := ih hwaits
      refine ⟨happening :: later, before, rfl, fun front args seen hgives hbefore => ?_⟩
      have hlast := hseen front args seen hgives hbefore
      rw [History.argumentsAt?_cons, hlast]
      exact step.seenAt_eq hkept hgives ((run.fingerprintOf?_eq _).trans hlast)
    · refine ⟨[], history, ?_, fun front args seen _ hbefore => ?_⟩
      · cases happening with
        | register other added =>
          cases added with
          | true => rw [Option.some.inj hnew]; rfl
          | false => cases hnew
        | _ => cases hnew
      · cases happening with
        | register other added => exact hbefore
        | _ => cases hnew

/-- **Paths that are current when they are asked for stay so** for as long as they wait. -/
theorem Run.current (run : Run history b) (hasks : history.AsksCurrent)
    (hpath : path ∈ b.pending.paths) : history.Current path := by
  obtain ⟨later, before, heq, hseen⟩ := run.exists_registered hpath
  exact fun front args hgives =>
    hseen front args _ hgives (hasks later before path true heq front args hgives)

/-- What is called for is current when the call is made. -/
theorem Run.current_of_call (run : Run (later ++ happening :: before) b)
    (hasks : History.AsksCurrent (later ++ happening :: before)) {call : Flight}
    (hcall : happening.call? = some call) (hpath : path ∈ call.paths) : before.Current path := by
  obtain ⟨b₁, b₂, hbefore, step⟩ := run.step_at
  obtain ⟨hpaths, -⟩ := step.paths_call hcall
  exact hbefore.current (History.asksCurrent_of_cons later hasks) (hpaths ▸ hpath)

/-- What is refused has the key of a path that waits. -/
theorem Run.exists_same_key (run : Run (later ++ .register path false :: before) b) :
    ∃ b₁, Run before b₁ ∧ ∃ waiting ∈ b₁.pending.paths, waiting.key = path.key := by
  obtain ⟨b₁, b₂, hbefore, step⟩ := run.step_at
  refine ⟨b₁, hbefore, ?_⟩
  generalize hadded : false = added at step
  cases step with
  | register =>
    rcases b₁.register_cases path with ⟨hrefused, -⟩ | ⟨-, b₃, -, hr⟩
    · have hkey : ¬path.key ∉ b₁.pending.paths.map Path.key := by
        rw [← hbefore.wellFormed.fst_insert, hrefused]
        exact Bool.false_ne_true
      obtain ⟨waiting, hwaiting, hsame⟩ := List.mem_map.1 (Decidable.not_not.1 hkey)
      exact ⟨waiting, hwaiting, hsame⟩
    · rw [hr] at hadded
      cases hadded

/-- Where everything is asked for with the latest arguments, what is refused gives no other
arguments than the path that waits in its place. -/
theorem Run.refused_for_same (run : Run (later ++ .register path false :: before) b)
    (hasks : History.AsksCurrent (later ++ .register path false :: before)) :
    ∃ b₁, Run before b₁ ∧ ∃ waiting ∈ b₁.pending.paths, waiting.key = path.key ∧
      ∀ front args front' args', path.Gives front args → waiting.Gives front' args' →
        front.key = front'.key → Json.text (.object args) = Json.text (.object args') := by
  obtain ⟨b₁, hbefore, waiting, hwaiting, hkey⟩ := run.exists_same_key
  refine ⟨b₁, hbefore, waiting, hwaiting, hkey, fun front args front' args' hp hq hsame => ?_⟩
  -- both give what was seen last under the one key
  have hpath := hasks later before path false rfl front args hp
  have hother := hbefore.current (History.asksCurrent_of_cons later hasks) hwaiting front' args' hq
  rw [hsame, hother] at hpath
  exact (Option.some.inj hpath).symm

end Batcher

end GraphWalk
