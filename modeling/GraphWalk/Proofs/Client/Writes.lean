import GraphWalk.Proofs.Batch.Fingerprints
import GraphWalk.Proofs.Batch.Reports
import GraphWalk.Proofs.Client.Arguments

/-!
# What the version counts

Whoever watches a client is woken when the version grows, and at no other time.  It grows by
one when arguments change, when an answer changes what is known, and at a teardown.  Nothing
else touches what is known: not a request or a pass, not a flush, and not an answer that is a
failure, is `null`, comes too late or brings nothing new.

## Main definitions

* `Happening.writes` — the happening says that it wrote.
* `Happening.Alters` — the happening has something to write.
* `Batcher.Accounts` — what a step does to what is known, and what is said of it.

## Main results

* `Batcher.Step.accounts` — every step accounts for what it writes.
* `Client.Run.version_counts_writes` — **the version counts the writes.**
-/

namespace GraphWalk

namespace Happening

/-- The happening says that it wrote: that arguments changed, that an answer changed what is known,
or that there was a teardown. -/
def writes : Happening → Bool
  | .fingerprint _ _ changed => changed
  | .complete _ (.ok _) (.ok changed) => changed
  | .dispose => true
  | _ => false

/-- The happening has something to write: arguments other than those remembered, a result of the
epoch that is not `null` and with which what is known is no longer the same, or a teardown. -/
def Alters (b : Batcher) : Happening → Prop
  | .fingerprint path args _ =>
    ∃ seen, b.pending.fingerprintOf? path.key = some seen ∧ seen ≠ Json.text (.object args)
  | .complete flight (.ok response) _ =>
    flight.epoch = b.epoch ∧ response.isNull = false ∧
      (b.merger.apply b.state.value response).same b.state.value = false
  | .dispose => True
  | _ => False

end Happening

namespace Batcher

variable {guards : Nat} {history since : History} {b b' : Batcher} {happening : Happening}
  {flight : Flight}

/-! ### An answer -/

/-- A result of the epoch is absorbed and reported. -/
theorem complete_of_current (hawaited : ∀ other ∈ b.flights, other.aborted = false)
    (hepoch : flight.epoch = b.epoch) (response : Json) :
    b.complete flight (.ok response)
      = (.ok (b.state.absorb b.merger response).1,
          { b.land flight with state := (b.state.absorb b.merger response).2 }.emit flight.batch
            (.flushed flight.keys (b.state.absorb b.merger response).1)) := by
  obtain ⟨hstate, hmerger, hland⟩ := b.land_frame flight
  have hsame : ((b.land flight).epoch != flight.epoch) = false := by
    rw [hland, hepoch]
    exact bne_self_eq_false _
  simp only [complete, isAborted_eq_false hawaited, hsame, Bool.false_eq_true, if_false, hstate,
    hmerger]

/-- A failure of the epoch is reported. -/
theorem complete_error_of_current (hawaited : ∀ other ∈ b.flights, other.aborted = false)
    (hepoch : flight.epoch = b.epoch) (e : TransportError) :
    b.complete flight (.error e)
      = (.error e, (b.land flight).emit flight.batch (.failed flight.keys e.message)) := by
  have hsame : ((b.land flight).epoch != flight.epoch) = false := by
    rw [(b.land_frame flight).2.2, hepoch]
    exact bne_self_eq_false _
  simp only [complete, isAborted_eq_false hawaited, hsame, Bool.false_eq_true, if_false]

/-- A result of another epoch changes nothing, and the answer says so. -/
theorem fst_complete_of_stale (hepoch : flight.epoch ≠ b.epoch) (response : Json) :
    (b.complete flight (.ok response)).1 = .ok false := by
  have hother : ((b.land flight).epoch != flight.epoch) = true := by
    rw [(b.land_frame flight).2.2, bne_iff_ne]
    exact hepoch.symm
  simp only [complete, hother, if_true]
  split <;> rfl

/-- A failure is answered with the failure. -/
theorem fst_complete_of_error (hawaited : ∀ other ∈ b.flights, other.aborted = false)
    (e : TransportError) : (b.complete flight (.error e)).1 = .error e := by
  simp only [complete, isAborted_eq_false hawaited, Bool.false_eq_true, if_false]
  split <;> rfl

/-! ### What a step writes -/

/-- A step writes when it has something to write. -/
theorem Step.writes_iff (step : Step guards b happening b')
    (hawaited : ∀ other ∈ b.flights, other.aborted = false) :
    happening.writes = true ↔ happening.Alters b := by
  cases step with
  | fingerprint path args =>
    rw [Happening.writes, Happening.Alters, fst_fingerprint, Option.any_eq_true]
    simp only [bne_iff_ne]
  | @complete flight outcome _ =>
    cases outcome with
    | error e => exact iff_of_false Bool.false_ne_true id
    | ok response =>
      rw [Happening.Alters]
      by_cases hepoch : flight.epoch = b.epoch
      · rw [complete_of_current hawaited hepoch, Happening.writes, State.fst_absorb_iff]
        exact (and_iff_right hepoch).symm
      · rw [fst_complete_of_stale hepoch, Happening.writes]
        exact iff_of_false Bool.false_ne_true fun h => hepoch h.1
  | dispose => exact iff_of_true rfl trivial
  | _ => exact iff_of_false Bool.false_ne_true id

/-- A step that writes nothing leaves the state as it is. -/
theorem Step.state_of_not_writes (step : Step guards b happening b')
    (h : happening.writes = false) : b'.state = b.state := by
  rw [step.state_eq, Happening.effect.eq_def]
  split
  · cases h
  · cases h
  · cases h
  · rfl

/-- A step that writes makes the version one greater, and wakes those who watch once. -/
theorem Step.counted_of_writes (step : Step guards b happening b')
    (hawaited : ∀ other ∈ b.flights, other.aborted = false) (h : happening.writes = true) :
    b'.state.version = b.state.version + 1 ∧ b'.state.wakings = b.state.wakings + 1 := by
  have halters := (step.writes_iff hawaited).1 h
  cases step with
  | fingerprint path args =>
    rw [state_fingerprint_of_changed h]
    exact ⟨State.version_evict .., State.wakings_evict ..⟩
  | @complete flight outcome _ =>
    cases outcome with
    | error e => cases halters
    | ok response =>
      obtain ⟨hepoch, hresponse⟩ := halters
      rw [complete_of_current hawaited hepoch, state_emit, State.version_absorb,
        State.wakings_absorb, (State.fst_absorb_iff _ _ _).2 hresponse, if_pos rfl]
      exact ⟨rfl, rfl⟩
  | dispose => exact ⟨State.version_reset b.state, State.wakings_reset b.state⟩
  | _ => cases h

/-! ### What a step reports -/

/-- Events join those that were not read, and a property tells which batches they report as flushed,
with which keys and whether something changed. -/
def Tells (P : BatchId → List String → Bool → Prop) (b b' : Batcher) : Prop :=
  ∃ new, b'.events = b.events ++ new ∧
    ∀ batch keys changed, (batch, .flushed keys changed) ∈ new → P batch keys changed

section Tells

variable {P : BatchId → List String → Bool → Prop}

theorem Tells.of_events_eq (h : b'.events = b.events) : Tells P b b' :=
  ⟨[], h.trans (List.append_nil _).symm, nofun⟩

/-- At most one event is reported at once. -/
theorem Tells.emit {b₁ : Batcher} (h : b₁.events = b.events) (batch : BatchId) {kind : EventKind}
    (hkind : ∀ keys changed, kind = .flushed keys changed → P batch keys changed) :
    Tells P b (b₁.emit batch kind) := by
  rw [Batcher.emit]
  split
  · refine ⟨[(batch, kind)], congrArg (· ++ _) h, fun other keys changed hmem => ?_⟩
    cases List.mem_singleton.1 hmem
    exact hkind keys changed rfl
  · exact .of_events_eq h

/-- When a flush is armed a schedule is reported, and nothing as flushed. -/
theorem Tells.arm {b₁ : Batcher} (h : b₁.events = b.events) : Tells P b b₁.arm := by
  unfold Batcher.arm
  dsimp only
  refine .emit ?_ _ ?_
  · exact h
  · rintro keys changed ⟨⟩

theorem Tells.imp {Q : BatchId → List String → Bool → Prop} (h : Tells P b b')
    (himp : ∀ batch keys changed, P batch keys changed → Q batch keys changed) : Tells Q b b' := by
  obtain ⟨new, hevents, hnew⟩ := h
  exact ⟨new, hevents, fun batch keys changed hmem => himp _ _ _ (hnew batch keys changed hmem)⟩

end Tells

/-- **Batches are reported as flushed by their answers alone**, and with what the answer says. -/
theorem Step.tells (step : Step guards b happening b')
    (hawaited : ∀ other ∈ b.flights, other.aborted = false) :
    happening = .readEvents b.events ∧ b'.events = [] ∨
    Tells (fun batch keys changed => ∃ flight response,
      happening = .complete flight (.ok response) (.ok changed) ∧ flight.batch = batch ∧
        flight.keys = keys) b b' := by
  cases step with
  | register path =>
    refine .inr ?_
    rcases b.register_cases path with ⟨-, hr⟩ | ⟨-, b₁, rfl, hr⟩
    · rw [hr]
      exact .of_events_eq rfl
    · rw [hr]
      dsimp only
      split
      · exact .of_events_eq rfl
      · exact .arm rfl
  | fingerprint path args =>
    refine .inr (.of_events_eq ?_)
    unfold Batcher.fingerprint
    dsimp only
    split <;> rfl
  | closePass =>
    refine .inr ?_
    unfold Batcher.closePass
    dsimp only
    split
    · exact .arm rfl
    · exact .of_events_eq rfl
  | @wake task _ =>
    refine .inr (.of_events_eq ?_)
    rcases b.wake_cases task with ⟨-, hw⟩ | ⟨-, -, hw⟩ | ⟨-, -, -, -, outstanding, hw⟩
    · rw [hw]
      rfl
    · rw [hw]
      rfl
    · rw [hw]
      exact events_drain (b.withoutTask task.batch) task.batch true
  | flushNow =>
    refine .inr (.of_events_eq ?_)
    rcases b.flushNow_cases with ⟨batch, -, hflush⟩ | ⟨-, hflush⟩
    · rw [hflush]
      exact events_drain b batch false
    · rw [hflush]
      exact events_drain { b with nextBatch := b.nextBatch + 1 } b.nextBatch false
  | @complete flight outcome _ =>
    refine .inr ?_
    by_cases hepoch : flight.epoch = b.epoch
    · cases outcome with
      | ok response =>
        rw [complete_of_current hawaited hepoch]
        show Tells _ b (Batcher.emit _ _ _)
        refine .emit ?_ _ ?_
        · exact events_land b flight
        · rintro keys changed ⟨⟩
          exact ⟨flight, response, rfl, rfl, rfl⟩
      | error e =>
        rw [complete_error_of_current hawaited hepoch]
        show Tells _ b (Batcher.emit _ _ _)
        refine .emit (events_land b flight) _ ?_
        rintro keys changed ⟨⟩
    · rw [complete_of_stale hepoch]
      exact .of_events_eq (events_land b flight)
  | @abandon flight _ _ => exact .inr (.of_events_eq (events_land b flight))
  | readEvents => exact .inl ⟨rfl, rfl⟩
  | openPass => exact .inr (.of_events_eq rfl)
  | dispose => exact .inr (.of_events_eq rfl)
  | setClock => exact .inr (.of_events_eq rfl)

/-! ### What a step accounts for -/

/-- What a step does to what is known, and what is said of it. -/
structure Accounts (b : Batcher) (happening : Happening) (b' : Batcher) : Prop where
  /-- The version grows by one at a write, and is kept otherwise. -/
  version : b'.state.version = b.state.version + if happening.writes then 1 else 0
  /-- Those who watch are woken once at a write, and never otherwise. -/
  wakings : b'.state.wakings = b.state.wakings + if happening.writes then 1 else 0
  /-- One who watches is told of the step when it made the version grow. -/
  notified : b.state.subscribe.hasChanged b'.state = true
    ↔ b'.state.version = b.state.version + 1
  /-- A write is made when there is something to write. -/
  writes_iff : happening.writes = true ↔ happening.Alters b
  /-- What is known changes at writes only. -/
  kept : happening.writes = false → b'.state = b.state
  /-- An answer says that something changed when it made the version grow. -/
  answer : ∀ flight outcome result, happening = .complete flight outcome result →
    (result = .ok true ↔ b'.state.version = b.state.version + 1)
  /-- Nothing is reported as flushed but a batch to which the answer has come, and the report says
  that something changed when the answer made the version grow. -/
  told : happening = .readEvents b.events ∧ b'.events = [] ∨
    Tells (fun batch keys changed => ∃ flight response,
      happening = .complete flight (.ok response) (.ok changed) ∧ flight.batch = batch ∧
        flight.keys = keys ∧ (changed = true ↔ b'.state.version = b.state.version + 1)) b b'
  /-- A failure, `null` and what comes after a teardown leave what is known, the arguments that were
  seen and what waits as they are. -/
  lost : ∀ flight outcome result, happening = .complete flight outcome result →
    ((∃ e, outcome = .error e) ∨ outcome = .ok .null ∨ flight.epoch ≠ b.epoch) →
      b'.state = b.state ∧ b'.pending = b.pending

/-- **Every step accounts for what it writes.** -/
theorem Step.accounts (step : Step guards b happening b')
    (hawaited : ∀ other ∈ b.flights, other.aborted = false) : b.Accounts happening b' := by
  have hcounted : b'.state.version = b.state.version + (if happening.writes then 1 else 0) ∧
      b'.state.wakings = b.state.wakings + if happening.writes then 1 else 0 := by
    cases hwrites : happening.writes with
    | true => exact step.counted_of_writes hawaited hwrites
    | false =>
      rw [step.state_of_not_writes hwrites]
      exact ⟨rfl, rfl⟩
  obtain ⟨hversion, hwakings⟩ := hcounted
  -- that the version grew can be read off afterwards, unlike that there was a write
  have hgrows : b'.state.version = b.state.version + 1 ↔ happening.writes = true := by
    rw [hversion, Nat.add_left_cancel_iff]
    cases happening.writes with
    | true => exact iff_of_true rfl rfl
    | false => exact iff_of_false Nat.zero_ne_one Bool.false_ne_true
  refine ⟨hversion, hwakings, ?notified, step.writes_iff hawaited, step.state_of_not_writes,
    ?answer, ?told, ?lost⟩
  case notified => rw [State.hasChanged_subscribe hwakings, hgrows]
  case answer =>
    rintro flight outcome result rfl
    rw [hgrows]
    cases step with
    | complete _ _ =>
      cases outcome with
      | error e =>
        rw [fst_complete_of_error hawaited]
        exact iff_of_false nofun Bool.false_ne_true
      | ok response =>
        cases (b.complete flight (.ok response)).1 with
        | error e => exact iff_of_false nofun Bool.false_ne_true
        | ok changed => exact ⟨Except.ok.inj, congrArg Except.ok⟩
  case told =>
    refine (step.tells hawaited).imp_right fun htells => htells.imp ?_
    rintro batch keys changed ⟨flight, response, rfl, hbatch, hkeys⟩
    exact ⟨flight, response, rfl, hbatch, hkeys, hgrows.symm⟩
  case lost =>
    rintro flight outcome result rfl hlost
    have hsilent : (Happening.complete flight outcome result).writes = false := by
      rw [Bool.eq_false_iff]
      intro hwrites
      have halters := (step.writes_iff hawaited).1 hwrites
      rcases hlost with ⟨e, rfl⟩ | rfl | hepoch
      · exact halters
      · exact Bool.noConfusion halters.2.1
      · cases outcome with
        | error e => exact halters
        | ok response => exact hepoch halters.1
    refine ⟨step.state_of_not_writes hsilent, ?_⟩
    cases step with
    | complete _ _ => exact b.pending_complete flight outcome

/-! ### What a run has written -/

/-- What happened since a batcher made the version grow by as much as was written, and woke those
who watch as often. -/
theorem Later.counted (later : Later history b since b') (run : Run history b) :
    b'.state.version = b.state.version + since.countP Happening.writes ∧
      b'.state.wakings = b.state.wakings + since.countP Happening.writes := by
  induction later with
  | now => exact ⟨rfl, rfl⟩
  | next later step ih =>
    have haccounts := step.accounts (later.run run).tracked.flight_awaited
    rw [haccounts.version, haccounts.wakings, ih.1, ih.2, List.countP_cons, Nat.add_assoc,
      Nat.add_assoc]
    exact ⟨rfl, rfl⟩

/-- When nothing was written what is known is the same. -/
theorem Later.state_eq (later : Later history b since b')
    (hsilent : ∀ happening ∈ since, happening.writes = false) : b'.state = b.state := by
  induction later with
  | now => rfl
  | next _ step ih =>
    rw [step.state_of_not_writes (hsilent _ List.mem_cons_self)]
    exact ih fun happening hmem => hsilent happening (List.mem_cons_of_mem _ hmem)

end Batcher

namespace Client

variable {config : ClientConfig} {history : History} {c : Client}

/-- **The version counts the writes.**

After any run of a client the version is the number of writes, and so is the number of times that
those who watch were woken.  Every step that may come next accounts for what it writes: the version
grows by one, and whoever watches is woken, when there is something to write, and else what is known
stays as it is; answers and reports say that something changed when it did, and a failure, `null` or
an answer that comes after a teardown touches nothing.  So whoever looks again later finds the
version as much greater as there were writes since; an equal version means that the same is known,
a greater one that there was a write, and one who has watched since is told exactly if the version
has grown. -/
theorem Run.version_counts_writes (run : Run config history c) :
    c.state.version = history.countP Happening.writes ∧
    c.state.wakings = history.countP Happening.writes ∧
    (∀ happening b, Batcher.Step history.guards c.batcher happening b →
      c.batcher.Accounts happening b) ∧
    ∀ since b, Batcher.Later history c.batcher since b →
      b.state.version = c.state.version + since.countP Happening.writes ∧
      b.state.wakings = c.state.wakings + since.countP Happening.writes ∧
      (b.state.version = c.state.version → b.state = c.state) ∧
      (b.state.version ≠ c.state.version ↔ ∃ happening ∈ since, happening.writes = true) ∧
      (c.state.subscribe.hasChanged b.state = true ↔ c.state.version < b.state.version) := by
  have hnew : Batcher.Run [] (new config).batcher := .start rfl
  have hrun : Batcher.Run history c.batcher := by
    have hcut := run.batcher.run hnew
    rwa [List.append_nil] at hcut
  obtain ⟨hversion, hwakings⟩ := run.batcher.counted hnew
  refine ⟨hversion.trans (Nat.zero_add _), hwakings.trans (Nat.zero_add _),
    fun happening b step => step.accounts hrun.tracked.flight_awaited, fun since b later => ?_⟩
  have hcounted : b.state.version = c.state.version + since.countP Happening.writes ∧
      b.state.wakings = c.state.wakings + since.countP Happening.writes := later.counted hrun
  obtain ⟨hversion, hwakings⟩ := hcounted
  have hsilent : b.state.version = c.state.version ↔
      ∀ happening ∈ since, happening.writes ≠ true := by
    rw [hversion, Nat.add_eq_left, List.countP_eq_zero]
  refine ⟨hversion, hwakings, fun hsame => later.state_eq fun happening hmem => ?_, ?_, ?_⟩
  · exact Bool.eq_false_iff.2 (hsilent.1 hsame happening hmem)
  · rw [Ne, hsilent]
    simp only [not_forall, not_not, exists_prop]
  · -- the wakings and the version are both ahead by the writes since
    rw [State.hasChanged_subscribe_iff, hversion, hwakings]
    omega

/-- Arguments seen for the first time, a request and a flush write nothing.  The answer does, and so
does a teardown, of which whoever watches is told. -/
theorem version_counts_writes_names :
    let known : Client :=
      { Client.new {} with batcher := (namesSent.complete namesCall (.ok oneItem)).2 }
    known.state.version = 1 ∧ known.dispose.state.version = known.state.version + 1 ∧
      known.state.subscribe.hasChanged known.dispose.state = true := by
  intro known
  have hsent : Batcher.Later [] (Client.new {}).batcher [.flushNow (some namesCall),
      .register ownerNames true, .fingerprint owners [("role", .string "old")] false] namesSent :=
    .next (.next (.next .now (.fingerprint owners [("role", .string "old")]))
      (.register ownerNames)) .flushNow
  have hcall : namesSent.flights = [namesCall] := rfl
  have run : Run {} (.complete namesCall (.ok oneItem) (.ok true) :: _) known :=
    ⟨rfl, rfl, hsent.next (.complete (.ok oneItem) (hcall ▸ List.mem_cons_self))⟩
  obtain ⟨hversion, -, haccounts, -⟩ := run.version_counts_writes
  have hdispose := haccounts _ _ .dispose
  exact ⟨hversion, hdispose.version, hdispose.notified.2 hdispose.version⟩

end Client

end GraphWalk
