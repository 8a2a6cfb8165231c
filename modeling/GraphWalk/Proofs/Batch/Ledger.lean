import GraphWalk.Proofs.Batch.Numbers
import GraphWalk.Proofs.Batch.Waiting

/-!
# The ledger of requests

Every request that a batcher takes on gets a ticket, and the first happening that
settles its path decides what becomes of it.  The ledger holds the tickets in the order
of registration.  After every run it agrees with the batcher and with the transport:
the tickets that wait are the paths that wait, and the tickets of a batch are the paths
of its call, in the same order.

## Main definitions

* `Ticket` — a request that was taken on, and what has become of it.
* `History.ledger` — the tickets of a history, in the order of registration.
* `Ledger.pathsOf` — the paths of the tickets that came to a given end.

## Main results

* `Batcher.Run.balanced` — the ledger agrees with the batcher and with the calls.
* `Batcher.requests_conserved` — no request is lost or sent twice.
-/

namespace GraphWalk

/-- What the happenings after a request made of its path, the latest of them first.  The first that
settles the path decides. -/
def Fate.after (path : Path) : History → Fate
  | [] => .waiting
  | happening :: since =>
    if after path since = .waiting then (happening.settles path).getD .waiting
    else after path since

/-- A request that was taken on. -/
structure Ticket where
  /-- What was asked for. -/
  path : Path
  /-- What has happened since, the latest first. -/
  since : History := []

namespace Ticket

/-- What has become of the request. -/
def fate (ticket : Ticket) : Fate := .after ticket.path ticket.since

/-- One more thing happens. -/
def meet (happening : Happening) (ticket : Ticket) : Ticket :=
  { ticket with since := happening :: ticket.since }

variable {happening : Happening} {ticket : Ticket}

@[simp] theorem path_meet (happening : Happening) (ticket : Ticket) :
    (ticket.meet happening).path = ticket.path := rfl

/-- A new ticket waits. -/
@[simp] theorem fate_new (path : Path) : fate { path } = .waiting := rfl

theorem fate_meet_of_settled (h : ticket.fate ≠ .waiting) :
    (ticket.meet happening).fate = ticket.fate := if_neg h

theorem fate_meet_of_waiting (h : ticket.fate = .waiting) :
    (ticket.meet happening).fate = (happening.settles ticket.path).getD .waiting := if_pos h

end Ticket

/-- The tickets of the requests that were taken on, in the order of registration. -/
def History.ledger : History → List Ticket
  | [] => []
  | happening :: history =>
    (ledger history).map (Ticket.meet happening)
      ++ happening.accepted?.toList.map fun path => { path }

namespace Ledger

/-- The paths of the tickets that came to a given end. -/
def pathsOf (fate : Fate) (tickets : List Ticket) : List Path :=
  (tickets.filter fun ticket => ticket.fate == fate).map Ticket.path

variable {happening : Happening} {tickets : List Ticket} {fate : Fate}

theorem pathsOf_cons (fate : Fate) (ticket : Ticket) (tickets : List Ticket) :
    pathsOf fate (ticket :: tickets)
      = if ticket.fate = fate then ticket.path :: pathsOf fate tickets
        else pathsOf fate tickets := by
  unfold pathsOf
  rw [List.filter_cons]
  by_cases h : ticket.fate = fate
  · rw [if_pos h, if_pos (beq_iff_eq.2 h), List.map_cons]
  · rw [if_neg h, if_neg (fun hbeq => h (beq_iff_eq.1 hbeq))]

theorem pathsOf_append (fate : Fate) (old new : List Ticket) :
    pathsOf fate (old ++ new) = pathsOf fate old ++ pathsOf fate new := by
  rw [pathsOf, List.filter_append, List.map_append]
  rfl

/-- New tickets wait. -/
theorem pathsOf_waiting_new (paths : List Path) :
    pathsOf .waiting (paths.map fun path => { path }) = paths := by
  induction paths with
  | nil => rfl
  | cons path paths ih => rw [List.map_cons, pathsOf_cons, Ticket.fate_new, if_pos rfl, ih]

theorem pathsOf_new (hfate : fate ≠ .waiting) (paths : List Path) :
    pathsOf fate (paths.map fun path => { path }) = [] := by
  induction paths with
  | nil => rfl
  | cons path paths ih => rw [List.map_cons, pathsOf_cons, Ticket.fate_new, if_neg hfate.symm, ih]

/-- The tickets that wait on are those that waited and were not settled. -/
theorem pathsOf_waiting_meet (happening : Happening) (tickets : List Ticket) :
    pathsOf .waiting (tickets.map (Ticket.meet happening))
      = (pathsOf .waiting tickets).filter fun path => (happening.settles path).isNone := by
  induction tickets with
  | nil => rfl
  | cons ticket tickets ih =>
    rw [List.map_cons, pathsOf_cons, pathsOf_cons, Ticket.path_meet, ih]
    by_cases h : ticket.fate = .waiting
    · rw [Ticket.fate_meet_of_waiting h, if_pos h, List.filter_cons]
      cases hs : happening.settles ticket.path with
      | none => rfl
      | some fate =>
        rw [Option.getD_some, if_neg, if_neg]
        · exact Bool.false_ne_true
        · rintro rfl
          exact Batcher.settles_ne_waiting _ hs
    · rw [Ticket.fate_meet_of_settled h, if_neg h, if_neg h]

/-- Tickets that came to an end to which this happening brings nobody are as they were. -/
theorem pathsOf_meet (hfate : fate ≠ .waiting) (tickets : List Ticket)
    (hnobody : ∀ path, happening.settles path ≠ some fate) :
    pathsOf fate (tickets.map (Ticket.meet happening)) = pathsOf fate tickets := by
  induction tickets with
  | nil => rfl
  | cons ticket tickets ih =>
    rw [List.map_cons, pathsOf_cons, pathsOf_cons, Ticket.path_meet, ih]
    by_cases h : ticket.fate = .waiting
    · rw [Ticket.fate_meet_of_waiting h, h, if_neg hfate.symm, if_neg]
      cases hs : happening.settles ticket.path with
      | none => exact hfate.symm
      | some reached =>
        rintro rfl
        exact hnobody _ hs
    · rw [Ticket.fate_meet_of_settled h]

/-- A happening that brings everybody who waits to an end that nobody came to before. -/
theorem pathsOf_meet_all (tickets : List Ticket)
    (hall : ∀ path, happening.settles path = some fate)
    (hnew : ∀ ticket ∈ tickets, ticket.fate ≠ fate) :
    pathsOf fate (tickets.map (Ticket.meet happening)) = pathsOf .waiting tickets := by
  induction tickets with
  | nil => rfl
  | cons ticket tickets ih =>
    rw [List.map_cons, pathsOf_cons, pathsOf_cons, Ticket.path_meet,
      ih fun other hother => hnew other (List.mem_cons_of_mem _ hother)]
    by_cases h : ticket.fate = .waiting
    · rw [Ticket.fate_meet_of_waiting h, hall, Option.getD_some, if_pos rfl, if_pos h]
    · rw [Ticket.fate_meet_of_settled h, if_neg (hnew ticket List.mem_cons_self), if_neg h]

end Ledger

/-! ### What speaks for a fate -/

/-- What speaks for the fate of a path among the happenings since it was asked for: a call of its
batch, a change of arguments at or above its key, a teardown. -/
def Fate.Accounted (path : Path) (since : History) : Fate → Prop
  | .waiting => ∀ happening ∈ since, happening.settles path = none
  | .sent batch => ∃ call ∈ since.calls, call.batch = batch
  | .dropped key => Path.isAtOrBelow path.key key = true ∧
      ∃ changed args, changed.key = key ∧ Happening.fingerprint changed args true ∈ since
  | .cleared => Happening.dispose ∈ since

namespace Batcher

open Ledger

variable {history since : History} {happening : Happening} {guards : Nat} {b b' : Batcher}

/-- A happening speaks for what it makes of a path. -/
theorem accounted_of_settles {path : Path} {fate : Fate}
    (h : happening.settles path = some fate) : fate.Accounted path (happening :: since) := by
  cases fate with
  | waiting => exact absurd h (settles_ne_waiting path)
  | sent batch =>
    obtain ⟨call, hcall, hbatch⟩ := call_of_settles h
    refine ⟨call, ?_, hbatch⟩
    rw [History.calls_cons, hcall]
    exact List.mem_append_left _ (List.mem_singleton.2 rfl)
  | dropped key =>
    cases happening with
    | fingerprint changed args yes =>
      cases yes with
      | false => cases h
      | true =>
        rw [Happening.settles] at h
        split at h
        · next hbelow =>
          cases h
          exact ⟨hbelow, changed, args, rfl, List.mem_cons_self⟩
        · cases h
    | wake _ made => cases made <;> cases h
    | flushNow made => cases made <;> cases h
    | _ => cases h
  | cleared =>
    cases happening with
    | dispose => exact List.mem_cons_self
    | wake _ made => cases made <;> cases h
    | flushNow made => cases made <;> cases h
    | fingerprint _ _ yes =>
      cases yes with
      | false => cases h
      | true =>
        rw [Happening.settles] at h
        split at h <;> cases h
    | _ => cases h

/-- Something speaks for every fate. -/
theorem accounted_after (path : Path) (since : History) :
    (Fate.after path since).Accounted path since := by
  -- the first happening that settles the path speaks for its fate, and the later ones keep it
  induction since with
  | nil => exact nofun
  | cons happening since ih =>
    rw [Fate.after]
    cases hbefore : Fate.after path since with
    | waiting =>
      rw [if_pos rfl]
      rw [hbefore] at ih
      cases hs : happening.settles path with
      | none => exact List.forall_mem_cons.2 ⟨hs, ih⟩
      | some fate => exact accounted_of_settles hs
    | sent batch =>
      rw [if_neg Fate.noConfusion]
      rw [hbefore] at ih
      obtain ⟨call, hcall, hbatch⟩ := ih
      refine ⟨call, ?_, hbatch⟩
      rw [History.calls_cons]
      exact List.mem_append_right _ hcall
    | dropped key =>
      rw [if_neg Fate.noConfusion]
      rw [hbefore] at ih
      obtain ⟨hbelow, changed, args, hkey, hmem⟩ := ih
      exact ⟨hbelow, changed, args, hkey, List.mem_cons_of_mem _ hmem⟩
    | cleared =>
      rw [if_neg Fate.noConfusion]
      rw [hbefore] at ih
      exact List.mem_cons_of_mem _ ih

/-- Every ticket stands for a request in the history and has seen all that happened since. -/
theorem request_of_ticket {ticket : Ticket} (h : ticket ∈ history.ledger) :
    ∃ before, history = ticket.since ++ .register ticket.path true :: before := by
  induction history generalizing ticket with
  | nil => cases h
  | cons happening history ih =>
    rw [History.ledger, List.mem_append, List.mem_map, List.mem_map] at h
    rcases h with ⟨old, hold, rfl⟩ | ⟨path, hpath, rfl⟩
    -- an old ticket has seen one happening more, and a new one has seen none
    · obtain ⟨before, hbefore⟩ := ih hold
      exact ⟨before, congrArg (happening :: ·) hbefore⟩
    · rw [Option.mem_toList] at hpath
      cases happening with
      | register asked added =>
        cases added with
        | false => cases hpath
        | true =>
          cases hpath
          exact ⟨history, rfl⟩
      | _ => cases hpath

/-- A ticket that was sent was sent by a call. -/
theorem call_of_ticket {ticket : Ticket} {batch : BatchId} (h : ticket ∈ history.ledger)
    (hfate : ticket.fate = .sent batch) : batch ∈ history.calls.map Flight.batch := by
  obtain ⟨before, hhistory⟩ := request_of_ticket h
  have haccounted := accounted_after ticket.path ticket.since
  rw [show Fate.after ticket.path ticket.since = .sent batch from hfate] at haccounted
  obtain ⟨call, hcall, rfl⟩ := haccounted
  refine List.mem_map_of_mem ?_
  rw [hhistory, History.calls, List.filterMap_append]
  exact List.mem_append_left _ hcall

/-! ### The ledger, the batcher and the calls -/

/-- The ledger agrees with the batcher and with the calls of the transport. -/
structure Balanced (history : History) (b : Batcher) : Prop where
  accepted : history.ledger.map Ticket.path = history.accepted
  waiting : pathsOf .waiting history.ledger = b.pending.paths
  sent : ∀ call ∈ history.calls, call.paths = pathsOf (.sent call.batch) history.ledger

theorem Balanced.step (h : Balanced history b)
    (fresh : ((History.calls (happening :: history)).map Flight.batch).Nodup)
    (step : Step guards b happening b') : Balanced (happening :: history) b' := by
  rw [History.calls_cons] at fresh
  constructor
  case accepted =>
    rw [History.ledger, List.map_append, List.map_map, List.map_map, History.accepted_cons,
      ← h.accepted]
    exact congrArg _ (List.map_id _)
  case waiting =>
    rw [History.ledger, pathsOf_append, pathsOf_waiting_meet, pathsOf_waiting_new, h.waiting,
      step.paths_eq]
  case sent =>
    intro call hcall
    rw [History.calls_cons] at hcall
    rw [History.ledger, pathsOf_append, pathsOf_new Fate.noConfusion, List.append_nil]
    cases hnow : happening.call? with
    | none =>
      rw [hnow, Option.toList_none, List.nil_append] at hcall
      rw [pathsOf_meet Fate.noConfusion, h.sent call hcall]
      intro path hpath
      obtain ⟨other, hother, -⟩ := call_of_settles hpath
      exact absurd (hnow.symm.trans hother) nofun
    | some made =>
      rw [hnow, Option.toList_some, List.singleton_append] at hcall fresh
      have hmade := settles_of_call hnow
      obtain ⟨hunused, -⟩ := List.nodup_cons.1 fresh
      rcases List.mem_cons.1 hcall with rfl | hcall
      · -- the batch is new, so nobody was sent with it before
        rw [pathsOf_meet_all _ hmade, h.waiting, (step.paths_call hnow).1]
        exact fun ticket hticket hfate => hunused (call_of_ticket hticket hfate)
      · rw [pathsOf_meet Fate.noConfusion, h.sent call hcall]
        intro path hpath
        rw [hmade path, Option.some.injEq, Fate.sent.injEq] at hpath
        exact hunused (hpath ▸ List.mem_map_of_mem hcall)

theorem Run.balanced (run : Run history b) : Balanced history b := by
  induction run with
  | start new =>
    rw [new]
    exact ⟨rfl, rfl, nofun⟩
  | next run step ih => exact ih.step (run.next step).tracked.calls_nodup step

/-- Every call takes at least one path, and no two of one key. -/
theorem Run.calls_distinct (run : Run history b) {call : Flight} (hcall : call ∈ history.calls) :
    call.paths ≠ [] ∧ (call.paths.map Path.key).Nodup := by
  induction run with
  | start _ => cases hcall
  | next run step ih =>
    rw [History.calls_cons, List.mem_append, Option.mem_toList] at hcall
    rcases hcall with hnow | hbefore
    · obtain ⟨hpaths, hne⟩ := step.paths_call hnow
      rw [hpaths]
      exact ⟨hne, run.wellFormed.paths_nodup⟩
    · exact ih hbefore

/-- **No request is lost or sent twice.**

After any run the tickets are the requests that were taken on, one each and in their order; those
that wait are the paths that wait, those of a batch are the paths of its call, and for the others
there was a change of arguments at or above their key or a teardown since they were asked for.  No
call has no path or two of one key, and no batch was called twice. -/
theorem requests_conserved (run : Run history b) :
    history.ledger.map Ticket.path = history.accepted ∧
    (∀ ticket ∈ history.ledger,
      (∃ before, history = ticket.since ++ .register ticket.path true :: before) ∧
      ticket.fate.Accounted ticket.path ticket.since) ∧
    pathsOf .waiting history.ledger = b.pending.paths ∧
    (∀ call ∈ history.calls,
      call.paths = pathsOf (.sent call.batch) history.ledger ∧
      call.paths ≠ [] ∧ (call.paths.map Path.key).Nodup) ∧
    (history.calls.map Flight.batch).Nodup := by
  have hbalanced := run.balanced
  refine ⟨hbalanced.accepted, ?_, hbalanced.waiting, ?_, run.tracked.calls_nodup⟩
  · intro ticket hticket
    exact ⟨request_of_ticket hticket, accounted_after ticket.path ticket.since⟩
  · intro call hcall
    exact ⟨hbalanced.sent call hcall, run.calls_distinct hcall⟩

/-- A request is registered, somebody flushes, and the task of the batch wakes all the same: the
request was sent once. -/
theorem requests_conserved_flushed_twice :
    let item := Path.ofFields ["item", "name"]
    let requested : Batcher := (({} : Batcher).register item).2
    let call : Flight := { batch := 0, epoch := 0, paths := [item], byTask := false }
    let history : History :=
      [.wake { batch := 0, due := 0 } none, .flushNow (some call), .register item true]
    Run history (requested.flushNow.2.wake { batch := 0, due := 0 }).2 ∧
      pathsOf (.sent 0) history.ledger = [item] ∧ (history.calls.map Flight.batch).Nodup := by
  intro item requested call history
  have new : IsNew {} := rfl
  have run : Run history (requested.flushNow.2.wake { batch := 0, due := 0 }).2 :=
    .next (.next (.next (.start new) (.register item)) .flushNow) (.wake List.mem_cons_self)
  obtain ⟨-, -, -, hcalls, honce⟩ := requests_conserved run
  exact ⟨run, (hcalls call (List.mem_singleton.2 rfl)).1.symm, honce⟩

end Batcher

end GraphWalk
