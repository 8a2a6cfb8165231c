import GraphWalk.Proofs.Batch.Later
import GraphWalk.Proofs.Path.Keys
import GraphWalk.Proofs.Traversal.Following

/-!
# An argument change

Pending paths are dropped by their keys, the state is pruned by names, and a walk looks
values up by what tells its leaves.  All three agree on what lies at or below some
fields: when the arguments at a path change, nothing there is waited for or found any
more, and nothing else is touched.

## Main definitions

* `Client.Run` — a client, and what happened to it since it was built.
* `Client.Forgets` — what a client forgets at and below some fields, and what it keeps.

## Main results

* `Client.forgets_of_fingerprint` — **what a change of arguments does.**
-/

namespace GraphWalk

namespace Client

/-- A client of a configuration, and what happened to its batcher since it was built. -/
structure Run (config : ClientConfig) (history : History) (c : Client) : Prop where
  schema : c.schema = (Client.new config).schema
  marker : c.marker = (Client.new config).marker
  batcher : Batcher.Later [] (Client.new config).batcher history c.batcher

/-- What a client has forgotten at and below some fields since it was another one, and what it has
kept. -/
structure Forgets (fields : List String) (c c' : Client) : Prop where
  /-- What waits at or below the fields was dropped; the other paths wait in their order. -/
  pending : c'.pendingPaths = c.pendingPaths.filter fun waiting => !fields.isPrefixOf waiting.fields
  /-- A walk from the root along the fields finds nothing, however it goes on from there. -/
  lost : ∀ keys more, c'.state.value.Follows c'.leafMarker fields keys →
    (c'.query.walk (keys ++ more) c').1.value? = none
  /-- Places that are not at or below the fields hold what they held: on the way to the fields they
  are told by themselves, elsewhere with everything in them. -/
  kept : ∀ place, ¬Place.Under c.leafMarker fields place →
    (c'.state.value.place? place).map Json.husk = (c.state.value.place? place).map Json.husk ∧
    (¬place.names <+: fields → c'.state.value.place? place = c.state.value.place? place)
  /-- This was one write. -/
  version : c'.state.version = c.state.version + 1

variable {config : ClientConfig} {history : History} {c : Client} {path : Path} {args : Dict Json}

/-- Results are marked by what tells the leaves. -/
theorem Run.marker_eq (run : Run config history c) : c.batcher.merger.marker = c.leafMarker := by
  rw [run.batcher.merger_eq, leafMarker, run.schema, run.marker]
  rfl

/-- A change of arguments drops what waits below the path's key, and prunes the state. -/
theorem fingerprint_of_changed (h : (Query.fingerprint path args c).1 = true) :
    (Query.fingerprint path args c).2.pendingPaths
        = c.pendingPaths.filter (fun waiting => !Path.isAtOrBelow waiting.key path.key) ∧
      (Query.fingerprint path args c).2.state
        = c.state.evict path.fields c.batcher.merger.marker ∧
      (Query.fingerprint path args c).2.schema = c.schema ∧
      (Query.fingerprint path args c).2.marker = c.marker := by
  have hchanged : (c.batcher.fingerprint path args).1 = true := h
  have step : Batcher.Step 0 c.batcher _ _ := .fingerprint path args
  refine ⟨?_, Batcher.state_fingerprint_of_changed hchanged, rfl, rfl⟩
  show (c.batcher.fingerprint path args).2.pending.paths = _
  rw [step.paths_eq, hchanged]
  refine (List.append_nil _).trans (List.filter_congr fun waiting _ => ?_)
  rw [Happening.settles]
  cases Path.isAtOrBelow waiting.key path.key <;> rfl

/-- **What a change of arguments does.**  With it a client forgets what waits and what is known at
and below the path, in every spelling that a walk looks for, and nothing else. -/
theorem forgets_of_fingerprint (run : Run config history c) (hfields : path.fields ≠ [])
    (hnames : ∀ name ∈ path.fields,
      name ≠ "" ∧ Path.IsPlain name ∧ unmarked? c.marker name = none)
    (hpending : ∀ waiting ∈ c.pendingPaths, ∀ name ∈ waiting.fields, Path.IsPlain name)
    (hchanged : (Query.fingerprint path args c).1 = true) :
    Forgets path.fields c (Query.fingerprint path args c).2 := by
  obtain ⟨hpaths, hstate, hschema, hmarker⟩ := fingerprint_of_changed hchanged
  generalize (Query.fingerprint path args c).2 = c' at hpaths hstate hschema hmarker ⊢
  have hleaves : c'.leafMarker = c.leafMarker := by
    rw [leafMarker, leafMarker, hschema, hmarker]
  have hvalue : c'.state.value = State.evicted c.leafMarker path.fields c.state.value := by
    rw [hstate, run.marker_eq]
    rfl
  constructor
  case pending =>
    rw [hpaths]
    refine List.filter_congr fun waiting hwaiting => ?_
    -- the keys tell the fields, since no name has a separator in it
    have hbelow := Path.isAtOrBelow_key_iff
      (fun name hname => ⟨(hnames name hname).1, (hnames name hname).2.1⟩)
      (hpending waiting hwaiting) hfields
    rw [← List.isPrefixOf_iff_prefix] at hbelow
    rw [Bool.eq_iff_iff.2 hbelow]
  case lost =>
    intro keys more hfollows
    refine Traversal.walk_of_lacks hfollows rfl ?_ ?_ more
    · rw [hleaves, hvalue]
      exact State.lacks_evicted c.leafMarker path.fields c.state.value
    · intro name hname
      rw [hmarker]
      exact (hnames name hname).2.2
  case kept =>
    intro place hplace
    rw [hvalue]
    exact State.place?_evicted_of_not_under hfields c.state.value hplace
  case version => rw [hstate, State.version_evict]

/-! ### Items and their owners -/

/-- The owners of some items. -/
def owners : Path := .ofFields ["items", "owner"]

/-- The names of the owners of some items. -/
def ownerNames : Path := .ofFields ["items", "owner", "name"]

/-- The names of the owners were sent for, with arguments. -/
def namesSent : Batcher :=
  (((Client.new {}).batcher.fingerprint owners [("role", .string "old")]).2.register
    ownerNames).2.flushNow.2

/-- What was sent. -/
def namesCall : Flight := { batch := 0, epoch := 0, paths := [ownerNames], byTask := false }

/-- One item, with the name of its owner. -/
def oneItem : Json :=
  .object [("items", .array [.object [("owner", .object [("name", .string "Ann")])]])]

/-- A client that knows the name, and waits for it again and for something else. -/
def namesKnown : Client :=
  { Client.new {} with
    batcher := (((namesSent.complete namesCall (.ok oneItem)).2.register ownerNames).2.register
      (.ofFields ["items", "id"])).2 }

theorem namesKnown_run : ∃ history, Run {} history namesKnown := by
  have hsent : Batcher.Later [] (Client.new {}).batcher _ namesSent :=
    .next (.next (.next .now (.fingerprint owners [("role", .string "old")]))
      (.register ownerNames)) .flushNow
  have hcall : namesSent.flights = [namesCall] := rfl
  have hanswered := hsent.next (.complete (.ok oneItem) (hcall ▸ List.mem_cons_self))
  exact ⟨_, rfl, rfl, .next (hanswered.next (.register ownerNames))
    (.register (.ofFields ["items", "id"]))⟩

/-- The owners have other arguments now.  The name that was known is gone and waits no longer; what
was asked for beside it still waits. -/
theorem forgets_of_fingerprint_owners :
    let changed := (Query.fingerprint owners [("role", .string "new")] namesKnown).2
    let keys := ["items", "0", "owner"]
    (namesKnown.query.walk (keys ++ ["$name"]) namesKnown).1.value? = some (.string "Ann") ∧
      (changed.query.walk (keys ++ ["$name"]) changed).1.value? = none ∧
      namesKnown.pendingPaths = [ownerNames, .ofFields ["items", "id"]] ∧
      changed.pendingPaths = [.ofFields ["items", "id"]] := by
  intro changed keys
  obtain ⟨history, run⟩ := namesKnown_run
  have hpaths : namesKnown.pendingPaths = [ownerNames, .ofFields ["items", "id"]] := rfl
  have hnames : ∀ field ∈ owners.fields,
      field ≠ "" ∧ Path.separator ∉ field.toList ∧ unmarked? namesKnown.marker field = none := by
    decide +kernel
  have hpending : ∀ waiting ∈ namesKnown.pendingPaths, ∀ field ∈ waiting.fields,
      Path.separator ∉ field.toList := by
    decide +kernel
  have hforgets : Forgets owners.fields namesKnown changed :=
    forgets_of_fingerprint run (List.cons_ne_nil _ _) hnames hpending rfl
  have hfollows : changed.state.value.Follows changed.leafMarker owners.fields keys := by
    have hvalue : changed.state.value = .object [("items", .array [.object []])] := rfl
    rw [hvalue]
    exact .field nofun (.item rfl (.last nofun (.inl rfl)))
  refine ⟨rfl, hforgets.lost keys ["$name"] hfollows, hpaths, ?_⟩
  rw [hforgets.pending, hpaths]
  rfl

end Client

end GraphWalk
