import GraphWalk.Proofs.Batch.Flush
import GraphWalk.Proofs.Selection.Leaves
import GraphWalk.Proofs.Traversal.Walk

/-!
# What is asked for is fetched once

Where a schema tells the leaves, a pass asks for the leaves that are not known.  When
what waits is flushed and the server answers with a value at each of the selected places,
the state has a value at every leaf of the pass, and a second pass over the same leaves
answers from the state and asks for nothing.

## Main definitions

* `Json.Responds` — a response has values at the selected places and nowhere else.
* `Client.UsesSchema` — a client with a schema, after any run and with any state.
* `Query.pass`, `Traversal.visit` — walks from the root, maybe while a pass is held open.

## Main results

* `Traversal.fetched_once` — **a second pass answers every leaf and asks for nothing.**
-/

namespace GraphWalk

/-! ### Responses -/

/-- A response to a selection has a value at every selected place, reached through objects, and
apart from what lies inside these values it has nothing else. -/
structure Json.Responds (selection response : Json) : Prop where
  ordered : response.Ordered
  present : ∀ names, selection.at? names = some (.bool true) → (response.at? names).isSome = true
  nothing_else : ∀ names v, response.at? names = some v →
    ∃ leaf, selection.at? leaf = some (.bool true) ∧ (names <+: leaf ∨ leaf <+: names)

theorem Dict.get?_singleton {α : Type} {name key : String} {value found : α}
    (h : get? [(name, value)] key = some found) : key = name ∧ value = found := by
  rw [get?_cons] at h
  split at h
  · next hkey => exact ⟨hkey, Option.some.inj h⟩
  · cases h

namespace Json

open Selection

variable {known response : Json} {asked : List (List String)}

/-- What was asked for is found in the merged value. -/
theorem at?_merge_of_asked (policy : ListPolicy) (hsep : Separate asked)
    (hr : (ofFields asked).Responds response)
    {names : List String} (hasked : names ∈ asked) (hunknown : known.at? names = none) :
    ∃ w, response.at? names = some w ∧ (known.merge policy response).at? names = some w := by
  have hpresent := hr.present names ((selected_iff hsep names).2 hasked)
  obtain ⟨w, hw⟩ := Option.isSome_iff_exists.1 hpresent
  exact ⟨w, hw, at?_merge_of_unknown hr.ordered hw hunknown⟩

/-- What was known at a place apart from everything that was asked for is kept. -/
theorem at?_merge_of_apart (policy : ListPolicy) (hsep : Separate asked)
    (hr : (ofFields asked).Responds response)
    {names : List String} {v : Json} (hv : known.at? names = some v)
    (hapart : ∀ leaf ∈ asked, Apart names leaf) :
    (known.merge policy response).at? names = some v := by
  refine at?_merge_of_known hr.ordered hv ?_ ?_
  · cases hreach : response.at? names with
    | none => rfl
    | some w =>
      obtain ⟨leaf, hleaf, hcompare⟩ := hr.nothing_else names w hreach
      have happart := hapart leaf ((selected_iff hsep leaf).1 hleaf)
      exact absurd hcompare (not_or.2 happart)
  · rintro init more w rfl hmore hw
    obtain ⟨leaf, hleaf, hcompare⟩ := hr.nothing_else init w hw
    have happart := hapart leaf ((selected_iff hsep leaf).1 hleaf)
    rcases hcompare with ⟨rest, rfl⟩ | hthrough
    · cases rest with
      | nil =>
        rw [List.append_nil] at happart
        exact absurd (List.prefix_append init more) happart.2
      | cons next rest =>
        -- something selected lies below, so there is an object here
        obtain ⟨value, hvalue⟩ := Option.isSome_iff_exists.1 (hr.present _ hleaf)
        obtain ⟨members, hmembers⟩ := exists_object_of_at?_append hvalue (List.cons_ne_nil _ _)
        exact ⟨members, Option.some.inj (hw.symm.trans hmembers)⟩
    · exact absurd (hthrough.trans (List.prefix_append init more)) happart.2

/-- The value of a field, below the field above it, responds to a path of the two. -/
theorem responds_pair (outer inner : String) {value : Json} (hvalue : value.Ordered) :
    (ofFields [[outer, inner]]).Responds (.object [(outer, .object [(inner, value)])]) := by
  have hselected := selected_iff (Separate.singleton (List.cons_ne_nil outer [inner]))
  constructor
  case ordered => simp [Json.Ordered, Json.OrderedMembers, Dict.Ascending, hvalue]
  case present =>
    intro names hnames
    rw [List.mem_singleton.1 ((hselected names).1 hnames)]
    simp [at?_cons]
  case nothing_else =>
    intro names v hv
    refine ⟨[outer, inner], (hselected _).2 (List.mem_singleton.2 rfl), ?_⟩
    cases names with
    | nil => exact .inl List.nil_prefix
    | cons first rest =>
      obtain ⟨_, _, hmembers, hfirst, hv⟩ := exists_member_of_at?_cons hv
      obtain rfl := Json.object.inj hmembers
      obtain ⟨rfl, rfl⟩ := Dict.get?_singleton hfirst
      cases rest with
      | nil => exact .inl ⟨[inner], rfl⟩
      | cons second rest =>
        obtain ⟨_, _, hmembers, hsecond, -⟩ := exists_member_of_at?_cons hv
        cases hmembers
        obtain ⟨rfl, -⟩ := Dict.get?_singleton hsecond
        exact .inr ⟨rest, rfl⟩

end Json

/-! ### Passes -/

/-- What is done while a pass is held open. -/
def Query.pass {α : Type} (q : Query α) : Query α := do
  modify fun c => { c with batcher := c.batcher.openPass }
  let answer ← q
  modify fun c => { c with batcher := c.batcher.closePass }
  return answer

/-- A client with the schema of a text.  Its batcher has been through any run, and anything may be
known. -/
structure Client.UsesSchema (text : String) (c : Client) : Prop where
  schema : c.schema = some (.ofText text)
  unmarked : c.batcher.merger.marker = none
  reached : ∃ history state, Batcher.Run history { c.batcher with state }

namespace Batcher

variable {b : Batcher}

/-- Closing a pass leaves what waits and what is known alone. -/
theorem closePass_frame (b : Batcher) :
    b.closePass.state = b.state ∧ b.closePass.merger = b.merger ∧
      b.closePass.pending.paths = b.pending.paths := by
  unfold closePass
  dsimp only
  split
  · refine ⟨state_arm _, (arm_frame _).2.1, ?_⟩
    rw [pending_arm]
    rfl
  · exact ⟨rfl, rfl, rfl⟩

/-- A pass in which nothing is asked for leaves no trace. -/
theorem closePass_openPass (h : b.pending.paths = []) : b.openPass.closePass = b := by
  have hidle : (b.openPass.pending.closePass.1 && !b.openPass.pending.closePass.2.isEmpty
      && !b.openPass.pending.closePass.2.isScheduled) = false := by
    rw [show b.openPass.pending.closePass.2.isEmpty = true from List.isEmpty_iff.2 h,
      Bool.not_true, Bool.and_false, Bool.false_and]
  unfold closePass
  exact (if_neg (Bool.eq_false_iff.1 hidle)).trans rfl

end Batcher

namespace Traversal

open Selection

variable {text : String} {s : Schema} {c : Client} {known : Json} {paths : List (List String)}

/-- Walks from the root, maybe while a pass is held open. -/
def visit (held : Bool) (paths : List (List String)) : Query (List Access) :=
  if held then Query.pass (walkAll paths) else walkAll paths

/-- The batcher after what is missing was asked for, maybe while a pass is held open. -/
def visited (held : Bool) (known : Json) (paths : List (List String)) (b : Batcher) : Batcher :=
  if held then (b.openPass.registerAll (missing known paths)).closePass
  else b.registerAll (missing known paths)

/-- A visit answers from one state, and asks for what is missing from it. -/
theorem visit_leaves (held : Bool) (hschema : c.schema = some s)
    (hleaves : ∀ names ∈ paths, s.LeadsToLeaf names)
    (hclear : ∀ names ∈ paths, c.state.value.ClearTo names) :
    visit held paths c
      = (paths.map fun names => .leaf (c.state.value.at? names),
          { c with batcher := visited held c.state.value paths c.batcher }) := by
  cases held with
  | false => exact walkAll_leaves hschema hleaves hclear
  | true =>
    have hwalks := walkAll_leaves (c := { c with batcher := c.batcher.openPass }) hschema hleaves
      hclear
    show ((walkAll paths { c with batcher := c.batcher.openPass }).1,
      (fun c : Client => { c with batcher := c.batcher.closePass })
        (walkAll paths { c with batcher := c.batcher.openPass }).2) = _
    rw [hwalks]
    rfl

theorem visited_frame (held : Bool) (known : Json) (paths : List (List String)) (b : Batcher) :
    (visited held known paths b).state = b.state ∧
      (visited held known paths b).merger = b.merger := by
  cases held with
  | false =>
    obtain ⟨hstate, hmerger, -⟩ := b.registerAll_frame (missing known paths)
    exact ⟨hstate, hmerger⟩
  | true =>
    obtain ⟨hstate, hmerger, -⟩ := b.openPass.registerAll_frame (missing known paths)
    obtain ⟨hclosed, hclosedMerger, -⟩ :=
      (b.openPass.registerAll (missing known paths)).closePass_frame
    exact ⟨hclosed.trans hstate, hclosedMerger.trans hmerger⟩

/-- Nothing that awaits an answer is called off by a visit. -/
theorem awaited_visited {calls : List Flight} {b : Batcher} (h : Batcher.Tracked calls b)
    (held : Bool) (known : Json) (paths : List (List String)) :
    ∀ flight ∈ (visited held known paths b).flights, flight.aborted = false := by
  cases held with
  | false => exact (h.registerAll _).flight_awaited
  | true =>
    have hopen : Batcher.Tracked calls b.openPass := h.of_eq rfl (fun _ hf => hf) rfl rfl
    exact (hopen.registerAll _).closePass.flight_awaited

theorem mem_missing {path : Path} :
    path ∈ missing known paths
      ↔ ∃ names ∈ paths, known.at? names = none ∧ Path.ofFields names = path := by
  rw [missing, List.mem_map]
  constructor
  · rintro ⟨names, hnames, rfl⟩
    obtain ⟨hmem, hnone⟩ := List.mem_filter.1 hnames
    exact ⟨names, hmem, Option.isNone_iff_eq_none.1 hnone, rfl⟩
  · rintro ⟨names, hmem, hnone, rfl⟩
    exact ⟨names, List.mem_filter.2 ⟨hmem, Option.isNone_iff_eq_none.2 hnone⟩, rfl⟩

/-- What waits after requests for what is missing: each missing leaf, and nothing else. -/
theorem asked_of_registerAll (known : Json) {b : Batcher} (hb : b.pending.WellFormed)
    (hidle : b.pending.paths = [])
    (hleaves : ∀ names ∈ paths, (Schema.ofText text).LeadsToLeaf names) :
    ∃ asked : List (List String),
      (b.registerAll (missing known paths)).pending.paths = asked.map Path.ofFields ∧
      ∀ names, names ∈ asked ↔ names ∈ paths ∧ known.at? names = none := by
  have hwaits : ∀ path ∈ (b.registerAll (missing known paths)).pending.paths,
      ∃ names ∈ paths, known.at? names = none ∧ Path.ofFields names = path := by
    intro path hpath
    rcases Batcher.mem_registerAll hb hpath with hbefore | hmissing
    · rw [hidle] at hbefore
      cases hbefore
    · exact mem_missing.1 hmissing
  refine ⟨(b.registerAll (missing known paths)).pending.paths.map Path.fields, ?_, ?_⟩
  · rw [List.map_map]
    refine (List.map_congr_left fun path hpath => ?_).trans (List.map_id _) |>.symm
    obtain ⟨names, -, -, rfl⟩ := hwaits path hpath
    exact congrArg Path.ofFields (Path.fields_ofFields names)
  · intro names
    constructor
    · intro hasked
      obtain ⟨path, hpath, rfl⟩ := List.mem_map.1 hasked
      obtain ⟨other, hother, hnone, rfl⟩ := hwaits path hpath
      rw [Path.fields_ofFields]
      exact ⟨hother, hnone⟩
    · rintro ⟨hnames, hnone⟩
      -- some path of the same key waits, and the key tells its fields
      have hkey := Batcher.key_mem_registerAll hb (missing known paths)
        (.inr (List.mem_map_of_mem (mem_missing.2 ⟨names, hnames, hnone, rfl⟩)))
      obtain ⟨path, hpath, hsame⟩ := List.mem_map.1 hkey
      obtain ⟨other, hother, -, rfl⟩ := hwaits path hpath
      have heq : other = names := Path.key_ofFields_inj (hleaves other hother).plain
        (hleaves names hnames).plain (hleaves other hother).ne_nil (hleaves names hnames).ne_nil
        hsame
      exact List.mem_map.2 ⟨_, hpath, by rw [Path.fields_ofFields, heq]⟩

theorem asked_of_visited (known : Json) {b : Batcher} (hb : b.pending.WellFormed)
    (hidle : b.pending.paths = [])
    (hleaves : ∀ names ∈ paths, (Schema.ofText text).LeadsToLeaf names) (held : Bool) :
    ∃ asked : List (List String),
      (visited held known paths b).pending.paths = asked.map Path.ofFields ∧
      ∀ names, names ∈ asked ↔ names ∈ paths ∧ known.at? names = none := by
  cases held with
  | false => exact asked_of_registerAll known hb hidle hleaves
  | true =>
    have hopen : b.openPass.pending.WellFormed := ⟨hb.keys_eq, hb.nodup⟩
    obtain ⟨asked, hasked, hiff⟩ := asked_of_registerAll known hopen hidle hleaves
    obtain ⟨-, -, hpaths⟩ := (b.openPass.registerAll (missing known paths)).closePass_frame
    exact ⟨asked, hpaths.trans hasked, hiff⟩

/-- Leaves lie apart: no way to a leaf leads through another one. -/
theorem separate_leaves (hleaves : ∀ names ∈ paths, s.LeadsToLeaf names) : Separate paths where
  ne_nil := fun names hnames => (hleaves names hnames).ne_nil
  eq_of_prefix := by
    rintro names hnames other hother ⟨more, rfl⟩
    cases more with
    | nil => exact (List.append_nil names).symm
    | cons next more =>
      exact absurd (hleaves names hnames).leaf
        ((hleaves _ hother).proper names _ rfl (List.cons_ne_nil _ _))

/-- A visit of leaves that are known leaves everything as it was. -/
theorem visit_known (held : Bool) (hschema : c.schema = some s)
    (hleaves : ∀ names ∈ paths, s.LeadsToLeaf names) (hidle : c.pendingPaths = [])
    {values : List String → Json}
    (hknown : ∀ names ∈ paths, c.state.value.at? names = some (values names)) :
    visit held paths c = (paths.map fun names => .leaf (some (values names)), c) := by
  have hmissing : missing c.state.value paths = [] := by
    rw [List.eq_nil_iff_forall_not_mem]
    intro path hpath
    obtain ⟨names, hnames, hnone, -⟩ := mem_missing.1 hpath
    rw [hknown names hnames] at hnone
    cases hnone
  have hunchanged : visited held c.state.value paths c.batcher = c.batcher := by
    unfold visited
    rw [hmissing]
    split
    · exact Batcher.closePass_openPass hidle
    · rfl
  rw [visit_leaves held hschema hleaves fun names hnames =>
    Json.clearTo_of_at? (hknown names hnames), hunchanged]
  refine congrArg (·, c) (List.map_congr_left fun names hnames => ?_)
  rw [hknown names hnames]

/-- An answer to a flight that asked for something unknown is merged into what is known. -/
theorem value_answered {asked : List (List String)} {b b' : Batcher} {flight : Flight}
    {response : Json} (hmarker : b.merger.marker = none) (hsep : Separate asked)
    (hunknown : ∀ names ∈ asked, b.state.value.at? names = none) (hne : asked ≠ [])
    (hflushed : b.Flushed (some flight) b') (hr : (ofFields asked).Responds response) :
    (b'.answered (some flight) response).state.value
      = b.state.value.merge b.merger.lists response := by
  obtain ⟨first, hfirst⟩ := List.exists_mem_of_ne_nil asked hne
  obtain ⟨w, hw, hmerged⟩ :=
    Json.at?_merge_of_asked b.merger.lists hsep hr hfirst (hunknown first hfirst)
  -- there is a value below the response, so it is not a null, which would not be merged
  have hobject : response.isNull = false := by
    cases response with
    | null =>
      cases first with
      | nil => exact absurd rfl (hsep.ne_nil _ hfirst)
      | cons name rest => cases hw
    | _ => rfl
  rw [hflushed.state_answered]
  exact State.value_absorb hmarker hobject (by rw [hmerged]; rfl) (hunknown first hfirst)

/-- What is known after the answer: the old value of a leaf that had one, and otherwise the value of
the response. -/
theorem known_after_answer {asked : List (List String)} {b b' : Batcher} {call : Option Flight}
    {response : Json} (hseparate : Separate paths) (hmarker : b.merger.marker = none)
    (hpaths : b.pending.paths = asked.map Path.ofFields)
    (hasked : ∀ names, names ∈ asked ↔ names ∈ paths ∧ b.state.value.at? names = none)
    (hflushed : b.Flushed call b')
    (hresponse : ∀ flight ∈ call, flight.selection.Responds response)
    {names : List String} (hnames : names ∈ paths) :
    ∃ v, (b'.answered call response).state.value.at? names = some v ∧
      (b.state.value.at? names = some v ∨
        b.state.value.at? names = none ∧ response.at? names = some v) := by
  cases call with
  | none =>
    have hnothing : asked = [] := by
      rw [hflushed.none_iff.1 rfl] at hpaths
      exact List.map_eq_nil_iff.1 hpaths.symm
    cases hknown : b.state.value.at? names with
    | none =>
      have hmem := (hasked names).2 ⟨hnames, hknown⟩
      rw [hnothing] at hmem
      cases hmem
    | some v =>
      refine ⟨v, ?_, .inl rfl⟩
      rw [Batcher.answered, hflushed.state]
      exact hknown
  | some flight =>
    have hsep : Separate asked := hseparate.of_subset fun names h => ((hasked names).1 h).1
    have hr : (ofFields asked).Responds response := by
      have hsent := hresponse flight rfl
      rw [Flight.selection, (hflushed.flight flight rfl).1, hpaths] at hsent
      exact hsent
    have hne : asked ≠ [] := by
      rintro rfl
      cases hflushed.none_iff.2 hpaths
    have hvalue := value_answered hmarker hsep (fun names h => ((hasked names).1 h).2) hne
      hflushed hr
    rw [hvalue]
    cases hknown : b.state.value.at? names with
    | none =>
      obtain ⟨v, hv, hmerged⟩ :=
        Json.at?_merge_of_asked b.merger.lists hsep hr ((hasked names).2 ⟨hnames, hknown⟩) hknown
      exact ⟨v, hmerged, .inr ⟨rfl, hv⟩⟩
    | some v =>
      refine ⟨v, Json.at?_merge_of_apart b.merger.lists hsep hr hknown ?_, .inl rfl⟩
      intro leaf hleaf
      obtain ⟨hleaf, hnone⟩ := (hasked leaf).1 hleaf
      refine hseparate.apart hnames hleaf ?_
      rintro rfl
      rw [hknown] at hnone
      cases hnone

/-- **What is asked for is fetched once.**

One visit of some leaves, with nothing waiting before, answers with what is known.  What it asked
for is flushed, and the server answers with values at the selected places.  Then another visit of
the leaves answers every one of them, with the old value where there was one and with the response's
value otherwise, and leaves the client as it was.  A flight leaves exactly when something was
missing. -/
theorem fetched_once (hc : c.UsesSchema text) (hidle : c.pendingPaths = [])
    (hleaves : ∀ names ∈ paths, (Schema.ofText text).LeadsToLeaf names)
    (hclear : ∀ names ∈ paths, c.state.value.ClearTo names) (first second : Bool)
    {call : Option Flight} {flushed : Batcher}
    (hflush : (visit first paths c).2.batcher.Flushes call flushed) {response : Json}
    (hresponse : ∀ flight ∈ call, flight.selection.Responds response) :
    let known := c.state.value
    let answered := { (visit first paths c).2 with batcher := flushed.answered call response }
    (visit first paths c).1 = (paths.map fun names => .leaf (known.at? names)) ∧
    (call = none ↔ ∀ names ∈ paths, (known.at? names).isSome = true) ∧
    ∃ values : List String → Json,
      (∀ names ∈ paths, known.at? names = some (values names) ∨
        known.at? names = none ∧ response.at? names = some (values names)) ∧
      visit second paths answered
        = (paths.map fun names => .leaf (some (values names)), answered) := by
  intro known answered
  obtain ⟨history, state, run⟩ := hc.reached
  have htracked : Batcher.Tracked history.calls c.batcher :=
    run.tracked.of_eq rfl (fun _ hf => hf) rfl rfl
  have hwell : c.batcher.pending.WellFormed := run.wellFormed
  have hvisit := visit_leaves first hc.schema hleaves hclear
  obtain ⟨hstate, hmerger⟩ := visited_frame first known paths c.batcher
  obtain ⟨asked, hpaths, hasked⟩ :=
    asked_of_visited known hwell hidle hleaves first
  have hanswered : answered = { c with batcher := flushed.answered call response } := by
    simp only [answered, hvisit]
  rw [hvisit] at hflush
  have hflushed : (visited first known paths c.batcher).Flushed call flushed :=
    hflush.flushed (awaited_visited htracked first known paths)
  have hafter := fun (names : List String) (hnames : names ∈ paths) =>
    known_after_answer (separate_leaves hleaves) (by rw [hmerger]; exact hc.unmarked) hpaths
      (by rw [hstate]; exact hasked) hflushed hresponse hnames
  have hpending : answered.pendingPaths = [] := by
    show (flushed.answered call response).pending.paths = []
    rw [Batcher.pending_answered]
    exact hflushed.paths
  have hschema : answered.schema = some (.ofText text) := by rw [hanswered]; exact hc.schema
  refine ⟨by rw [hvisit], ?_, ?_⟩
  · rw [hflushed.none_iff, hpaths, List.map_eq_nil_iff, List.eq_nil_iff_forall_not_mem]
    constructor
    · intro hnothing names hnames
      cases hknown : known.at? names with
      | none => exact absurd ((hasked names).2 ⟨hnames, hknown⟩) (hnothing names)
      | some v => rfl
    · intro hall names hmem
      obtain ⟨hnames, hnone⟩ := (hasked names).1 hmem
      have hsome := hall names hnames
      rw [hnone] at hsome
      cases hsome
  · choose! values hvalues using hafter
    refine ⟨values, fun names hnames => ?_, ?_⟩
    · rw [hstate] at hvalues
      exact (hvalues names hnames).2
    · exact visit_known (c := answered) second hschema hleaves hpending fun names hnames =>
        (hvalues names hnames).1

/-- The proper beginnings of a path of two fields. -/
theorem init_of_pair {outer inner : String} {init more : List String}
    (hsplit : [outer, inner] = init ++ more) (hmore : more ≠ []) : init = [] ∨ init = [outer] := by
  rcases init with _ | ⟨first, _ | ⟨second, init⟩⟩
  · exact .inl rfl
  · cases hsplit
    exact .inr rfl
  · cases init with
    | nil => exact absurd (List.cons.inj (List.cons.inj hsplit).2).2.symm hmore
    | cons third init => cases hsplit

/-- One leaf of an item is known and another one is not. -/
theorem fetched_once_item :
    let text := "type Query \x7b item: Item \x7d type Item \x7b id: Int name: String \x7d"
    let known : Json := .object [("item", .object [("id", .number (.int 5))])]
    let c : Client := { schema := some (.ofText text), batcher := { state := { value := known } } }
    let paths := [["item", "id"], ["item", "name"]]
    let response : Json := .object [("item", .object [("name", .string "Ann")])]
    let asked := (visit false paths c).2
    let answered := { asked with
      batcher := asked.batcher.flushNow.2.answered asked.batcher.flushNow.1 response }
    (visit true paths answered).1
      = [.leaf (some (.number (.int 5))), .leaf (some (.string "Ann"))] := by
  intro text known c paths response asked answered
  have hc : c.UsesSchema text := ⟨rfl, rfl, [], {}, .start rfl⟩
  have hleaves : ∀ names ∈ paths, (Schema.ofText text).LeadsToLeaf names := by
    have hproper : ∀ (name : String) (init more : List String), ["item", name] = init ++ more →
        more ≠ [] → (Schema.ofText text).isLeaf? (.ofFields init) ≠ some true := by
      intro name init more hsplit hmore
      rcases init_of_pair hsplit hmore with rfl | rfl
      · decide +kernel
      · decide +kernel
    intro names hnames
    rcases List.mem_pair.1 hnames with rfl | rfl
    · exact ⟨by decide +kernel, hproper "id"⟩
    · exact ⟨by decide +kernel, hproper "name"⟩
  have hclear : ∀ names ∈ paths, known.ClearTo names := by
    have hobjects : ∀ name, known.ClearTo ["item", name] := by
      intro name init more items hsplit hmore hlist
      rcases init_of_pair hsplit hmore with rfl | rfl
      · exact Json.noConfusion (Option.some.inj hlist)
      · exact Json.noConfusion (Option.some.inj hlist)
    intro names hnames
    rcases List.mem_pair.1 hnames with rfl | rfl
    · exact hobjects "id"
    · exact hobjects "name"
  have hsent : ∀ flight ∈ asked.batcher.flushNow.1,
      flight.paths = [.ofFields ["item", "name"]] := by
    have hvisit := visit_leaves false hc.schema hleaves hclear
    rw [show asked = (visit false paths c).2 from rfl, hvisit]
    intro flight hflight
    cases hflight
    rfl
  have hresponse : ∀ flight ∈ asked.batcher.flushNow.1, flight.selection.Responds response := by
    intro flight hflight
    rw [Flight.selection, hsent flight hflight]
    exact Json.responds_pair "item" "name" trivial
  obtain ⟨-, -, values, hvalues, hvisit⟩ :=
    fetched_once hc rfl hleaves hclear false true .now hresponse
  have hid : values ["item", "id"] = .number (.int 5) := by
    rcases hvalues _ List.mem_cons_self with hknown | ⟨hnone, -⟩
    · exact (Option.some.inj hknown).symm
    · cases (show some (Json.number (.int 5)) = none from hnone)
  have hname : values ["item", "name"] = .string "Ann" := by
    rcases hvalues _ (List.mem_cons_of_mem _ (List.mem_singleton.2 rfl)) with hknown | ⟨-, hnew⟩
    · cases (show none = some _ from hknown)
    · exact (Option.some.inj hnew).symm
  rw [show visit true paths answered = _ from hvisit]
  show [Access.leaf (some (values _)), Access.leaf (some (values _))] = _
  rw [hid, hname]

end Traversal

end GraphWalk
