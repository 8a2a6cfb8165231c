import GraphWalk.Proofs.Document.Trees
import GraphWalk.Proofs.Selection.Filled

/-!
# Documents that are queries

The document of some paths is a query when no level below them is left empty.  That can fail
for paths that name everything as the query language wants it: a field may be given arguments
that are empty, and the arguments of a field that has the name of selections may be taken for
a field beside it.  Otherwise every document is a query.

## Main results

* `Selection.Level.validNodes_iff` — the tree of a level is valid when every level below it is
  filled.
* `Document.isQuery_ofPaths` — **which documents are queries.**
* `Document.not_all_queries` — the document of named paths need not be one.
-/

namespace GraphWalk

namespace QuerySyntax

theorem validNodes_iff_forall {nodes : List Node} :
    ValidNodes nodes ↔ ∀ node ∈ nodes, node.Valid := by
  induction nodes with
  | nil => exact ⟨fun _ => nofun, fun _ => trivial⟩
  | cons node nodes ih => rw [ValidNodes, ih, List.forall_mem_cons]

theorem namedValuesOf_ne_nil {members : Dict Json} : namedValuesOf members ≠ [] ↔ members ≠ [] := by
  cases members with
  | nil => exact iff_of_false (fun h => h rfl) (fun h => h rfl)
  | cons entry members => exact iff_of_true (List.cons_ne_nil _ _) (List.cons_ne_nil _ _)

end QuerySyntax

namespace Selection

open GraphWalk.Field QuerySyntax

theorem sizeOf_shown_le (members : Dict Json) : sizeOf (shown members) ≤ sizeOf members := by
  rcases arguments_cases members with ⟨args, hargs⟩ | hplain
  · rw [shown_eq_child hargs, child]
    split
    · next inner hget =>
      have hlt := Json.sizeOf_lt_of_get?_eq_some hget
      simp only [Json.object.sizeOf_spec] at hlt
      omega
    · cases members with
      | nil => cases hargs
      | cons entry members => simp only [List.nil.sizeOf_spec, List.cons.sizeOf_spec]; omega
  · exact Nat.le_of_eq (by rw [shown_eq_self hplain])

namespace Level

variable {l : Level} {name : String}

/-- Under a name with an object stands the level there. -/
theorem get?_of_nested (h : l.entry name = .nested) :
    Dict.get? l.members name = some (.object (l.below name).members) := by
  obtain ⟨inner, hget⟩ := Entry.of_eq_nested_iff.1 ((l.entry_members name).trans h)
  rw [← child_members, child, hget]

theorem get?_ne_of_not_nested (h : l.entry name ≠ .nested) (inner : Dict Json) :
    Dict.get? l.members name ≠ some (.object inner) := fun hget =>
  h ((l.entry_members name).symm.trans (Entry.of_eq_nested_iff.2 ⟨inner, hget⟩))

theorem wellFormed_below (h : Json.WellFormed l.members) (name : String) :
    Json.WellFormed (l.below name).members := by
  rw [← child_members]
  exact wellFormed_child h name

theorem wellFormed_members_shown (h : Json.WellFormed l.members) :
    Json.WellFormed l.shown.members := by
  rw [members_shown]
  exact wellFormed_shown h

theorem isName_of_nested (hl : Json.WellFormed l.members) (h : l.entry name = .nested) :
    Document.IsName name :=
  (Json.namedMembers_iff.1 hl.named _ (Dict.mem_of_get?_eq_some (get?_of_nested h))).1

/-- A level has fields when it asks for some. -/
theorem nodesOf_ne_nil_iff (hl : Json.WellFormed l.members) :
    nodesOf (ofMembers l.members) ≠ [] ↔ l.Asks := by
  rw [nodesOf_eq_map, Ne, List.map_eq_nil_iff]
  constructor
  · intro hne
    obtain ⟨field, hfield⟩ := List.exists_mem_of_ne_nil _ hne
    obtain ⟨name, value, hmem, hvalue⟩ := mem_ofMembers.1 hfield
    have hentry := l.entry_members name
    rw [Dict.get?_of_mem hl.ordered.1 hmem] at hentry
    rcases hvalue with ⟨rfl, -⟩ | ⟨inner, rfl, -⟩
    · exact ⟨name, .inl hentry.symm⟩
    · exact ⟨name, .inr hentry.symm⟩
  · rintro ⟨name, hchosen | hnested⟩
    · have hget := Entry.of_eq_chosen_iff.1 ((l.entry_members name).trans hchosen)
      exact List.ne_nil_of_mem
        (mem_ofMembers.2 ⟨name, _, Dict.mem_of_get?_eq_some hget, .inl ⟨rfl, rfl⟩⟩)
    · have hget := get?_of_nested hnested
      exact List.ne_nil_of_mem
        (mem_ofMembers.2 ⟨name, _, Dict.mem_of_get?_eq_some hget, .inr ⟨_, rfl, rfl⟩⟩)

/-- The fields of a level are valid when those with something below them are. -/
theorem validNodes_iff_nested (hl : Json.WellFormed l.members) :
    ValidNodes (nodesOf (ofMembers l.members)) ↔
      ∀ name, l.entry name = .nested → (nodeOf (ofChild name (l.below name).members)).Valid := by
  rw [validNodes_iff_forall, nodesOf_eq_map, List.forall_mem_map]
  constructor
  · intro h name hnested
    have hmem := Dict.mem_of_get?_eq_some (get?_of_nested hnested)
    exact h _ (mem_ofMembers.2 ⟨name, _, hmem, .inr ⟨_, rfl, rfl⟩⟩)
  · intro h field hfield
    obtain ⟨name, value, hmem, ⟨rfl, rfl⟩ | ⟨inner, rfl, rfl⟩⟩ := mem_ofMembers.1 hfield
    · exact ⟨(Json.namedMembers_iff.1 hl.named _ hmem).1, nofun, trivial⟩
    · have hget := Dict.get?_of_mem hl.ordered.1 hmem
      have hnested : l.entry name = .nested :=
        (l.entry_members name).symm.trans (Entry.of_eq_nested_iff.2 ⟨inner, hget⟩)
      have hinner := get?_of_nested hnested
      rw [hget] at hinner
      rw [Json.object.inj (Option.some.inj hinner)]
      exact h name hnested

/-- A field with arguments is valid when its level is filled and what it shows is valid. -/
theorem valid_ofChild_of_arguments (hl : Json.WellFormed l.members) (hname : Document.IsName name)
    (hnested : l.entry argumentsName = .nested) :
    (nodeOf (ofChild name l.members)).Valid ↔
      l.Filled ∧ ValidNodes (nodesOf (ofMembers l.shown.members)) := by
  have hasks := nodesOf_ne_nil_iff (wellFormed_members_shown hl)
  have hargs := get?_of_nested hnested
  have hvalid : ValidMembers (namedValuesOf (l.below argumentsName).members) :=
    validMembers_namedValuesOf _ (wellFormed_below hl _).named
  have hshown : child l.members selectionName = l.shown.members := by
    rw [members_shown, shown_eq_child hargs]
  rw [ofChild_of_arguments name hargs, hshown]
  by_cases hempty : l.shown.members = []
  · -- the selection is left out, and so has no fields that could be invalid
    have hnone : ValidNodes (nodesOf (ofMembers [])) := by
      rw [ofMembers]
      trivial
    rw [if_pos hempty, hempty]
    simp only [nodeOf, Node.Valid, Option.map_some, Option.some.injEq, forall_eq']
    constructor
    · rintro ⟨-, ⟨hne, -⟩, -⟩
      exact ⟨⟨fun _ => namedValuesOf_ne_nil.1 hne, .inr ⟨hnested, hempty⟩⟩, hnone⟩
    · rintro ⟨hfilled, -⟩
      exact ⟨hname, ⟨namedValuesOf_ne_nil.2 (hfilled.arguments hnested), hvalid⟩, trivial⟩
  · rw [if_neg hempty]
    simp only [nodeOf, Node.Valid, Option.map_some, Option.some.injEq, forall_eq']
    constructor
    · rintro ⟨-, ⟨hne, -⟩, hnodes, hselected⟩
      exact ⟨⟨fun _ => namedValuesOf_ne_nil.1 hne, .inl (hasks.1 hnodes)⟩, hselected⟩
    · rintro ⟨hfilled, hselected⟩
      have hshows := hfilled.selection.resolve_right fun h => hempty h.2
      exact ⟨hname, ⟨namedValuesOf_ne_nil.2 (hfilled.arguments hnested), hvalid⟩,
        hasks.2 hshows, hselected⟩

/-- A field without arguments is valid when its level asks for something and is valid. -/
theorem valid_ofChild_of_plain (hl : Json.WellFormed l.members) (hname : Document.IsName name)
    (hnested : l.entry argumentsName ≠ .nested) :
    (nodeOf (ofChild name l.members)).Valid ↔
      l.Asks ∧ ValidNodes (nodesOf (ofMembers l.members)) := by
  rw [ofChild_of_plain name (get?_ne_of_not_nested hnested), ← nodesOf_ne_nil_iff hl]
  simp only [nodeOf, Node.Valid, Option.map_none]
  exact ⟨fun h => h.2.2, fun h => ⟨hname, nofun, h⟩⟩

/-- Without arguments, a level is filled when it asks for something. -/
theorem filled_iff_of_plain (hnested : l.entry argumentsName ≠ .nested) : l.Filled ↔ l.Asks := by
  have hshown : l.shown = l := if_neg hnested
  constructor
  · intro hfilled
    rw [← hshown]
    exact hfilled.selection.resolve_right fun h => hnested h.1
  · intro hasks
    rw [← hshown] at hasks
    exact ⟨fun h => absurd h hnested, .inl hasks⟩

/-- A field is valid when its level is filled and what it shows is valid. -/
theorem valid_ofChild_iff (hl : Json.WellFormed l.members) (hname : Document.IsName name) :
    (nodeOf (ofChild name l.members)).Valid ↔
      l.Filled ∧ ValidNodes (nodesOf (ofMembers l.shown.members)) := by
  by_cases hnested : l.entry argumentsName = .nested
  · exact valid_ofChild_of_arguments hl hname hnested
  · have hshown : l.shown = l := if_neg hnested
    rw [hshown, filled_iff_of_plain hnested]
    exact valid_ofChild_of_plain hl hname hnested

/-- **The tree of a level is valid when every level below it is filled.** -/
theorem validNodes_iff (hl : Json.WellFormed l.members) :
    ValidNodes (nodesOf (ofMembers l.members)) ↔ ∀ m, l.Opens m → m.Filled := by
  induction hsize : sizeOf l.members using Nat.strongRecOn generalizing l with
  | ind size ih =>
    subst hsize
    have hbelow : ∀ name, l.entry name = .nested →
        ((nodeOf (ofChild name (l.below name).members)).Valid ↔
          (l.below name).Filled ∧ ∀ m, (l.below name).shown.Opens m → m.Filled) := by
      intro name hnested
      have hwell := wellFormed_below hl name
      have hlt : sizeOf (l.below name).shown.members < sizeOf l.members := by
        have hinner := Json.sizeOf_lt_of_get?_eq_some (get?_of_nested hnested)
        have hle := sizeOf_shown_le (l.below name).members
        rw [members_shown]
        simp only [Json.object.sizeOf_spec] at hinner
        omega
      rw [valid_ofChild_iff hwell (isName_of_nested hl hnested),
        ih _ hlt (wellFormed_members_shown hwell) rfl]
    rw [validNodes_iff_nested hl]
    constructor
    · intro h m hm
      cases hm with
      | here hnested => exact ((hbelow _ hnested).1 (h _ hnested)).1
      | further hnested hmore => exact ((hbelow _ hnested).1 (h _ hnested)).2 m hmore
    · intro h name hnested
      exact (hbelow name hnested).2 ⟨h _ (.here hnested), fun m hm => h m (.further hnested hm)⟩

end Level

end Selection

namespace Document

open QuerySyntax Selection

variable {paths : List Path}

/-- A document is a query when the paths ask for something and leave no level empty. -/
theorem isQuery_iff_filled (h : ∀ path ∈ paths, path.Named) :
    IsQuery (text (Selection.ofPaths paths)) ↔
      (Level.ofPaths paths).Asks ∧ ∀ l, (Level.ofPaths paths).Opens l → l.Filled := by
  have hwell : Json.WellFormed (Level.ofPaths paths).members := by
    rw [Level.members_ofPaths]
    exact wellFormed_membersOf h
  rw [Selection.ofPaths, ← Level.members_ofPaths, isQuery_text_iff hwell.named,
    Level.nodesOf_ne_nil_iff hwell, Level.validNodes_iff hwell]

/-- The document of sound paths is a query. -/
theorem isQuery_of_sound (h : ∀ path ∈ paths, path.Named) (hne : paths ≠ [])
    (hsteps : ∀ path ∈ paths, path.steps ≠ []) (hsound : Sound (paths.map Path.steps)) :
    IsQuery (text (Selection.ofPaths paths)) := by
  obtain ⟨path, hpath⟩ := List.exists_mem_of_ne_nil _ hne
  have hmem : path.steps ∈ (Level.ofPaths paths).requests := List.mem_map_of_mem hpath
  have hasks := Level.asks_of_shaped rfl hsound.shaped hmem (hsteps path hpath)
  exact (isQuery_iff_filled h).2 ⟨hasks, fun l hl => Level.filled_of_opens rfl hsound hl⟩

/-- **Which documents are queries.**  For all named paths, those that ask for something and leave no
level empty; so in particular, when every path begins with a field, gives arguments to fields only
and none that are empty, and gives none to a field that has the name of selections. -/
theorem isQuery_ofPaths (h : ∀ path ∈ paths, path.Named) :
    (IsQuery (text (Selection.ofPaths paths)) ↔
      (Level.ofPaths paths).Asks ∧ ∀ l, (Level.ofPaths paths).Opens l → l.Filled) ∧
    (paths ≠ [] → (∀ path ∈ paths, path.steps ≠ []) → Sound (paths.map Path.steps) →
      IsQuery (text (Selection.ofPaths paths))) :=
  ⟨isQuery_iff_filled h, isQuery_of_sound h⟩

/-- A field with arguments, which two paths pass and a third one ends with. -/
def itemPaths : List Path :=
  [⟨[.field "item", .arguments [("id", .number (.int 5))], .field "name"]⟩,
    ⟨[.field "item", .arguments [("id", .number (.int 5))], .field "tags", .field "text"]⟩,
    ⟨[.field "item", .arguments [("id", .number (.int 5))]]⟩, .ofFields ["viewer", "select"]]

/-- The document of these paths is a query. -/
theorem isQuery_ofPaths_item :
    (∀ path ∈ itemPaths, path.Named) ∧ itemPaths ≠ [] ∧ (∀ path ∈ itemPaths, path.steps ≠ []) ∧
      Sound (itemPaths.map Path.steps) ∧ IsQuery (text (Selection.ofPaths itemPaths)) := by
  have hargs : Json.WellFormed [("id", .number (.int 5))] :=
    Json.wellFormed_nil.insert (by decide) trivial trivial
  have hnamed : ∀ path ∈ itemPaths, path.Named := by
    have hitem : IsName "item" := by decide
    have hname : IsName "name" := by decide
    have htags : IsName "tags" := by decide
    have htext : IsName "text" := by decide
    have hviewer : IsName "viewer" := by decide
    simp only [itemPaths, Path.ofFields, Path.Named, List.map_cons, List.map_nil,
      List.forall_mem_cons, Step.Named]
    exact ⟨⟨hitem, hargs, hname, List.forall_mem_nil _⟩,
      ⟨hitem, hargs, htags, htext, List.forall_mem_nil _⟩, ⟨hitem, hargs, List.forall_mem_nil _⟩,
      ⟨hviewer, isName_selectionName, List.forall_mem_nil _⟩, List.forall_mem_nil _⟩
  have hsteps : ∀ path ∈ itemPaths, path.steps ≠ [] := by
    simp [itemPaths, Path.ofFields]
  have hsound : Sound (itemPaths.map Path.steps) := by
    refine ⟨by simp [itemPaths, Path.ofFields, Shaped], by simp [itemPaths, Path.ofFields], ?_⟩
    -- no path has both a field of the name of selections and arguments
    intro p hp name args hwithin
    have hfield := hwithin.subset (List.mem_cons_of_mem _ List.mem_cons_self)
    have hgiven := hwithin.subset
      (List.mem_cons_of_mem _ (List.mem_cons_of_mem _ List.mem_cons_self))
    simp only [itemPaths, Path.ofFields, List.map_cons, List.map_nil, List.mem_cons,
      List.not_mem_nil, or_false] at hp
    rcases hp with rfl | rfl | rfl | rfl
    · simp [selectionName] at hfield
    · simp [selectionName] at hfield
    · simp [selectionName] at hfield
    · simp at hgiven
  exact ⟨hnamed, List.cons_ne_nil _ _, hsteps, hsound,
    (isQuery_ofPaths hnamed).2 (List.cons_ne_nil _ _) hsteps hsound⟩

/-- Paths that begin with a field, with arguments behind fields only, need not have a query: the
arguments of a field may be empty. -/
theorem not_all_queries :
    ¬∀ paths : List Path, paths ≠ [] → (∀ path ∈ paths, path.Named) →
      (∀ path ∈ paths, path.steps ≠ [] ∧ Shaped false path.steps) →
        IsQuery (text (Selection.ofPaths paths)) := by
  intro hall
  have hitem : IsName "item" := by decide
  have hname : IsName "name" := by decide
  have hnamed :
      ∀ path ∈ [(⟨[.field "item", .arguments [], .field "name"]⟩ : Path)], path.Named := by
    simp only [Path.Named, List.forall_mem_cons, Step.Named]
    exact ⟨⟨hitem, Json.wellFormed_nil, hname, List.forall_mem_nil _⟩, List.forall_mem_nil _⟩
  have hquery := hall _ (List.cons_ne_nil _ _) hnamed (by simp [Shaped])
  obtain ⟨-, hfilled⟩ := (isQuery_iff_filled hnamed).1 hquery
  exact (hfilled _ (@Level.Opens.here _ "item" rfl)).arguments rfl rfl

/-- A field has arguments, and so has the field below it that has the name of selections. -/
def selectPaths : List Path :=
  [⟨[.field "a", .arguments [("id", .number (.int 5))], .field "x"]⟩,
    ⟨[.field "a", .field "select", .arguments [("k", .number (.int 1))], .field "y"]⟩]

/-- Nor is it enough that no arguments are empty: those of a field that has the name of selections
are written as a field beside it, with nothing selected below. -/
theorem not_all_queries_of_arguments :
    ¬∀ paths : List Path, paths ≠ [] → (∀ path ∈ paths, path.Named) →
      (∀ path ∈ paths, path.steps ≠ [] ∧ Shaped false path.steps) →
        (∀ path ∈ paths, Step.arguments [] ∉ path.steps) →
          IsQuery (text (Selection.ofPaths paths)) := by
  intro hall
  have ha : IsName "a" := by decide
  have hx : IsName "x" := by decide
  have hy : IsName "y" := by decide
  have hargs : ∀ name n, IsName name → Json.WellFormed [(name, .number (.int n))] :=
    fun _ _ hname => Json.wellFormed_nil.insert hname trivial trivial
  have hnamed : ∀ path ∈ selectPaths, path.Named := by
    simp only [selectPaths, Path.Named, List.forall_mem_cons, Step.Named]
    exact ⟨⟨ha, hargs "id" 5 (by decide), hx, List.forall_mem_nil _⟩,
      ⟨ha, isName_selectionName, hargs "k" 1 (by decide), hy, List.forall_mem_nil _⟩,
      List.forall_mem_nil _⟩
  have hquery := hall selectPaths (List.cons_ne_nil _ _) hnamed (by simp [selectPaths, Shaped])
    (by simp [selectPaths])
  obtain ⟨-, hfilled⟩ := (isQuery_iff_filled hnamed).1 hquery
  have hwhere := hfilled _
    (@Level.Opens.further _ _ "a" rfl (@Level.Opens.here _ argumentsName rfl))
  rcases hwhere.selection with ⟨name, hname⟩ | ⟨hnested, -⟩
  · have hentry : Entry.of (Dict.get? [("k", Json.number (.int 1))] name) = .chosen ∨
        Entry.of (Dict.get? [("k", Json.number (.int 1))] name) = .nested := hname
    rw [Dict.get?_cons] at hentry
    split at hentry
    · rcases hentry with h | h <;> cases h
    · rcases hentry with h | h <;> cases h
  · cases hnested

end Document

end GraphWalk
