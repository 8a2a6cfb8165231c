import GraphWalk.Proofs.Selection.Served

/-!
# Which paths reach the document

A path may be in the selection and not in the document that is written for it: what is asked
for below a field without its arguments is left out once another path has given arguments to
the field, and so is everything beside and below a field that has the name of arguments.
Whether a chain of fields is selected can be told from the paths alone.

## Main results

* `Document.selects_ofPaths_iff` — **a document selects what the paths lead through.**
* `Document.not_all_selected` — paths of different fields need not all be selected.
* `Document.selects_of_heeds` — **paths that heed each other are all selected.**
-/

namespace GraphWalk

namespace Document

open Selection

variable {paths : List Path}

/-- A document selects what the paths lead through. -/
theorem selects_iff_served (h : ∀ path ∈ paths, path.Named) (names : List String) :
    Selects (text (Selection.ofPaths paths)) names ↔ (Level.ofPaths paths).Served names := by
  rw [Selection.ofPaths, selects_iff (wellFormed_membersOf h), ← Level.shows_members_iff,
    Level.members_ofPaths]

/-- A document of clear paths selects what is asked for with the arguments of all of them. -/
theorem selects_iff_heeded (h : ∀ path ∈ paths, path.Named)
    (hclear : Clear (paths.map Path.steps)) {names : List String} (hne : names ≠ []) :
    Selects (text (Selection.ofPaths paths)) names ↔
      ∃ path ∈ paths, ∃ request, request <+: path.steps ∧ namesOf request = names ∧
        Heeds (paths.map Path.steps) request := by
  rw [selects_iff_served h, Level.served_iff rfl hclear hne]
  constructor
  · rintro ⟨request, rest, hmem, hnames, hheeds⟩
    obtain ⟨path, hpath, hsteps⟩ := List.mem_map.1 hmem
    exact ⟨path, hpath, request, ⟨rest, hsteps.symm⟩, hnames, hheeds⟩
  · rintro ⟨path, hpath, request, ⟨rest, hsteps⟩, hnames, hheeds⟩
    exact ⟨request, rest, hsteps ▸ List.mem_map_of_mem hpath, hnames, hheeds⟩

/-- **A document selects what the paths lead through.**  When no field is taken for arguments or
for a selection, this is what some path asks for with the arguments that the paths give on the
way. -/
theorem selects_ofPaths_iff (h : ∀ path ∈ paths, path.Named) :
    (∀ names, Selects (text (Selection.ofPaths paths)) names
      ↔ (Level.ofPaths paths).Served names) ∧
    (Clear (paths.map Path.steps) → ∀ names, names ≠ [] →
      (Selects (text (Selection.ofPaths paths)) names ↔
        ∃ path ∈ paths, ∃ request, request <+: path.steps ∧ namesOf request = names ∧
          Heeds (paths.map Path.steps) request)) :=
  ⟨selects_iff_served h, fun hclear _ hne => selects_iff_heeded h hclear hne⟩

/-- A field that has the name of arguments hides what is asked for below it. -/
example : ¬(Level.ofPaths [.ofFields ["a", "where", "x"]]).Served ["a", "where", "x"] := by
  decide

/-! ### Paths that are left out -/

/-- One path gives arguments to a field, and the other one goes on below it without them. -/
def unevenPaths : List Path :=
  [⟨[.field "item", .arguments [("id", .number (.int 5))], .field "name"]⟩,
    ⟨[.field "item", .field "id"]⟩]

theorem named_unevenPaths : ∀ path ∈ unevenPaths, path.Named := by
  have hid : IsName "id" := by decide
  have hitem : IsName "item" := by decide
  have hname : IsName "name" := by decide
  have hargs : Json.WellFormed [("id", .number (.int 5))] :=
    Json.wellFormed_nil.insert hid trivial trivial
  simp only [unevenPaths, Path.Named, List.forall_mem_cons, Step.Named]
  exact ⟨⟨hitem, hargs, hname, nofun⟩, ⟨hitem, hid, nofun⟩, nofun⟩

/-- Only one of the paths goes on behind a field without arguments. -/
theorem eq_of_mem_unevenPaths {before rest : List Step} {name next : String}
    (h : before ++ .field name :: .field next :: rest ∈ unevenPaths.map Path.steps) :
    before = [] ∧ name = "item" ∧ next = "id" := by
  simp only [unevenPaths, List.map_cons, List.map_nil, List.mem_cons, List.not_mem_nil] at h
  rcases h with h | h | h
  · rcases before with _ | ⟨first, _ | ⟨second, before⟩⟩
    · cases h
    · cases h
    · have hlength := congrArg List.length h
      simp only [List.length_append, List.length_cons, List.length_nil] at hlength
      omega
  · rcases before with _ | ⟨first, before⟩
    · cases h
      exact ⟨rfl, rfl, rfl⟩
    · have hlength := congrArg List.length h
      simp only [List.length_append, List.length_cons, List.length_nil] at hlength
      omega
  · exact h.elim

theorem clear_unevenPaths : Clear (unevenPaths.map Path.steps) where
  shaped := by simp [unevenPaths, Shaped]
  arguments := by
    intro before name next rest hmem
    obtain ⟨-, -, h⟩ := eq_of_mem_unevenPaths hmem
    exact absurd h (by decide)
  selection := by
    intro before name args rest before' rest' _ hmem
    obtain ⟨-, -, h⟩ := eq_of_mem_unevenPaths hmem
    exact absurd h (by decide)

/-- What is asked for with the arguments is selected, and what is asked for without them is not. -/
theorem selects_ofPaths_iff_uneven :
    (∀ path ∈ unevenPaths, path.Named) ∧ Clear (unevenPaths.map Path.steps) ∧
      Selects (text (Selection.ofPaths unevenPaths)) ["item", "name"] ∧
      ¬Selects (text (Selection.ofPaths unevenPaths)) ["item", "id"] := by
  obtain ⟨hserved, hheeded⟩ := selects_ofPaths_iff named_unevenPaths
  refine ⟨named_unevenPaths, clear_unevenPaths, ?_, fun hselects => ?_⟩
  · rw [hheeded clear_unevenPaths _ (List.cons_ne_nil _ _)]
    refine ⟨_, List.mem_cons_self, _, List.prefix_rfl, rfl, ?_⟩
    intro before name args rest before' next rest' _ heq
    have hmem : before' ++ .field name :: .field next :: rest' ∈ unevenPaths.map Path.steps :=
      heq ▸ List.mem_cons_self
    obtain ⟨rfl, -, -⟩ := eq_of_mem_unevenPaths hmem
    cases heq
  · exact absurd ((hserved _).1 hselects) (by decide)

/-- Paths of different fields, with arguments behind fields only, need not all be selected. -/
theorem not_all_selected :
    ¬∀ paths : List Path, (paths.map Path.key).Nodup → (∀ path ∈ paths, path.Named) →
      (∀ path ∈ paths, path.steps ≠ [] ∧ Shaped false path.steps) →
        ∀ path ∈ paths, Selects (text (Selection.ofPaths paths)) path.fields := by
  intro hall
  have hkeys : (unevenPaths.map Path.key).Nodup := by decide
  have hshaped : ∀ path ∈ unevenPaths, path.steps ≠ [] ∧ Shaped false path.steps := by
    simp [unevenPaths, Shaped]
  have hid := hall unevenPaths hkeys named_unevenPaths hshaped ⟨[.field "item", .field "id"]⟩
    (List.mem_cons_of_mem _ (List.mem_singleton.2 rfl))
  exact absurd ((selects_iff_served named_unevenPaths _).1 hid) (by decide)

/-! ### Paths that are all selected -/

/-- **Paths that heed each other are all selected.** -/
theorem selects_of_heeds (h : ∀ path ∈ paths, path.Named)
    (hshaped : ∀ path ∈ paths, Shaped false path.steps)
    (harguments : ∀ path ∈ paths, ∀ before name next rest,
      path.steps ≠ before ++ .field name :: .field argumentsName :: next :: rest)
    (hheeds : ∀ path ∈ paths, Heeds (paths.map Path.steps) path.steps) :
    ∀ path ∈ paths, Selects (text (Selection.ofPaths paths)) path.fields := by
  have hclear : Clear (paths.map Path.steps) := by
    refine .of_heeds (List.forall_mem_map.2 hshaped) ?_ (List.forall_mem_map.2 hheeds)
    intro before name next rest hmem
    obtain ⟨path, hpath, hsteps⟩ := List.mem_map.1 hmem
    exact harguments path hpath _ _ _ _ hsteps
  intro path hpath
  rw [selects_iff_served h]
  have hmem : path.steps ++ [] ∈ paths.map Path.steps := by
    rw [List.append_nil]
    exact List.mem_map_of_mem hpath
  exact Level.served_of_heeds rfl hclear hmem (hheeds path hpath) rfl

end Document

end GraphWalk
