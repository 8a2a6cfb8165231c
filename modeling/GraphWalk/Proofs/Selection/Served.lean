import GraphWalk.Proofs.Selection.Levels

/-!
# What requests lead through

A level holds the fields below a field beside its arguments, and both under names that a
field may have as well.  So a request may be at a level and not lead to its end: what is
asked for below a field without its arguments is not shown once another request has given
arguments to the field.  A request that heeds the arguments of the others leads to its end.

## Main definitions

* `Selection.Level.Served` — the requests that came to a level lead a chain of fields through.
* `Selection.Clear` — no field of the requests is taken for arguments or for a selection.
* `Selection.Heeds` — a request gives arguments wherever it passes a field that another one gives
  arguments to.

## Main results

* `Selection.Level.shows_members_iff` — a level leads through what its object shows.
* `Selection.Level.served_iff` — **clear requests lead through what is asked for with the
  arguments of all of them.**
-/

namespace GraphWalk

namespace Selection

namespace Level

/-! ### What a level shows -/

/-- The level whose fields are selected below a field: where arguments came, the one under the name
of selections. -/
def shown (l : Level) : Level :=
  if l.entry argumentsName = .nested then l.below selectionName else l

/-- The requests that came to a level lead a chain of fields through. -/
def Served : Level → List String → Prop
  | _, [] => True
  | l, name :: names =>
    match l.entry name with
    | .chosen => names = []
    | .nested => Served (l.below name).shown names
    | _ => False

theorem served_cons_of_chosen {l : Level} {name : String} (h : l.entry name = .chosen)
    (names : List String) : l.Served (name :: names) ↔ names = [] := by
  rw [Served, h]

theorem served_cons_of_nested {l : Level} {name : String} (h : l.entry name = .nested)
    (names : List String) : l.Served (name :: names) ↔ (l.below name).shown.Served names := by
  rw [Served, h]

theorem not_served_cons {l : Level} {name : String} (hchosen : l.entry name ≠ .chosen)
    (hnested : l.entry name ≠ .nested) (names : List String) : ¬l.Served (name :: names) := by
  rw [Served]
  split
  · next h => exact absurd h hchosen
  · next h => exact absurd h hnested
  · exact id

instance decidableServed : (l : Level) → (names : List String) → Decidable (l.Served names)
  | _, [] => .isTrue trivial
  | l, name :: names =>
    have : Decidable ((l.below name).shown.Served names) := decidableServed _ names
    if hchosen : l.entry name = .chosen then
      decidable_of_iff (names = []) (served_cons_of_chosen hchosen names).symm
    else if hnested : l.entry name = .nested then
      decidable_of_iff _ (served_cons_of_nested hnested names).symm
    else .isFalse (not_served_cons hchosen hnested names)

end Level

theorem Entry.of_eq_chosen_iff {value : Option Json} :
    Entry.of value = .chosen ↔ value = some (.bool true) := by
  rw [Entry.of.eq_def]
  split <;> simp_all

theorem Entry.of_eq_nested_iff {value : Option Json} :
    Entry.of value = .nested ↔ ∃ members, value = some (.object members) := by
  rw [Entry.of.eq_def]
  split <;> simp_all

namespace Level

theorem members_shown (l : Level) : l.shown.members = Selection.shown l.members := by
  have hentry := l.entry_members argumentsName
  rw [shown, Selection.shown]
  split
  · next hnested =>
    obtain ⟨args, hargs⟩ := Entry.of_eq_nested_iff.1 (hentry.trans hnested)
    rw [hargs, ← child_members]
  · next hnested =>
    split
    · next args hargs =>
      exact absurd (hentry.symm.trans (Entry.of_eq_nested_iff.2 ⟨args, hargs⟩)) hnested
    · rfl

/-- A level leads through what its object shows. -/
theorem shows_members_iff (l : Level) (names : List String) :
    Shows l.members names ↔ l.Served names := by
  induction names generalizing l with
  | nil => exact Iff.rfl
  | cons name names ih =>
    have hentry := l.entry_members name
    by_cases hchosen : l.entry name = .chosen
    · rw [served_cons_of_chosen hchosen,
        shows_cons_of_true (Entry.of_eq_chosen_iff.1 (hentry.trans hchosen))]
    by_cases hnested : l.entry name = .nested
    · obtain ⟨inner, hinner⟩ := Entry.of_eq_nested_iff.1 (hentry.trans hnested)
      have hbelow : inner = (l.below name).members := by
        rw [← child_members, child, hinner]
      rw [served_cons_of_nested hnested, shows_cons_of_object hinner, hbelow, ← members_shown, ih]
    · refine iff_of_false (not_shows_cons ?_ ?_) (not_served_cons hchosen hnested names)
      · exact fun h => hchosen (hentry.symm.trans (Entry.of_eq_chosen_iff.2 h))
      · exact fun inner h => hnested (hentry.symm.trans (Entry.of_eq_nested_iff.2 ⟨inner, h⟩))

/-- The level of the paths themselves. -/
def ofPaths (paths : List Path) : Level := { requests := paths.map Path.steps }

theorem members_ofPaths (paths : List Path) : (ofPaths paths).members = membersOf paths :=
  List.foldl_map

end Level

/-! ### Requests that are not mistaken -/

/-- The names of the fields of a request, in order. -/
def namesOf (request : List Step) : List String := request.filterMap Step.name?

/-- The steps of a request, whatever the arguments are. -/
def placeOf (request : List Step) : List (Option String) := request.map Step.name?

/-- Arguments stand right behind a field; at the beginning only when a field was before. -/
def Shaped (behindField : Bool) : List Step → Prop
  | [] => True
  | .field _ :: rest => Shaped true rest
  | .arguments _ :: rest => behindField = true ∧ Shaped false rest

/-- No field below a field without arguments is taken for arguments, nor for the selection beside
the arguments that another request gives. -/
structure Clear (requests : List (List Step)) : Prop where
  shaped : ∀ p ∈ requests, Shaped false p
  arguments : ∀ before name next rest,
    before ++ .field name :: .field argumentsName :: next :: rest ∉ requests
  selection : ∀ before name args rest before' rest',
    before ++ .field name :: .arguments args :: rest ∈ requests →
      before' ++ .field name :: .field selectionName :: rest' ∈ requests →
        placeOf before ≠ placeOf before'

/-- A request gives arguments to a field that it goes on behind where another one does. -/
def Heeds (requests : List (List Step)) (request : List Step) : Prop :=
  ∀ before name args rest before' next rest',
    before ++ .field name :: .arguments args :: rest ∈ requests →
      request = before' ++ .field name :: .field next :: rest' → placeOf before ≠ placeOf before'

/-- Requests that heed each other take no field for a selection. -/
theorem Clear.of_heeds {requests : List (List Step)} (hshaped : ∀ p ∈ requests, Shaped false p)
    (harguments : ∀ before name next rest,
      before ++ .field name :: .field argumentsName :: next :: rest ∉ requests)
    (hheeds : ∀ p ∈ requests, Heeds requests p) : Clear requests where
  shaped := hshaped
  arguments := harguments
  selection := fun _ _ _ _ _ _ hmem hselection =>
    hheeds _ hselection _ _ _ _ _ _ _ hmem rfl

theorem not_shaped_arguments (args : Dict Json) (rest : List Step) :
    ¬Shaped false (.arguments args :: rest) := fun h => Bool.false_ne_true h.1

theorem placeOf_append (p q : List Step) : placeOf (p ++ q) = placeOf p ++ placeOf q :=
  List.map_append

theorem placeOf_eq_cons_field {p : List Step} {name : String} {place : List (Option String)}
    (h : placeOf p = some name :: place) : ∃ q, p = .field name :: q ∧ placeOf q = place := by
  obtain ⟨step, q, rfl, hstep, hq⟩ := List.map_eq_cons_iff.1 h
  cases step with
  | field first => exact ⟨q, by rw [Option.some.inj hstep], hq⟩
  | arguments args => cases hstep

theorem placeOf_eq_cons_arguments {p : List Step} {place : List (Option String)}
    (h : placeOf p = none :: place) : ∃ args q, p = .arguments args :: q ∧ placeOf q = place := by
  obtain ⟨step, q, rfl, hstep, hq⟩ := List.map_eq_cons_iff.1 h
  cases step with
  | field first => cases hstep
  | arguments args => exact ⟨args, q, rfl, hq⟩

section Left

variable {requests left : List (List Step)} (place : List (Option String))
  (hleft : ∀ p ∈ left, ∃ before, placeOf before = place ∧ before ++ p ∈ requests)

include hleft

/-- What is left of clear requests behind the same steps is clear. -/
theorem Clear.of_append (h : Clear requests) (hshaped : ∀ p ∈ left, Shaped false p) :
    Clear left where
  shaped := hshaped
  arguments := by
    intro before name next rest hp
    obtain ⟨earlier, -, hmem⟩ := hleft _ hp
    rw [← List.append_assoc] at hmem
    exact h.arguments _ _ _ _ hmem
  selection := by
    intro before name args rest before' rest' hp hq heq
    obtain ⟨earlier, hplace, hp⟩ := hleft _ hp
    obtain ⟨earlier', hplace', hq⟩ := hleft _ hq
    rw [← List.append_assoc] at hp hq
    refine h.selection _ _ _ _ _ _ hp hq ?_
    rw [placeOf_append, placeOf_append, hplace, hplace', heq]

/-- What is left of a request heeds what is left of the others. -/
theorem Heeds.of_append (earlier : List Step) {request : List Step}
    (h : Heeds requests (earlier ++ request)) (hearlier : placeOf earlier = place) :
    Heeds left request := by
  intro before name args rest before' next rest' hp hrequest heq
  obtain ⟨other, hplace, hp⟩ := hleft _ hp
  rw [← List.append_assoc] at hp
  refine h _ _ _ _ (earlier ++ before') next rest' hp ?_ ?_
  · rw [hrequest, List.append_assoc]
  · rw [placeOf_append, placeOf_append, hplace, hearlier, heq]

end Left

/-! ### What is left behind a field -/

section Behind

variable {requests left : List (List Step)} {name : String}

theorem Clear.not_mem_arguments (h : Clear requests) (args : Dict Json) (rest : List Step) :
    Step.arguments args :: rest ∉ requests := fun hmem =>
  not_shaped_arguments args rest (h.shaped _ hmem)

/-- What is left behind a field is clear when no request gives it arguments. -/
theorem Clear.behind_field (h : Clear requests)
    (hleft : ∀ p, p ∈ left ↔ Step.field name :: p ∈ requests)
    (hnone : ∀ args rest, Step.field name :: .arguments args :: rest ∉ requests) : Clear left := by
  refine h.of_append [some name] (fun p hp => ⟨[.field name], rfl, (hleft p).1 hp⟩) ?_
  intro p hp
  have hshaped : Shaped true p := h.shaped _ ((hleft p).1 hp)
  cases p with
  | nil => trivial
  | cons step rest =>
    cases step with
    | field next => exact hshaped
    | arguments args => exact absurd ((hleft _).1 hp) (hnone args rest)

/-- What is left behind the arguments of a field is clear. -/
theorem Clear.behind_arguments (h : Clear requests)
    (hleft : ∀ p, p ∈ left ↔ ∃ args, Step.field name :: .arguments args :: p ∈ requests) :
    Clear left := by
  refine h.of_append [some name, none] ?_ ?_
  · intro p hp
    obtain ⟨args, hmem⟩ := (hleft p).1 hp
    exact ⟨[.field name, .arguments args], rfl, hmem⟩
  · intro p hp
    obtain ⟨args, hmem⟩ := (hleft p).1 hp
    have hshaped : Shaped true (.arguments args :: p) := h.shaped _ hmem
    exact hshaped.2

/-- A field alone goes on behind nothing. -/
theorem heeds_singleton (requests : List (List Step)) (name : String) :
    Heeds requests [.field name] := by
  intro before other args rest before' next rest' _ heq
  have hlength := congrArg List.length heq
  simp only [List.length_append, List.length_cons, List.length_nil] at hlength
  omega

/-- Behind a field without arguments it is to be heeded that no request gives it any. -/
theorem heeds_field_iff (hleft : ∀ p, p ∈ left ↔ Step.field name :: p ∈ requests) {next : String}
    {rest : List Step} : Heeds requests (.field name :: .field next :: rest) ↔
      (∀ args rest, Step.field name :: .arguments args :: rest ∉ requests) ∧
        Heeds left (.field next :: rest) := by
  constructor
  · intro h
    refine ⟨fun args rest hmem => h [] name args rest [] next _ hmem rfl rfl, ?_⟩
    exact Heeds.of_append [some name] (fun p hp => ⟨[.field name], rfl, (hleft p).1 hp⟩)
      [.field name] h rfl
  · rintro ⟨hnone, h⟩ before other args more before' following more' hmem heq hplace
    cases before' with
    | nil =>
      obtain rfl : before = [] := List.map_eq_nil_iff.1 hplace
      cases heq
      exact hnone args more hmem
    | cons step before' =>
      obtain ⟨rfl, hrest⟩ := List.cons.inj heq
      obtain ⟨before, rfl, hbefore⟩ := placeOf_eq_cons_field hplace
      exact h _ _ _ _ _ _ _ ((hleft _).2 hmem) hrest hbefore

/-- Behind arguments it is to be heeded what is left there. -/
theorem heeds_arguments_iff
    (hleft : ∀ p, p ∈ left ↔ ∃ args, Step.field name :: .arguments args :: p ∈ requests)
    {args : Dict Json} {rest : List Step} :
    Heeds requests (.field name :: .arguments args :: rest) ↔ Heeds left rest := by
  constructor
  · intro h
    refine Heeds.of_append [some name, none] ?_ [.field name, .arguments args] h rfl
    intro p hp
    obtain ⟨args, hmem⟩ := (hleft p).1 hp
    exact ⟨[.field name, .arguments args], rfl, hmem⟩
  · intro h before other given more before' following more' hmem heq hplace
    match before' with
    | [] => cases heq
    | [_] => cases heq
    | first :: second :: before' =>
      obtain ⟨rfl, hsecond⟩ := List.cons.inj heq
      obtain ⟨rfl, hrest⟩ := List.cons.inj hsecond
      obtain ⟨_, rfl, hbehind⟩ := placeOf_eq_cons_field hplace
      obtain ⟨given, before, rfl, hbefore⟩ := placeOf_eq_cons_arguments hbehind
      exact h _ _ _ _ _ _ _ ((hleft _).2 ⟨given, hmem⟩) hrest hbefore

end Behind

/-! ### Clear requests -/

namespace Level

/-- What comes below a field are the requests that go on behind it. -/
theorem below_of_shaped {l : Level} (name : String) (hgiven : l.given = [])
    (hshaped : ∀ p ∈ l.requests, Shaped false p) : (l.below name).given = [] ∧
      ∀ p, p ∈ (l.below name).requests ↔ Step.field name :: p ∈ l.requests := by
  have hnone : ∀ args rest, Step.arguments args :: rest ∉ l.requests := fun args rest hmem =>
    not_shaped_arguments args rest (hshaped _ hmem)
  rw [below_eq fun _ => hnone, hgiven]
  refine ⟨rfl, fun p => ?_⟩
  rw [mem_left_iff]
  refine ⟨fun h => h.resolve_right ?_, .inl⟩
  rintro ⟨-, args, hargs⟩
  exact hnone args p hargs

section Below

variable {l : Level} (name : String) (hgiven : l.given = []) (hclear : Clear l.requests)

include hgiven hclear

theorem below_of_clear : (l.below name).given = [] ∧
    ∀ p, p ∈ (l.below name).requests ↔ Step.field name :: p ∈ l.requests :=
  below_of_shaped name hgiven hclear.shaped

variable {name}

/-- Below a field to which a request gives arguments, what stands behind arguments is shown. -/
theorem shown_of_arguments {args : Dict Json} {rest : List Step}
    (hmem : Step.field name :: .arguments args :: rest ∈ l.requests) :
    (l.below name).shown.given = [] ∧ ∀ p, p ∈ (l.below name).shown.requests
      ↔ ∃ args, Step.field name :: .arguments args :: p ∈ l.requests := by
  obtain ⟨hnone, hunder⟩ := below_of_clear name hgiven hclear
  have harguments : (l.below name).entry argumentsName = .nested :=
    (entry_eq_nested_iff hnone).2 ⟨_, (hunder _).2 hmem, .arguments args rest (.inl rfl)⟩
  rw [shown, if_pos harguments, below_eq fun h => absurd h selectionName_ne_argumentsName, hnone]
  refine ⟨rfl, fun p => ?_⟩
  simp only [mem_left_iff, hunder, true_and]
  refine ⟨fun h => h.resolve_left fun hselection => ?_, .inr⟩
  exact hclear.selection [] _ _ _ [] _ hmem hselection rfl

/-- Below a field to which no request gives arguments everything is shown. -/
theorem shown_of_field
    (hfield : ∀ args rest, Step.field name :: .arguments args :: rest ∉ l.requests) :
    (l.below name).shown = l.below name := by
  obtain ⟨hnone, hunder⟩ := below_of_clear name hgiven hclear
  rw [shown, if_neg]
  intro h
  obtain ⟨p, hp, hleads⟩ := (entry_eq_nested_iff hnone).1 h
  rw [hunder] at hp
  cases hleads with
  | field step rest => exact hclear.arguments [] name step rest hp
  | arguments args rest _ => exact hfield args rest hp

end Below

/-- A chain of fields goes on behind a request, if only up to the end of the request. -/
theorem exists_of_served_cons {l : Level} {name : String} {names : List String}
    (hgiven : l.given = []) (hclear : Clear l.requests) (h : l.Served (name :: names)) :
    ∃ rest, Step.field name :: rest ∈ l.requests ∧ (names ≠ [] → l.entry name = .nested) := by
  by_cases hchosen : l.entry name = .chosen
  · refine ⟨[], mem_of_entry_eq_chosen hgiven hchosen, fun hne => ?_⟩
    exact absurd ((served_cons_of_chosen hchosen names).1 h) hne
  by_cases hnested : l.entry name = .nested
  · obtain ⟨request, hmem, hleads⟩ := (entry_eq_nested_iff hgiven).1 hnested
    cases hleads with
    | field step rest => exact ⟨step :: rest, hmem, fun _ => hnested⟩
    | arguments args rest _ => exact absurd hmem (hclear.not_mem_arguments args rest)
  · exact absurd h (not_served_cons hchosen hnested names)

/-- Clear requests lead through the fields that one of them passes, as long as it heeds the
others. -/
theorem served_of_heeds {l : Level} (hgiven : l.given = []) (hclear : Clear l.requests)
    {request rest : List Step} (hmem : request ++ rest ∈ l.requests)
    (hheeds : Heeds l.requests request) {names : List String} (hnames : namesOf request = names) :
    l.Served names := by
  induction names generalizing l request with
  | nil => trivial
  | cons name names ih =>
    cases request with
    | nil => cases hnames
    | cons step request =>
      cases step with
      | arguments args => exact absurd hmem (hclear.not_mem_arguments args _)
      | field first =>
        obtain ⟨rfl, hbehindNames⟩ := List.cons.inj hnames
        obtain ⟨hnone, hunder⟩ := below_of_clear first hgiven hclear
        cases request with
        | nil =>
          obtain rfl : [] = names := hbehindNames
          rcases entry_of_mem hgiven hmem with hchosen | hnested
          · exact (served_cons_of_chosen hchosen _).2 rfl
          · exact (served_cons_of_nested hnested _).2 trivial
        | cons step request =>
          have hnested : l.entry first = .nested :=
            (entry_eq_nested_iff hgiven).2 ⟨_, hmem, .field step _⟩
          rw [served_cons_of_nested hnested]
          cases step with
          | arguments args =>
            obtain ⟨hshown, hbehind⟩ := shown_of_arguments hgiven hclear hmem
            exact ih hshown (hclear.behind_arguments hbehind) ((hbehind _).2 ⟨args, hmem⟩)
              ((heeds_arguments_iff hbehind).1 hheeds) hbehindNames
          | field next =>
            obtain ⟨hfield, hrest⟩ := (heeds_field_iff hunder).1 hheeds
            rw [shown_of_field hgiven hclear hfield]
            exact ih hnone (hclear.behind_field hunder hfield) ((hunder _).2 hmem) hrest
              hbehindNames

/-- A chain of fields that clear requests lead through is passed by one that heeds the others. -/
theorem exists_of_served {l : Level} (hgiven : l.given = []) (hclear : Clear l.requests)
    {name : String} {names : List String} (hserved : l.Served (name :: names)) :
    ∃ request rest, request ++ rest ∈ l.requests ∧ namesOf request = name :: names ∧
      Heeds l.requests request := by
  induction names generalizing l name with
  | nil =>
    obtain ⟨rest, hmem, -⟩ := exists_of_served_cons hgiven hclear hserved
    exact ⟨[.field name], rest, hmem, rfl, heeds_singleton _ _⟩
  | cons next names ih =>
    obtain ⟨-, -, hnested⟩ := exists_of_served_cons hgiven hclear hserved
    rw [served_cons_of_nested (hnested (List.cons_ne_nil _ _))] at hserved
    obtain ⟨hnone, hunder⟩ := below_of_clear name hgiven hclear
    by_cases hargs : ∃ args rest, Step.field name :: .arguments args :: rest ∈ l.requests
    -- arguments from any request decide which level is shown to all of them
    · obtain ⟨args, rest, hmem⟩ := hargs
      obtain ⟨hshown, hbehind⟩ := shown_of_arguments hgiven hclear hmem
      obtain ⟨request, more, hrequest, hnames, hheeds⟩ :=
        ih hshown (hclear.behind_arguments hbehind) hserved
      obtain ⟨given, hgivenMem⟩ := (hbehind _).1 hrequest
      refine ⟨.field name :: .arguments given :: request, more, hgivenMem, ?_, ?_⟩
      · exact congrArg _ hnames
      · exact (heeds_arguments_iff hbehind).2 hheeds
    · have hfield : ∀ args rest, Step.field name :: .arguments args :: rest ∉ l.requests :=
        fun args rest hmem => hargs ⟨args, rest, hmem⟩
      have hbelow := hclear.behind_field hunder hfield
      rw [shown_of_field hgiven hclear hfield] at hserved
      obtain ⟨request, more, hrequest, hnames, hheeds⟩ := ih hnone hbelow hserved
      refine ⟨.field name :: request, more, (hunder _).1 hrequest, congrArg _ hnames, ?_⟩
      cases request with
      | nil => exact heeds_singleton _ _
      | cons step request =>
        cases step with
        | arguments args => exact absurd hrequest (hbelow.not_mem_arguments args _)
        | field first => exact (heeds_field_iff hunder).2 ⟨hfield, hheeds⟩

/-- **Clear requests lead through what is asked for with the arguments of all of them.** -/
theorem served_iff {l : Level} (hgiven : l.given = []) (hclear : Clear l.requests)
    {names : List String} (hne : names ≠ []) : l.Served names ↔
      ∃ request rest, request ++ rest ∈ l.requests ∧ namesOf request = names ∧
        Heeds l.requests request := by
  constructor
  · intro hserved
    cases names with
    | nil => exact absurd rfl hne
    | cons name names => exact exists_of_served hgiven hclear hserved
  · rintro ⟨request, rest, hmem, hnames, hheeds⟩
    exact served_of_heeds hgiven hclear hmem hheeds hnames

end Level

end Selection

end GraphWalk
