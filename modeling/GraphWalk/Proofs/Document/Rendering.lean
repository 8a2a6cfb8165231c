import GraphWalk.Proofs.Document.Literals
import GraphWalk.Proofs.Json.Merging

/-!
# What a document selects

A document that was written for a selection is read back: its fields are those that the
members of the selection stand for, at every depth.  So whether it selects a chain of
fields can be told from the selection.

## Main definitions

* `Field.chains`, `Field.chainsBelow` — the chains of fields that a field starts.
* `Selection.Shows` — the members of a selection stand for a chain of fields.
* `Json.WellFormed` — ordered members with names of the query language.

## Main results

* `Document.fieldsOf_text` — the fields of a document are read back.
* `Document.selects_iff` — **a document selects what its selection shows.**
-/

namespace GraphWalk

namespace Field

mutual

/-- The field at the end of the fields around it, and all chains below it. -/
def chains (here : List String) : Field → List (List String)
  | .mk name _ selected =>
    (here ++ [name]) ::
      match selected with
      | none => []
      | some fields => chainsBelow (here ++ [name]) fields

/-- The chains of some fields. -/
def chainsBelow (here : List String) : List Field → List (List String)
  | [] => []
  | field :: fields => field.chains here ++ chainsBelow here fields

end

mutual

/-- The names of fields and arguments are names of the query language, at every depth. -/
def Named : Field → Prop
  | .mk name args selected =>
    Document.IsName name ∧ (∀ members, args = some members → Json.NamedMembers members) ∧
      match selected with
      | none => True
      | some fields => NamedAll fields

/-- Every field is named. -/
def NamedAll : List Field → Prop
  | [] => True
  | field :: fields => field.Named ∧ NamedAll fields

end

end Field

namespace Document

open GraphWalk.Field

/-! ### Fields are read back -/

/-- What follows a field begins with a blank. -/
theorem exists_selectedChars (fields : List Field) : ∃ cs, selectedChars fields = ' ' :: cs := by
  cases fields with
  | nil => exact ⟨_, rfl⟩
  | cons field fields => exact ⟨_, rfl⟩

/-- Arguments that stand behind a name end it and are passed over. -/
theorem reads_name_arguments {outer : List (List String)} {here last : List String} {name : String}
    (hname : IsName name) {args : Option (Dict Json)}
    (hargs : ∀ members, args = some members → Json.NamedMembers members) (cs : List Char) :
    reads outer here last (name.toList ++ argumentsChars args ++ ' ' :: cs)
      = (here ++ [name]) :: reads outer here (here ++ [name]) (' ' :: cs) := by
  cases args with
  | none =>
    rw [argumentsChars, List.append_nil]
    exact reads_name hname rfl cs
  | some members =>
    have hread := reads_arguments outer here (here ++ [name]) (hargs members rfl) (' ' :: cs)
    rw [argumentsChars, List.append_assoc, List.cons_append, List.append_assoc,
      reads_name hname rfl]
    exact congrArg _ hread

mutual

/-- A field is read, and with it what it selects. -/
theorem reads_field (outer : List (List String)) (here last : List String) {cs : List Char}
    {found : List (List String)} (hrest : ∀ last, reads outer here last (' ' :: cs) = found) :
    ∀ field : Field, field.Named →
      reads outer here last (field.chars ++ ' ' :: cs) = field.chains here ++ found
  | .mk name args none, h => by
    rw [Field.chars, List.append_nil, reads_name_arguments h.1 h.2.1, hrest]
    rfl
  | .mk name args (some fields), h => by
    rw [Field.chars, List.append_assoc, List.cons_append, reads_name_arguments h.1 h.2.1,
      reads_blank, List.cons_append, reads_opening,
      reads_selected outer here (here ++ [name]) (here ++ [name]) (' ' :: cs) fields h.2.2, hrest]
    rfl

/-- The fields of a selection are read up to its end. -/
theorem reads_selected (outer : List (List String)) (enclosing here last : List String)
    (cs : List Char) : ∀ fields : List Field, NamedAll fields →
      reads (enclosing :: outer) here last (selectedChars fields ++ cs)
        = chainsBelow here fields ++ reads outer enclosing enclosing cs
  | [], _ => by
    rw [selectedChars, List.cons_append, reads_blank, List.cons_append, reads_closing]
    rfl
  | field :: fields, h => by
    have hrest := fun last => reads_selected outer enclosing here last cs fields h.2
    obtain ⟨more, hmore⟩ := exists_selectedChars fields
    simp only [hmore, List.cons_append] at hrest
    rw [selectedChars, hmore, List.cons_append, reads_blank, List.append_assoc, List.cons_append,
      reads_field (enclosing :: outer) here last hrest field h.1, chainsBelow, List.append_assoc]

end

/-- The fields of a document are read back, below the word in front of them. -/
theorem fieldsOf_text {members : Dict Json} (h : NamedAll (Field.ofMembers members)) :
    fieldsOf (text (.object members))
      = ["query"] :: chainsBelow ["query"] (Field.ofMembers members) := by
  have hquery : IsName "query" := by decide
  have hchars : chars (.object members)
      = "query".toList ++ ' ' :: '\x7b' :: (selectedChars (Field.ofMembers members) ++ []) := by
    rw [List.append_nil]
    rfl
  have hread := reads_selected [] [] ["query"] ["query"] [] _ h
  rw [fieldsOf, text, String.toList_ofList, hchars]
  show reads [] [] [] _ = _
  rw [reads_name hquery rfl, reads_blank, reads_opening]
  exact congrArg _ (hread.trans (List.append_nil _))

end Document

/-! ### Chains of fields -/

namespace Field

/-- The name of a field. -/
def name : Field → String
  | .mk name _ _ => name

/-- What is selected below a field. -/
def selected : Field → Option (List Field)
  | .mk _ _ selected => selected

/-- Some fields hold a chain of names, each below the one before it. -/
def Hold : List Field → List String → Prop
  | _, [] => False
  | fields, name :: names => ∃ field ∈ fields, field.name = name ∧
      (names = [] ∨ ∃ inner, field.selected = some inner ∧ Hold inner names)

variable {here chain : List String} {fields : List Field}

theorem mem_chains_iff {field : Field} :
    chain ∈ field.chains here ↔ chain = here ++ [field.name] ∨
      ∃ inner, field.selected = some inner ∧ chain ∈ chainsBelow (here ++ [field.name]) inner := by
  obtain ⟨name, args, selected⟩ := field
  cases selected with
  | none =>
    rw [chains, List.mem_singleton]
    exact ⟨.inl, fun h => h.elim id fun ⟨_, hinner, _⟩ => nomatch hinner⟩
  | some inner =>
    rw [chains, List.mem_cons]
    refine or_congr Iff.rfl ⟨fun h => ⟨inner, rfl, h⟩, ?_⟩
    rintro ⟨other, hother, h⟩
    cases hother
    exact h

theorem mem_chainsBelow_iff :
    chain ∈ chainsBelow here fields ↔ ∃ field ∈ fields, chain ∈ field.chains here := by
  induction fields with
  | nil =>
    rw [chainsBelow]
    exact ⟨nofun, fun ⟨_, hmem, _⟩ => nomatch hmem⟩
  | cons field fields ih =>
    rw [chainsBelow, List.mem_append, ih]
    simp only [List.mem_cons, exists_eq_or_imp]

mutual

/-- Every chain goes on from the fields around it. -/
theorem exists_of_mem_chains (here : List String) {chain : List String} :
    ∀ field : Field, chain ∈ field.chains here → ∃ name names, chain = here ++ name :: names
  | .mk name args none, h => ⟨name, [], List.mem_singleton.1 h⟩
  | .mk name args (some inner), h => by
    rcases List.mem_cons.1 h with h | h
    · exact ⟨name, [], h⟩
    · obtain ⟨next, names, hchain⟩ := exists_of_mem_chainsBelow (here ++ [name]) inner h
      exact ⟨name, next :: names, by rw [hchain, List.append_assoc]; rfl⟩

theorem exists_of_mem_chainsBelow (here : List String) {chain : List String} :
    ∀ fields : List Field, chain ∈ chainsBelow here fields →
      ∃ name names, chain = here ++ name :: names
  | [], h => nomatch h
  | field :: fields, h => by
    rcases List.mem_append.1 h with h | h
    · exact exists_of_mem_chains here field h
    · exact exists_of_mem_chainsBelow here fields h

end

/-- The chains of some fields are those that they hold. -/
theorem mem_chainsBelow_iff_hold {names : List String} :
    here ++ names ∈ chainsBelow here fields ↔ Hold fields names := by
  induction names generalizing here fields with
  | nil =>
    refine ⟨fun h => ?_, False.elim⟩
    obtain ⟨name, names, hchain⟩ := exists_of_mem_chainsBelow here fields h
    cases List.append_cancel_left hchain
  | cons name names ih =>
    rw [mem_chainsBelow_iff, Hold]
    refine exists_congr fun field => and_congr Iff.rfl ?_
    rw [mem_chains_iff]
    constructor
    · rintro (hchain | ⟨inner, hinner, hchain⟩)
      -- both chains go on from the same fields, so they are compared name by name
      · cases List.append_cancel_left hchain
        exact ⟨rfl, .inl rfl⟩
      · obtain ⟨next, rest, hnext⟩ := exists_of_mem_chainsBelow _ inner hchain
        rw [List.append_assoc] at hnext
        obtain ⟨rfl, -⟩ := List.cons.inj (List.append_cancel_left hnext)
        rw [show here ++ field.name :: names = (here ++ [field.name]) ++ names by
          rw [List.append_assoc]; rfl, ih] at hchain
        exact ⟨rfl, .inr ⟨inner, hinner, hchain⟩⟩
    · rintro ⟨rfl, rfl | ⟨inner, hinner, hold⟩⟩
      · exact .inl rfl
      · refine .inr ⟨inner, hinner, ?_⟩
        rw [show here ++ field.name :: names = (here ++ [field.name]) ++ names by
          rw [List.append_assoc]; rfl, ih]
        exact hold

end Field

/-! ### What a selection shows -/

namespace Selection

/-- What is selected below a field that holds an object: the selection beside the arguments when
the object has arguments, otherwise the object. -/
def shown (members : Dict Json) : Dict Json :=
  match Dict.get? members argumentsName with
  | some (.object _) => child members selectionName
  | _ => members

theorem shown_eq_child {members args : Dict Json}
    (h : Dict.get? members argumentsName = some (.object args)) :
    shown members = child members selectionName := by
  rw [shown, h]

theorem shown_eq_self {members : Dict Json}
    (h : ∀ args, Dict.get? members argumentsName ≠ some (.object args)) :
    shown members = members := by
  rw [shown]
  split
  · next args hargs => exact absurd hargs (h args)
  · rfl

/-- An object has arguments or not. -/
theorem arguments_cases (members : Dict Json) :
    (∃ args, Dict.get? members argumentsName = some (.object args)) ∨
      ∀ args, Dict.get? members argumentsName ≠ some (.object args) := by
  by_cases h : ∃ args, Dict.get? members argumentsName = some (.object args)
  · exact .inl h
  · exact .inr fun args hargs => h ⟨args, hargs⟩

/-- The members of a selection stand for a chain of fields. -/
def Shows : Dict Json → List String → Prop
  | _, [] => True
  | members, name :: names =>
    match Dict.get? members name with
    | some (.bool true) => names = []
    | some (.object inner) => Shows (shown inner) names
    | _ => False

theorem shows_cons_of_true {members : Dict Json} {name : String}
    (h : Dict.get? members name = some (.bool true)) (names : List String) :
    Shows members (name :: names) ↔ names = [] := by
  rw [Shows, h]

theorem shows_cons_of_object {members inner : Dict Json} {name : String}
    (h : Dict.get? members name = some (.object inner)) (names : List String) :
    Shows members (name :: names) ↔ Shows (shown inner) names := by
  rw [Shows, h]

theorem not_shows_cons {members : Dict Json} {name : String} {names : List String}
    (htrue : Dict.get? members name ≠ some (.bool true))
    (hobject : ∀ inner, Dict.get? members name ≠ some (.object inner)) :
    ¬Shows members (name :: names) := by
  rw [Shows]
  split
  · next h => exact absurd h htrue
  · next inner h => exact absurd h (hobject inner)
  · exact id

end Selection

/-! ### Well-formed selections -/

namespace Json

/-- The members are ordered and have names of the query language, at every depth. -/
structure WellFormed (members : Dict Json) : Prop where
  ordered : (Json.object members).Ordered
  named : NamedMembers members

theorem wellFormed_nil : WellFormed [] := ⟨⟨List.Pairwise.nil, trivial⟩, trivial⟩

theorem WellFormed.of_get? {members inner : Dict Json} (h : WellFormed members) {name : String}
    (hget : Dict.get? members name = some (.object inner)) : WellFormed inner :=
  ⟨ordered_of_get? h.ordered.2 hget, named_of_get? h.named hget⟩

theorem WellFormed.insert {members : Dict Json} (h : WellFormed members) {name : String}
    {value : Json} (hname : Document.IsName name) (hordered : value.Ordered)
    (hnamed : value.Named) : WellFormed (Dict.insert members name value) := by
  refine ⟨⟨Dict.ascending_insert h.ordered.1 name value, ?_⟩, ?_⟩
  · rw [orderedMembers_iff]
    intro entry hentry
    rcases Dict.mem_insert hentry with rfl | hentry
    · exact hordered
    · exact orderedMembers_iff.1 h.ordered.2 entry hentry
  · rw [namedMembers_iff]
    intro entry hentry
    rcases Dict.mem_insert hentry with rfl | hentry
    · exact ⟨hname, hnamed⟩
    · exact namedMembers_iff.1 h.named entry hentry

end Json

namespace Selection

open Json

theorem wellFormed_child {members : Dict Json} (h : WellFormed members) (name : String) :
    WellFormed (child members name) := by
  rw [child]
  split
  · next inner hget => exact h.of_get? hget
  · exact wellFormed_nil

theorem wellFormed_shown {members : Dict Json} (h : WellFormed members) :
    WellFormed (shown members) := by
  rw [shown]
  split
  · exact wellFormed_child h _
  · exact h

end Selection

namespace Field

open Selection

/-- The field that a member stands for, if it stands for one. -/
theorem mem_ofMembers_cons {name : String} {value : Json} {members : List (String × Json)}
    {field : Field} : field ∈ ofMembers ((name, value) :: members) ↔
      (value = .bool true ∧ field = .mk name none none ∨
        ∃ inner, value = .object inner ∧ field = ofChild name inner) ∨
      field ∈ ofMembers members := by
  rw [ofMembers.eq_def]
  dsimp only
  split
  · rw [List.mem_cons]
    refine or_congr ?_ Iff.rfl
    constructor
    · intro h
      exact .inl ⟨rfl, h⟩
    · rintro (⟨-, h⟩ | ⟨_, hobject, -⟩)
      · exact h
      · cases hobject
  · rw [List.mem_cons]
    refine or_congr ?_ Iff.rfl
    constructor
    · intro h
      exact .inr ⟨_, rfl, h⟩
    · rintro (⟨htrue, -⟩ | ⟨_, hobject, h⟩)
      · cases htrue
      · cases hobject
        exact h
  · next htrue hobject =>
    constructor
    · exact .inr
    · rintro ((⟨rfl, -⟩ | ⟨inner, rfl, -⟩) | h)
      · exact absurd rfl htrue
      · exact absurd rfl (hobject inner)
      · exact h

theorem mem_ofMembers {members : List (String × Json)} {field : Field} :
    field ∈ ofMembers members ↔ ∃ name value, (name, value) ∈ members ∧
      (value = .bool true ∧ field = .mk name none none ∨
        ∃ inner, value = .object inner ∧ field = ofChild name inner) := by
  induction members with
  | nil =>
    rw [ofMembers]
    constructor
    · intro h
      cases h
    · rintro ⟨_, _, hmem, -⟩
      cases hmem
  | cons entry members ih =>
    obtain ⟨name, value⟩ := entry
    rw [mem_ofMembers_cons, ih]
    constructor
    · rintro (h | ⟨other, found, hmem, h⟩)
      · exact ⟨name, value, List.mem_cons_self, h⟩
      · exact ⟨other, found, List.mem_cons_of_mem _ hmem, h⟩
    · rintro ⟨other, found, hmem, h⟩
      rcases List.mem_cons.1 hmem with heq | hmem
      · cases heq
        exact .inl h
      · exact .inr ⟨other, found, hmem, h⟩

/-- Beside arguments a field has the selection that stands with them, unless it is empty. -/
theorem ofChild_of_arguments (name : String) {members args : Dict Json}
    (h : Dict.get? members argumentsName = some (.object args)) :
    ofChild name members = .mk name (some args)
      (if child members selectionName = [] then none
        else some (ofMembers (child members selectionName))) := by
  rw [ofChild, h, child]
  dsimp only
  split
  · next first rest hselect => rw [hselect, if_neg (List.cons_ne_nil _ _)]
  · next hselect =>
    rw [if_pos]
    split
    · next inner hobject =>
      cases inner with
      | nil => rfl
      | cons first rest => exact absurd hobject (hselect first rest)
    · rfl

/-- Without arguments the selection of a field is the object. -/
theorem ofChild_of_plain (name : String) {members : Dict Json}
    (h : ∀ args, Dict.get? members argumentsName ≠ some (.object args)) :
    ofChild name members = .mk name none (some (ofMembers members)) := by
  rw [ofChild]
  split
  · next args hargs => exact absurd hargs (h args)
  · rfl

theorem name_ofChild (name : String) (members : Dict Json) :
    (ofChild name members).name = name := by
  rcases arguments_cases members with ⟨args, hargs⟩ | hplain
  · rw [ofChild_of_arguments name hargs]
    rfl
  · rw [ofChild_of_plain name hplain]
    rfl

theorem not_hold_ofMembers_nil (names : List String) : ¬Hold (ofMembers []) names := by
  rw [ofMembers]
  intro h
  cases names with
  | nil => exact h
  | cons name names =>
    obtain ⟨_, hmem, -⟩ := h
    cases hmem

/-- What is selected below a field is what its object shows. -/
theorem hold_ofChild (name : String) (members : Dict Json) (names : List String) :
    (∃ inner, (ofChild name members).selected = some inner ∧ Hold inner names)
      ↔ Hold (ofMembers (shown members)) names := by
  have hsome : ∀ fields : List Field,
      (∃ inner, some fields = some inner ∧ Hold inner names) ↔ Hold fields names := by
    intro fields
    constructor
    · rintro ⟨inner, hinner, h⟩
      cases hinner
      exact h
    · exact fun h => ⟨fields, rfl, h⟩
  rcases arguments_cases members with ⟨args, hargs⟩ | hplain
  · rw [ofChild_of_arguments name hargs, shown_eq_child hargs]
    split
    -- an empty selection is left out of the document
    · next hempty =>
      rw [hempty]
      refine iff_of_false ?_ (not_hold_ofMembers_nil names)
      rintro ⟨_, hinner, -⟩
      cases hinner
    · exact hsome _
  · rw [ofChild_of_plain name hplain, shown_eq_self hplain]
    exact hsome _

theorem hold_cons_of_true {members : Dict Json} {name : String} {names : List String}
    (h : (name, Json.bool true) ∈ members) (hnames : names = []) :
    Hold (ofMembers members) (name :: names) :=
  ⟨.mk name none none, mem_ofMembers.2 ⟨name, _, h, .inl ⟨rfl, rfl⟩⟩, rfl, .inl hnames⟩

theorem hold_cons_of_object {members inner : Dict Json} {name : String} {names : List String}
    (h : (name, Json.object inner) ∈ members)
    (hnames : names = [] ∨ Hold (ofMembers (shown inner)) names) :
    Hold (ofMembers members) (name :: names) := by
  refine ⟨ofChild name inner, mem_ofMembers.2 ⟨name, _, h, .inr ⟨inner, rfl, rfl⟩⟩,
    name_ofChild name inner, ?_⟩
  rw [hold_ofChild]
  exact hnames

/-- The fields that members stand for hold what the members show. -/
theorem hold_ofMembers_iff {members : Dict Json} (h : Json.WellFormed members)
    {names : List String} (hne : names ≠ []) :
    Hold (ofMembers members) names ↔ Shows members names := by
  induction names generalizing members with
  | nil => exact absurd rfl hne
  | cons name names ih =>
    -- the first name is looked up; the rest is held by what is shown below it
    have hbelow : ∀ {inner : Dict Json}, Dict.get? members name = some (.object inner) →
        (names = [] ∨ Hold (ofMembers (shown inner)) names ↔ Shows (shown inner) names) := by
      intro inner hget
      cases names with
      | nil => exact ⟨fun _ => trivial, fun _ => .inl rfl⟩
      | cons next names =>
        rw [ih (wellFormed_shown (h.of_get? hget)) (List.cons_ne_nil _ _)]
        exact ⟨fun hor => hor.resolve_left (List.cons_ne_nil _ _), .inr⟩
    constructor
    · rintro ⟨field, hfield, hname, hnames⟩
      obtain ⟨other, value, hmem, ⟨rfl, rfl⟩ | ⟨inner, rfl, rfl⟩⟩ := mem_ofMembers.1 hfield
      · obtain rfl : other = name := hname
        rw [shows_cons_of_true (Dict.get?_of_mem h.ordered.1 hmem)]
        rcases hnames with hnames | ⟨_, hinner, -⟩
        · exact hnames
        · cases hinner
      · obtain rfl : other = name := (name_ofChild other inner).symm.trans hname
        have hget := Dict.get?_of_mem h.ordered.1 hmem
        rw [hold_ofChild] at hnames
        rw [shows_cons_of_object hget]
        exact (hbelow hget).1 hnames
    · intro hshows
      by_cases htrue : Dict.get? members name = some (.bool true)
      · exact hold_cons_of_true (Dict.mem_of_get?_eq_some htrue)
          ((shows_cons_of_true htrue names).1 hshows)
      by_cases hobject : ∃ inner, Dict.get? members name = some (.object inner)
      · obtain ⟨inner, hget⟩ := hobject
        exact hold_cons_of_object (Dict.mem_of_get?_eq_some hget)
          ((hbelow hget).2 ((shows_cons_of_object hget names).1 hshows))
      · exact absurd hshows (not_shows_cons htrue fun inner hget => hobject ⟨inner, hget⟩)

mutual

/-- The fields that named members stand for are named. -/
theorem namedAll_ofMembers : ∀ members : List (String × Json), Json.NamedMembers members →
    NamedAll (ofMembers members)
  | [], _ => by
    rw [ofMembers]
    trivial
  | (name, value) :: members, h => by
    rw [ofMembers.eq_def]
    dsimp only
    split
    · exact ⟨⟨h.1, nofun, trivial⟩, namedAll_ofMembers members h.2.2⟩
    · next child => exact ⟨named_ofChild name child h.1 h.2.1, namedAll_ofMembers members h.2.2⟩
    · exact namedAll_ofMembers members h.2.2
termination_by members => (sizeOf members, 0)

theorem named_ofChild (name : String) (members : List (String × Json))
    (hname : Document.IsName name) (h : Json.NamedMembers members) :
    (ofChild name members).Named := by
  rw [ofChild]
  split
  · next args hargs =>
    have hnamed : Json.NamedMembers args := Json.named_of_get? h hargs
    split
    · next first rest hselect =>
      have : sizeOf (first :: rest) < sizeOf members := by
        have := Json.sizeOf_lt_of_get?_eq_some hselect
        simp only [Json.object.sizeOf_spec] at this
        omega
      refine ⟨hname, fun _ hsome => Option.some.inj hsome ▸ hnamed, ?_⟩
      exact namedAll_ofMembers (first :: rest) (Json.named_of_get? h hselect)
    · exact ⟨hname, fun _ hsome => Option.some.inj hsome ▸ hnamed, trivial⟩
  · exact ⟨hname, nofun, namedAll_ofMembers members h⟩
termination_by (sizeOf members, 1)

end

end Field

/-- **A document selects what its selection shows.** -/
theorem Document.selects_iff {members : Dict Json} (h : Json.WellFormed members)
    (names : List String) :
    Document.Selects (Document.text (.object members)) names ↔ Selection.Shows members names := by
  rw [Document.Selects, Document.fieldsOf_text (Field.namedAll_ofMembers members h.named),
    List.mem_cons]
  cases names with
  | nil => exact ⟨fun _ => trivial, fun _ => .inl rfl⟩
  | cons name names =>
    rw [← Field.hold_ofMembers_iff h (List.cons_ne_nil _ _), ← Field.mem_chainsBelow_iff_hold]
    refine ⟨fun h => h.resolve_left nofun, .inr⟩

end GraphWalk
