import Mathlib.Data.List.Induction
import GraphWalk.Selection
import GraphWalk.Proofs.Json.Merging

/-!
# The leaves of a selection

A selection of paths without arguments is a tree of their fields.  Adding a path puts
`true` at its end and turns what stands on the way into objects; places beside the path
stay as they are.  So when no path leads through the end of another one, the places that
hold `true` are exactly the ends of the paths.

## Main definitions

* `Selection.Apart` — neither of two lists of names continues the other.

## Main results

* `Selection.at?_nest_self`, `Selection.at?_nest_apart` — what one more path changes.
* `Selection.selected_iff` — **the selected places are the paths that were asked for.**
-/

namespace GraphWalk

namespace Selection

/-- Neither list of names continues the other. -/
def Apart (p q : List String) : Prop := ¬p <+: q ∧ ¬q <+: p

theorem Apart.tail {name : String} {p q : List String} (h : Apart (name :: p) (name :: q)) :
    Apart p q := by
  refine ⟨fun hpq => h.1 ?_, fun hqp => h.2 ?_⟩
  · exact List.cons_prefix_cons.2 ⟨rfl, hpq⟩
  · exact List.cons_prefix_cons.2 ⟨rfl, hqp⟩

/-- A path of fields added to a selection. -/
def nestFields (members : Dict Json) (names : List String) : Dict Json :=
  nest members (names.map .field)

theorem nestFields_singleton (members : Dict Json) (name : String) :
    nestFields members [name]
      = if Dict.contains members name then members
        else Dict.insert members name (.bool true) := rfl

theorem nestFields_cons_cons (members : Dict Json) (name next : String) (names : List String) :
    nestFields members (name :: next :: names)
      = Dict.insert members name (.object (nestFields (child members name) (next :: names))) := rfl

/-- A place below a name is looked up in the selection that stands under the name. -/
theorem at?_child (members : Dict Json) (name : String) {names : List String} (h : names ≠ []) :
    (Json.object (child members name)).at? names = (Json.object members).at? (name :: names) := by
  cases names with
  | nil => exact absurd rfl h
  | cons next names =>
    rw [Json.at?_cons _ name, Json.member?_object, child]
    cases Dict.get? members name with
    | none => rfl
    | some value => cases value <;> rfl

/-- The end of a path keeps what stands there, and is asked for otherwise. -/
theorem at?_nest_self (members : Dict Json) {names : List String} (h : names ≠ []) :
    (Json.object (nestFields members names)).at? names
      = some (((Json.object members).at? names).getD (.bool true)) := by
  induction names generalizing members with
  | nil => exact absurd rfl h
  | cons name names ih =>
    cases names with
    | nil =>
      rw [nestFields_singleton, Json.at?_cons, Json.at?_cons, Json.member?_object,
        Json.member?_object]
      cases hget : Dict.get? members name with
      | none =>
        rw [if_neg (by rw [Dict.contains, hget]; exact Bool.false_ne_true),
          Dict.get?_insert_self]
        exact Json.at?_nil _
      | some value =>
        rw [if_pos (by rw [Dict.contains, hget]; rfl), hget]
        show value.at? [] = some ((value.at? []).getD _)
        rw [Json.at?_nil]
        rfl
    | cons next names =>
      rw [nestFields_cons_cons, Json.at?_cons, Json.member?_object, Dict.get?_insert_self]
      rw [← at?_child members name (List.cons_ne_nil _ _)]
      exact ih (child members name) (List.cons_ne_nil _ _)

/-- Places beside a path stay as they are. -/
theorem at?_nest_apart (members : Dict Json) {names other : List String}
    (h : Apart names other) :
    (Json.object (nestFields members names)).at? other = (Json.object members).at? other := by
  induction names generalizing members other with
  | nil => exact absurd (List.nil_prefix) h.1
  | cons name names ih =>
    cases other with
    | nil => exact absurd (List.nil_prefix) h.2
    | cons first other =>
      by_cases hname : first = name
      -- the two lists part here, or go on apart below the same object
      · subst hname
        have hrest := h.tail
        cases names with
        | nil => exact absurd (List.nil_prefix) hrest.1
        | cons next names =>
          have hother : other ≠ [] := by
            rintro rfl
            exact hrest.2 List.nil_prefix
          rw [nestFields_cons_cons, Json.at?_cons, Json.member?_object, Dict.get?_insert_self,
            ← at?_child members first hother]
          exact ih (child members first) hrest
      · have hget : Dict.get? (nestFields members (name :: names)) first
            = Dict.get? members first := by
          cases names with
          | nil =>
            rw [nestFields_singleton]
            split
            · rfl
            · exact Dict.get?_insert_of_ne _ hname _
          | cons next names => exact Dict.get?_insert_of_ne _ hname _
        rw [Json.at?_cons, Json.at?_cons, Json.member?_object, Json.member?_object, hget]

/-! ### The selection of several paths -/

variable {paths : List (List String)}

/-- The selection of some paths of fields. -/
abbrev ofFields (paths : List (List String)) : Json := ofPaths (paths.map Path.ofFields)

theorem ofFields_concat (paths : List (List String)) (names : List String) :
    ofFields (paths ++ [names])
      = .object (nestFields (membersOf (paths.map Path.ofFields)) names) := by
  rw [ofFields, ofPaths, List.map_append, List.map_singleton, membersOf_append_singleton]
  rfl

/-- Every path has a field, and none leads through the end of another one. -/
structure Separate (paths : List (List String)) : Prop where
  ne_nil : ∀ names ∈ paths, names ≠ []
  eq_of_prefix : ∀ names ∈ paths, ∀ other ∈ paths, names <+: other → names = other

theorem Separate.of_subset {more : List (List String)} (h : Separate more)
    (hsub : ∀ names ∈ paths, names ∈ more) : Separate paths where
  ne_nil := fun names hmem => h.ne_nil names (hsub names hmem)
  eq_of_prefix := fun names hmem other hother =>
    h.eq_of_prefix names (hsub names hmem) other (hsub other hother)

theorem Separate.singleton {names : List String} (h : names ≠ []) : Separate [names] where
  ne_nil := by
    intro other hother
    rw [List.mem_singleton.1 hother]
    exact h
  eq_of_prefix := by
    intro other hother third hthird _
    rw [List.mem_singleton.1 hother, List.mem_singleton.1 hthird]

theorem Separate.apart (h : Separate paths) {names other : List String} (hnames : names ∈ paths)
    (hother : other ∈ paths) (hne : names ≠ other) : Apart names other :=
  ⟨fun hpre => hne (h.eq_of_prefix names hnames other hother hpre),
    fun hpre => hne (h.eq_of_prefix other hother names hnames hpre).symm⟩

/-- The end of every path holds `true`, and whatever else is reached lies on the way to one. -/
theorem at?_ofFields (h : Separate paths) :
    (∀ names ∈ paths, (ofFields paths).at? names = some (.bool true)) ∧
    ∀ names v, names ≠ [] → (ofFields paths).at? names = some v →
      ∃ path ∈ paths, names <+: path := by
  induction paths using List.reverseRecOn with
  | nil =>
    refine ⟨nofun, fun names v hnames hv => ?_⟩
    cases names with
    | nil => exact absurd rfl hnames
    | cons name names => cases hv
  | append_singleton paths last ih =>
    obtain ⟨hends, hways⟩ := ih (h.of_subset fun _ hn => List.mem_append_left _ hn)
    have hlast : last ∈ paths ++ [last] := List.mem_append_right _ (List.mem_singleton.2 rfl)
    have hself : (ofFields (paths ++ [last])).at? last = some (.bool true) := by
      rw [ofFields_concat, at?_nest_self _ (h.ne_nil last hlast)]
      cases hbefore : (Json.object (membersOf (paths.map Path.ofFields))).at? last with
      | none => rfl
      | some v =>
        obtain ⟨path, hpath, hpre⟩ := hways last v (h.ne_nil last hlast) hbefore
        have heq := h.eq_of_prefix last hlast path (List.mem_append_left _ hpath) hpre
        rw [show (Json.object _).at? last = _ from hends last (heq ▸ hpath)] at hbefore
        cases hbefore
        rfl
    constructor
    · intro names hnames
      by_cases heq : names = last
      · rw [heq, hself]
      · have hmem : names ∈ paths := by
          rcases List.mem_append.1 hnames with hmem | hmem
          · exact hmem
          · exact absurd (List.mem_singleton.1 hmem) heq
        rw [ofFields_concat, at?_nest_apart _ (h.apart hlast hnames (Ne.symm heq))]
        exact hends names hmem
    · intro names v hne hv
      by_cases hto : names <+: last
      · exact ⟨last, hlast, hto⟩
      by_cases hthrough : last <+: names
      · -- nothing lies below the end of a path
        obtain ⟨more, rfl⟩ := hthrough
        rw [Json.at?_append, hself] at hv
        cases more with
        | nil => exact absurd ⟨[], by rw [List.append_nil, List.append_nil]⟩ hto
        | cons name more => cases hv
      · rw [ofFields_concat, at?_nest_apart _ ⟨hthrough, hto⟩] at hv
        obtain ⟨path, hpath, hpre⟩ := hways names v hne hv
        exact ⟨path, List.mem_append_left _ hpath, hpre⟩

/-- **The selected places are the paths that were asked for.** -/
theorem selected_iff (h : Separate paths) (names : List String) :
    (ofFields paths).at? names = some (.bool true) ↔ names ∈ paths := by
  refine ⟨fun hnames => ?_, (at?_ofFields h).1 names⟩
  have hne : names ≠ [] := by
    rintro rfl
    cases (Json.at?_nil _).symm.trans hnames
  obtain ⟨path, hpath, more, rfl⟩ := (at?_ofFields h).2 names _ hne hnames
  cases more with
  | nil => exact (List.append_nil names) ▸ hpath
  | cons name more =>
    obtain ⟨members, hmembers⟩ :=
      Json.exists_object_of_at?_append ((at?_ofFields h).1 _ hpath) (List.cons_ne_nil _ _)
    cases hnames.symm.trans hmembers

end Selection

end GraphWalk
