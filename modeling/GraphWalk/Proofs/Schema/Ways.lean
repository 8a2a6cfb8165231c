import Mathlib.Data.List.Basic
import GraphWalk.Schema.Classify

/-!
# Following a path step by step

A path is always followed from the root.  It could as well be followed from where a part of it
has led already: a leaf is not left any more, a way that is lost stays lost, and from an object
or a list the next field is looked up in the table of its type.  So a way is lost only at a
field that the type reached so far lacks.

## Main definitions

* `Schema.goOn` — where some fields lead from a place, which may be a leaf.
* `Schema.Reaches` — a path leads to an object of a type, or to a list of them.

## Main results

* `Schema.goOn_append` — fields are followed one part after the other.
* `Schema.goOn_eq_none_iff` — a way is lost only at a field that is lacking.
* `Schema.resolve_append` — **a path is followed from where its beginning leads.**
* `Schema.resolve_compositional` — **where a path leads is told step by step.**
-/

namespace GraphWalk

namespace Schema

variable {s : Schema} {path : Path} {type : TypeRef} {names more : List String}

/-- Where some fields lead from a place.  Nothing leads away from a leaf. -/
def goOn (s : Schema) (type : TypeRef) (names : List String) : Option TypeRef :=
  if type.isLeaf then some type else s.follow type names

theorem goOn_of_leaf (h : type.isLeaf = true) (names : List String) :
    s.goOn type names = some type := by
  rw [goOn, if_pos h]

theorem goOn_of_not_leaf (h : type.isLeaf = false) (names : List String) :
    s.goOn type names = s.follow type names := by
  rw [goOn, h, if_neg Bool.false_ne_true]

@[simp] theorem goOn_nil (s : Schema) (type : TypeRef) : s.goOn type [] = some type := by
  simp [goOn]

/-- The next field is looked up in the table of the type. -/
theorem goOn_cons (h : type.isLeaf = false) (name : String) (names : List String) :
    s.goOn type (name :: names)
      = (s.field? type.name name).bind fun spec => s.goOn spec.outputType names := by
  rw [goOn_of_not_leaf h, follow_cons]
  rfl

/-- **Fields are followed one part after the other.** -/
theorem goOn_append (s : Schema) (type : TypeRef) (names more : List String) :
    s.goOn type (names ++ more) = (s.goOn type names).bind fun found => s.goOn found more := by
  induction names generalizing type with
  | nil => simp
  | cons name names ih =>
    cases hleaf : type.isLeaf with
    | true => simp [goOn_of_leaf hleaf]
    | false =>
      rw [List.cons_append, goOn_cons hleaf, goOn_cons hleaf, Option.bind_assoc]
      congr 1
      funext spec
      exact ih spec.outputType

/-- **A way is lost only at a field that the type reached so far lacks.** -/
theorem goOn_eq_none_iff : s.goOn type names = none ↔
    ∃ init name more found, names = init ++ name :: more ∧ s.goOn type init = some found ∧
      found.isLeaf = false ∧ s.field? found.name name = none := by
  constructor
  · intro h
    induction names generalizing type with
    | nil => simp at h
    | cons name names ih =>
      cases hleaf : type.isLeaf with
      | true => simp [goOn_of_leaf hleaf] at h
      | false =>
        rw [goOn_cons hleaf, Option.bind_eq_none_iff] at h
        cases hspec : s.field? type.name name with
        | none => exact ⟨[], name, names, type, rfl, goOn_nil s type, hleaf, hspec⟩
        | some spec =>
          obtain ⟨init, next, more, found, rfl, hfound, hrest⟩ := ih (h spec hspec)
          refine ⟨name :: init, next, more, found, rfl, ?_, hrest⟩
          rw [goOn_cons hleaf, hspec, Option.bind_some, hfound]
  · rintro ⟨init, name, more, found, rfl, hfound, hleaf, hlacks⟩
    rw [goOn_append, hfound, Option.bind_some, goOn_cons hleaf, hlacks, Option.bind_none]

/-! ### Paths -/

theorem resolve_eq_goOn (s : Schema) (path : Path) :
    s.resolve path = s.goOn (.object entryType) path.fields := by
  rw [resolve, goOn_of_not_leaf (TypeRef.isLeaf_object entryType)]

/-- **A path is followed from where its beginning leads.** -/
theorem resolve_append (s : Schema) (path : Path) (steps : List Step) :
    s.resolve ⟨path.steps ++ steps⟩
      = (s.resolve path).bind fun type => s.goOn type (steps.filterMap Step.name?) := by
  rw [resolve_eq_goOn, resolve_eq_goOn, ← goOn_append, Path.fields, List.filterMap_append,
    Path.fields]

/-- Arguments among the steps of a path are no fields. -/
theorem fields_among (before behind : List Step) (args : List (Dict Json)) :
    (⟨before ++ args.map .arguments ++ behind⟩ : Path).fields
      = (⟨before ++ behind⟩ : Path).fields := by
  have hnone : (args.map Step.arguments).filterMap Step.name? = [] := by
    simp [List.filterMap_map, Function.comp_def]
  simp only [Path.fields, List.filterMap_append, hnone, List.append_nil]

/-- The path leads to an object of a type, or to a list of them. -/
def Reaches (s : Schema) (path : Path) (name : String) : Prop :=
  s.resolve path = some (.object name) ∨ s.resolve path = some (.list name)

theorem reaches_iff {name : String} :
    s.Reaches path name
      ↔ ∃ type, s.resolve path = some type ∧ type.isLeaf = false ∧ type.name = name := by
  constructor
  · rintro (h | h)
    · exact ⟨.object name, h, rfl, rfl⟩
    · exact ⟨.list name, h, rfl, rfl⟩
  · rintro ⟨type, h, hleaf, rfl⟩
    cases type with
    | scalar name => cases hleaf
    | object name => exact .inl h
    | list name => exact .inr h

/-- From an object or a list a field leads where the field leads that its type keeps under the
name. -/
theorem Reaches.resolve_withField {name : String} (h : s.Reaches path name) (field : String) :
    s.resolve (path.withField field) = (s.field? name field).map FieldSpec.outputType := by
  obtain ⟨type, htype, hleaf, rfl⟩ := reaches_iff.1 h
  rw [Path.withField, resolve_append, htype, Option.bind_some]
  show s.goOn type [field] = _
  rw [goOn_cons hleaf, Option.map_eq_bind]
  congr 1
  funext spec
  exact goOn_nil s spec.outputType

/-- A way is lost at a field that is lacking, and nowhere else. -/
theorem resolve_eq_none_iff : s.resolve path = none ↔
    ∃ init field more name, path.fields = init ++ field :: more ∧
      s.Reaches (.ofFields init) name ∧ s.field? name field = none := by
  have hinit : ∀ init, s.resolve (.ofFields init) = s.goOn (.object entryType) init := by
    intro init
    rw [resolve_eq_goOn, Path.fields_ofFields]
  simp only [reaches_iff, hinit]
  rw [resolve_eq_goOn, goOn_eq_none_iff]
  constructor
  · rintro ⟨init, field, more, type, hsplit, htype, hleaf, hlacks⟩
    exact ⟨init, field, more, type.name, hsplit, ⟨type, htype, hleaf, rfl⟩, hlacks⟩
  · rintro ⟨init, field, more, name, hsplit, ⟨type, htype, hleaf, rfl⟩, hlacks⟩
    exact ⟨init, field, more, type, hsplit, htype, hleaf, hlacks⟩

/-- **Where a path leads is told step by step.**

Arguments do not count, wherever they are put in or taken out.  Everything behind a scalar leads to
this scalar, and everything behind a path that leads nowhere leads nowhere.  Behind an object of a
type, or a list of them, a field leads to what the table of the type has under its name comes to,
and nowhere exactly if the table lacks it.  So a path leads nowhere exactly if one of its fields is
lacking in the type that is reached before it, and before any scalar. -/
theorem resolve_compositional (s : Schema) (path : Path) :
    (∀ before behind, path.steps = before ++ behind → ∀ args : List (Dict Json),
      s.resolve ⟨before ++ args.map .arguments ++ behind⟩ = s.resolve path) ∧
    (∀ name, s.resolve path = some (.scalar name) →
      ∀ steps, s.resolve ⟨path.steps ++ steps⟩ = some (.scalar name)) ∧
    (s.resolve path = none → ∀ steps, s.resolve ⟨path.steps ++ steps⟩ = none) ∧
    (∀ name, s.Reaches path name → ∀ field,
      (s.resolve (path.withField field) = none ↔ s.field? name field = none) ∧
      ∀ spec, s.field? name field = some spec →
        (s.resolve (path.withField field)).map TypeRef.spec = some spec.output) ∧
    (s.resolve path = none ↔ ∃ init field more name, path.fields = init ++ field :: more ∧
      s.Reaches (.ofFields init) name ∧ s.field? name field = none) := by
  refine ⟨?_, ?_, ?_, ?_, resolve_eq_none_iff⟩
  · intro before behind hsplit args
    obtain ⟨steps⟩ := path
    obtain rfl : steps = before ++ behind := hsplit
    rw [resolve_eq_goOn, resolve_eq_goOn, fields_among]
  · intro name hscalar steps
    rw [resolve_append, hscalar, Option.bind_some, goOn_of_leaf (TypeRef.isLeaf_scalar name)]
  · intro hnone steps
    rw [resolve_append, hnone, Option.bind_none]
  · intro name hreaches field
    rw [hreaches.resolve_withField]
    refine ⟨Option.map_eq_none_iff, ?_⟩
    intro spec hspec
    rw [hspec, Option.map_some, Option.map_some, spec.spec_outputType]

end Schema

end GraphWalk
