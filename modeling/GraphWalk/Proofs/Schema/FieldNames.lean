import Mathlib.Data.List.TakeWhile
import GraphWalk.Proofs.Path.Keys
import GraphWalk.Proofs.Schema.Roots
import GraphWalk.Schema.Classify

/-!
# The names of fields

The fields of a schema that was read from a text have names as the reader takes them:
letters, numbers and underscores.  The separator of keys is none of these, so the fields
of a leaf can be told from its key.

## Main results

* `FieldDecl.isNamed_of_mem_read` — what the name of a declared field is made of.
* `Schema.field_of_follow` — every step to a leaf is a field of the schema.
* `Schema.LeadsToLeaf.plain` — no step to a leaf has a separator in its name.
-/

namespace GraphWalk

/-! ### Declared fields -/

namespace FieldDecl

open Text

/-- The name is made of the characters of names. -/
def IsNamed (decl : FieldDecl) : Prop := ∀ c ∈ decl.name.toList, isName c = true

/-- The name of a field that stands at the front of a text has a character, and none but those of
names. -/
theorem name_of_item {c : Char} {cs : List Char} {name : String} {arguments : Option (List Char)}
    {type : TypeUse} (h : (item c cs).1 = .field name arguments type) :
    name ≠ "" ∧ ∀ d ∈ name.toList, isName d = true := by
  simp only [item] at h
  split at h
  · cases h
  · next hname =>
    split at h
    · split at h
      · cases h
        rw [ne_eq, ← String.toList_eq_nil_iff, String.toList_ofList, ← List.isEmpty_iff, spanName]
        exact ⟨hname, fun d hd => List.mem_takeWhile_imp hd⟩
      · cases h
    · cases h

/-- What is read stood at the front of some part of the text, and its arguments are read as fields
are. -/
theorem exists_item_of_mem_readAll {cs : List Char} {decl : FieldDecl} (h : decl ∈ readAll cs) :
    ∃ c rest inner, (item c rest).1 = .field decl.name inner decl.type ∧
      decl.arguments = inner.map read := by
  fun_induction readAll cs with
  | case1 cs htrivia => cases h
  | case2 cs c rest htrivia hafter hitem ih => exact ih h
  | case3 cs c rest htrivia hafter name type hitem ih =>
    rcases List.mem_cons.1 h with rfl | h
    · exact ⟨c, rest, none, hitem, rfl⟩
    · exact ih h
  | case4 cs c rest htrivia hafter name inner type hitem hinner ih₁ ih₂ =>
    rcases List.mem_cons.1 h with rfl | h
    · exact ⟨c, rest, some inner, hitem, rfl⟩
    · exact ih₂ h

/-- A declaration is put there itself, or was there. -/
theorem mem_of_mem_put {decls : List FieldDecl} {added decl : FieldDecl}
    (h : decl ∈ put decls added) : decl = added ∨ decl ∈ decls := by
  unfold put at h
  split at h
  · obtain ⟨old, hold, rfl⟩ := List.mem_map.1 h
    split
    · exact .inl rfl
    · exact .inr hold
  · rcases List.mem_append.1 h with h | h
    · exact .inr h
    · exact .inl (List.mem_singleton.1 h)

theorem mem_of_mem_foldl_put {added decls : List FieldDecl} {decl : FieldDecl}
    (h : decl ∈ added.foldl put decls) : decl ∈ added ∨ decl ∈ decls := by
  induction added generalizing decls with
  | nil => exact .inr h
  | cons first added ih =>
    rcases ih h with h | h
    · exact .inl (List.mem_cons_of_mem _ h)
    · rcases mem_of_mem_put h with rfl | h
      · exact .inl List.mem_cons_self
      · exact .inr h

theorem exists_item_of_mem_read {cs : List Char} {decl : FieldDecl} (h : decl ∈ read cs) :
    ∃ c rest inner, (item c rest).1 = .field decl.name inner decl.type ∧
      decl.arguments = inner.map read :=
  exists_item_of_mem_readAll ((mem_of_mem_foldl_put h).resolve_right List.not_mem_nil)

/-- Declared fields are named. -/
theorem isNamed_of_mem_read {cs : List Char} {decl : FieldDecl} (h : decl ∈ read cs) :
    decl.IsNamed := by
  obtain ⟨c, rest, inner, hitem, -⟩ := exists_item_of_mem_read h
  exact (name_of_item hitem).2

/-- The separator of keys stands in no name. -/
theorem IsNamed.isPlain {decl : FieldDecl} (h : decl.IsNamed) : Path.IsPlain decl.name := by
  intro hmem
  have hname := h _ hmem
  rw [isName_of_ascii (by decide)] at hname
  exact absurd hname (by decide)

end FieldDecl

/-! ### The fields of a schema -/

namespace Schema

variable {text : String}

/-- A field of a schema that was read from a text was declared in the body of a type. -/
theorem exists_decl_of_field? {type field : String} {spec : FieldSpec}
    (h : (ofText text).field? type field = some spec) :
    ∃ (body : List Char) (decl : FieldDecl), decl ∈ FieldDecl.read body ∧ decl.name = field ∧
      (Names.ofDeclarations (.ofChars (strip text.toList))).fieldSpec decl = spec := by
  obtain ⟨table, htable, hfield⟩ := Option.bind_eq_some_iff.1 h
  rcases of_get?_withRoots htable with ⟨-, rfl⟩ | htable
  · cases hfield
  · obtain ⟨entry, hentry, heq⟩ := List.mem_map.1 (Dict.mem_of_get?_ofList htable)
    obtain ⟨declared, hdeclared, rfl⟩ := List.mem_map.1 hentry
    cases heq
    obtain ⟨decl, hdecl, heq⟩ := List.mem_map.1 (Dict.mem_of_get?_ofList hfield)
    cases heq
    exact ⟨declared.2, decl, hdecl, rfl, rfl⟩

/-- The fields of a schema that was read from a text have plain names. -/
theorem plain_of_field? {type field : String} {spec : FieldSpec}
    (h : (ofText text).field? type field = some spec) : Path.IsPlain field := by
  obtain ⟨body, decl, hdecl, rfl, -⟩ := exists_decl_of_field? h
  exact (FieldDecl.isNamed_of_mem_read hdecl).isPlain

/-! ### Steps to a leaf -/

/-- Every step to a leaf is a field of some type, as long as the way does not lead through another
leaf. -/
theorem field_of_follow {s : Schema} {type : TypeRef} {names : List String} {leaf : TypeRef}
    (h : s.follow type names = some leaf)
    (hproper : ∀ init more found, names = init ++ more → init ≠ [] → more ≠ [] →
      s.follow type init = some found → found.isLeaf = false) :
    ∀ name ∈ names, ∃ owner spec, s.field? owner name = some spec := by
  induction names generalizing type with
  | nil => exact nofun
  | cons name names ih =>
    obtain ⟨spec, hspec, -⟩ := Option.bind_eq_some_iff.1 (follow_cons s type name names ▸ h)
    refine List.forall_mem_cons.2 ⟨⟨type.name, spec, hspec⟩, ?_⟩
    have hgo : ∀ rest, s.follow type (name :: rest)
        = if spec.outputType.isLeaf then some spec.outputType
          else s.follow spec.outputType rest := by
      intro rest
      rw [follow_cons, hspec, Option.bind_some]
    cases hleaf : spec.outputType.isLeaf with
    | true =>
      -- the way ends here, since a scalar would be a leaf on it
      cases names with
      | nil => exact nofun
      | cons next names =>
        have hfollow : s.follow type [name] = some spec.outputType := by
          rw [hgo, if_pos hleaf]
        have hnot := hproper [name] _ _ rfl (List.cons_ne_nil _ _) (List.cons_ne_nil _ _) hfollow
        rw [hleaf] at hnot
        cases hnot
    | false =>
      simp only [hleaf, Bool.false_eq_true, if_false] at hgo
      refine ih ((hgo names).symm.trans h) ?_
      intro init more found hsplit hinit hmore hfound
      refine hproper (name :: init) more found (congrArg _ hsplit) (List.cons_ne_nil _ _) hmore ?_
      rw [hgo]
      exact hfound

/-- A way to a leaf that leads through no other leaf. -/
structure LeadsToLeaf (s : Schema) (names : List String) : Prop where
  leaf : s.isLeaf? (.ofFields names) = some true
  proper : ∀ init more, names = init ++ more → more ≠ [] → s.isLeaf? (.ofFields init) ≠ some true

theorem isLeaf?_ofFields (s : Schema) (names : List String) :
    s.isLeaf? (.ofFields names) = (s.follow (.object entryType) names).map TypeRef.isLeaf := by
  rw [isLeaf?, resolve, Path.fields_ofFields]

/-- The root is no leaf. -/
theorem LeadsToLeaf.ne_nil {s : Schema} {names : List String} (h : s.LeadsToLeaf names) :
    names ≠ [] := by
  rintro rfl
  have hleaf := h.leaf
  rw [isLeaf?_ofFields] at hleaf
  cases hleaf

/-- No step to a leaf has a separator in its name. -/
theorem LeadsToLeaf.plain {names : List String} (h : (ofText text).LeadsToLeaf names) :
    ∀ name ∈ names, Path.IsPlain name := by
  have hleaf := h.leaf
  rw [isLeaf?_ofFields, Option.map_eq_some_iff] at hleaf
  obtain ⟨leaf, hfollow, -⟩ := hleaf
  have hfields := field_of_follow hfollow fun init more found hsplit _ hmore hfound => by
    have hnot := h.proper init more hsplit hmore
    rw [isLeaf?_ofFields, hfound, Option.map_some, ne_eq, Option.some.injEq] at hnot
    exact Bool.eq_false_iff.2 hnot
  intro name hname
  obtain ⟨owner, spec, hspec⟩ := hfields name hname
  exact plain_of_field? hspec

end Schema

end GraphWalk
