import GraphWalk.Proofs.Schema.FieldNames

/-!
# The names in the tables of a schema

Whatever a text declares is named by a word or by a name: at least one character, and never
the separator of keys.  So every name under which a schema that was read from a text keeps
something, be it a type, a field, an argument, an alias or a scalar, stands for itself in a key.

## Main definitions

* `Schema.HasName` — the names in the tables of a schema.

## Main results

* `Schema.isKeyName_of_hasName` — **every name in the tables of a schema stands for itself in a
  key.**
-/

namespace GraphWalk

open GraphWalk.Path (IsKeyName)

/-! ### Words -/

namespace Declaration

open Text

variable {α : Type} {cs rest : List Char} {keyword name : String}

/-- What is found by a scan was read from some part of the text. -/
theorem Recogniser.exists_read?_of_mem_scan (r : Recogniser α) {inWord : Bool} {found : α}
    (h : found ∈ r.scan inWord cs) : ∃ text rest, r.read? text = some (found, rest) := by
  fun_induction r.scan inWord cs with
  | case1 inWord => cases h
  | case2 c cs ih => exact ih h
  | case3 inWord c cs hnot first left hread hlen ih =>
    rcases List.mem_cons.1 h with rfl | h
    · exact ⟨_, left, hread⟩
    · exact ih h
  | case4 inWord c cs hnot hread ih => exact ih h

/-- A word has a character, and the separator is not among its characters. -/
theorem isKeyName_of_word? (h : word? cs = some (name, rest)) : IsKeyName name := by
  simp only [word?, Option.ite_none_left_eq_some, Option.some.injEq, Prod.mk.injEq] at h
  obtain ⟨hword, rfl, -⟩ := h
  refine ⟨?_, fun hmem => ?_⟩
  · rw [ne_eq, ← String.toList_eq_nil_iff, String.toList_ofList, ← List.isEmpty_iff]
    exact hword
  · rw [String.toList_ofList] at hmem
    have hchar := List.mem_takeWhile_imp hmem
    rw [isWord_of_ascii (by decide)] at hchar
    exact absurd hchar (by decide)

theorem isKeyName_of_named? (h : named? keyword cs = some (name, rest)) : IsKeyName name := by
  obtain ⟨after, -, hword⟩ := Option.bind_eq_some_iff.1 h
  exact isKeyName_of_word? hword

theorem isKeyName_of_objectType? {body : List Char}
    (h : objectType? cs = some ((name, body), rest)) : IsKeyName name := by
  simp only [objectType?, Option.bind_eq_some_iff, Option.map_eq_some_iff] at h
  obtain ⟨⟨found, _⟩, hnamed, _, _, ⟨_, _⟩, _, heq⟩ := h
  obtain ⟨_, _, hkeyword⟩ := List.exists_of_findSome?_eq_some hnamed
  cases heq
  exact isKeyName_of_named? hkeyword

theorem isKeyName_of_enum? (h : enum? cs = some (name, rest)) : IsKeyName name := by
  simp only [enum?, Option.bind_eq_some_iff, Option.map_eq_some_iff] at h
  obtain ⟨⟨found, _⟩, hnamed, _, _, heq⟩ := h
  cases heq
  exact isKeyName_of_named? hnamed

theorem isKeyName_of_union? {first : String} (h : union? cs = some ((name, first), rest)) :
    IsKeyName name := by
  simp only [union?, Option.bind_eq_some_iff, Option.map_eq_some_iff] at h
  obtain ⟨⟨found, _⟩, hnamed, _, _, ⟨_, _⟩, _, heq⟩ := h
  cases heq
  exact isKeyName_of_named? hnamed

end Declaration

/-! ### Fields and arguments -/

namespace FieldDecl

theorem isKeyName_of_mem_read {cs : List Char} {decl : FieldDecl} (h : decl ∈ read cs) :
    IsKeyName decl.name := by
  obtain ⟨c, rest, inner, hitem, -⟩ := exists_item_of_mem_read h
  exact ⟨(name_of_item hitem).1, (isNamed_of_mem_read h).isPlain⟩

end FieldDecl

/-! ### The tables -/

namespace Schema

open Declaration (objectTypes enums unions isKeyName_of_objectType? isKeyName_of_union?
  isKeyName_of_enum? isKeyName_of_named?)

variable {s : Schema} {text name : String}

/-- The names in the tables of a schema. -/
inductive HasName (s : Schema) : String → Prop
  /-- A type. -/
  | type {name : String} {table : FieldTable} (h : s.fields? name = some table) : HasName s name
  /-- A field of a type. -/
  | field {type name : String} {spec : FieldSpec} (h : s.field? type name = some spec) :
      HasName s name
  /-- An argument of a field. -/
  | argument {type field name : String} {arguments : Dict FieldSpec} {returns argument : FieldSpec}
      (h : s.field? type field = some (.callable arguments returns))
      (hargument : Dict.get? arguments name = some argument) : HasName s name
  /-- An enum or a union. -/
  | aliased {name target : String} (h : s.alias? name = some target) : HasName s name
  /-- A declared scalar. -/
  | scalar {name : String} (h : Dict.get? s.scalars name = some ()) : HasName s name

theorem isKeyName_of_mem_rootTypes : ∀ name ∈ rootTypes, IsKeyName name := by decide

theorem isKeyName_of_fields? {table : FieldTable} (h : (ofText text).fields? name = some table) :
    IsKeyName name := by
  rcases of_get?_withRoots h with ⟨hroot, -⟩ | h
  · exact isKeyName_of_mem_rootTypes _ hroot
  · obtain ⟨entry, hentry, heq⟩ := List.mem_map.1 (Dict.mem_of_get?_ofList h)
    obtain ⟨declared, hdeclared, rfl⟩ := List.mem_map.1 hentry
    cases heq
    obtain ⟨_, _, hread⟩ := objectTypes.exists_read?_of_mem_scan hdeclared
    exact isKeyName_of_objectType? hread

theorem isKeyName_of_alias? {target : String} (h : (ofText text).alias? name = some target) :
    IsKeyName name := by
  rcases Dict.exists_of_get?_foldl_insert h with ⟨union, hunion, rfl⟩ | h
  · obtain ⟨_, _, hread⟩ := unions.exists_read?_of_mem_scan hunion
    exact isKeyName_of_union? hread
  · rcases Dict.exists_of_get?_foldl_insert h with ⟨enum, henum, rfl⟩ | h
    · obtain ⟨_, _, hread⟩ := enums.exists_read?_of_mem_scan henum
      exact isKeyName_of_enum? hread
    · cases h

theorem isKeyName_of_scalar (h : Dict.get? (ofText text).scalars name = some ()) :
    IsKeyName name := by
  obtain ⟨scalar, hscalar, heq⟩ := List.mem_map.1 (Dict.mem_of_get?_ofList h)
  cases heq
  obtain ⟨_, _, hread⟩ := Declaration.scalars.exists_read?_of_mem_scan hscalar
  exact isKeyName_of_named? hread

/-- **Every name in the tables of a schema that was read from a text stands for itself in a
key.** -/
theorem isKeyName_of_hasName (h : (ofText text).HasName name) : IsKeyName name := by
  cases h with
  | type h => exact isKeyName_of_fields? h
  | field h =>
    obtain ⟨body, decl, hdecl, rfl, -⟩ := exists_decl_of_field? h
    exact FieldDecl.isKeyName_of_mem_read hdecl
  | argument h hargument =>
    obtain ⟨body, decl, hdecl, -, hspec⟩ := exists_decl_of_field? h
    obtain ⟨c, rest, inner, -, harguments⟩ := FieldDecl.exists_item_of_mem_read hdecl
    obtain ⟨declared, hdeclared, rfl, -⟩ := Names.exists_of_fieldSpec_eq_callable hspec
    obtain ⟨found, hfound, heq⟩ := List.mem_map.1 (Dict.mem_of_get?_ofList hargument)
    cases heq
    obtain ⟨cs, -, rfl⟩ := Option.map_eq_some_iff.1 (harguments.symm.trans hdeclared)
    exact FieldDecl.isKeyName_of_mem_read hfound
  | aliased h => exact isKeyName_of_alias? h
  | scalar h => exact isKeyName_of_scalar h

end Schema

end GraphWalk
