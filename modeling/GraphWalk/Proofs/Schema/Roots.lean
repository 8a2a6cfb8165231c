import GraphWalk.Proofs.Dict.Entries
import GraphWalk.Schema.Build

/-!
# Root types

Every schema has the three root types.  One that a text does not declare is added without any
field; one that it does declare is left as it is, and so is every other type.

## Main results

* `Schema.get?_withRoots` — what is found when the roots have been added.
* `Schema.isSome_fields?_of_mem_rootTypes` — **every root is a type.**
-/

namespace GraphWalk

namespace Schema

/-- A root type is added as an empty one, unless it is there. -/
theorem get?_addRoots (roots : List String) (types : Dict FieldTable) (key : String) :
    Dict.get? (roots.foldl (fun types root =>
        if Dict.contains types root then types else Dict.insert types root []) types) key
      = (Dict.get? types key).or (if key ∈ roots then some [] else none) := by
  induction roots generalizing types with
  | nil => exact Option.or_none.symm
  | cons root roots ih =>
    rw [List.foldl_cons, ih]
    by_cases hkey : key = root
    · subst hkey
      rw [if_pos List.mem_cons_self]
      cases hget : Dict.get? types key with
      | none => simp [Dict.contains, hget]
      | some table => simp [Dict.contains, hget]
    · have hsame : Dict.get? (if Dict.contains types root then types
          else Dict.insert types root []) key = Dict.get? types key := by
        split
        · rfl
        · exact Dict.get?_insert_of_ne _ hkey _
      rw [hsame]
      simp only [List.mem_cons, hkey, false_or]

theorem ascending_addRoots (roots : List String) {types : Dict FieldTable}
    (h : Dict.Ascending types) :
    Dict.Ascending (roots.foldl (fun types root =>
      if Dict.contains types root then types else Dict.insert types root []) types) := by
  induction roots generalizing types with
  | nil => exact h
  | cons root roots ih =>
    rw [List.foldl_cons]
    split
    · exact ih h
    · exact ih (Dict.ascending_insert h _ _)

/-- What is found when the roots have been added. -/
theorem get?_withRoots (types : Dict FieldTable) (key : String) :
    Dict.get? (withRoots types) key
      = (Dict.get? types key).or (if key ∈ rootTypes then some [] else none) :=
  get?_addRoots rootTypes types key

/-- A root type that is added has no fields. -/
theorem of_get?_withRoots {types : Dict FieldTable} {type : String} {table : FieldTable}
    (h : Dict.get? (withRoots types) type = some table) :
    type ∈ rootTypes ∧ table = [] ∨ Dict.get? types type = some table := by
  rw [get?_withRoots, Option.or_eq_some_iff] at h
  rcases h with h | ⟨-, h⟩
  · exact .inr h
  · simp only [Option.ite_none_right_eq_some, Option.some.injEq] at h
    exact .inl ⟨h.1, h.2.symm⟩

/-- **Every root is a type.** -/
theorem isSome_fields?_of_mem_rootTypes {root : String} (h : root ∈ rootTypes) (d : Declarations) :
    ((ofDeclarations d).fields? root).isSome = true := by
  rw [fields?, ofDeclarations, get?_withRoots, if_pos h, Option.isSome_or, Option.isSome_some,
    Bool.or_true]

/-- A declared type is a type. -/
theorem isSome_fields?_of_declaresType {d : Declarations} {name : String}
    (h : d.declaresType name = true) : ((ofDeclarations d).fields? name).isSome = true := by
  rw [Declarations.declaresType, List.any_eq_true] at h
  obtain ⟨type, htype, hname⟩ := h
  rw [fields?, ofDeclarations, get?_withRoots, Option.isSome_or, Bool.or_eq_true]
  left
  rw [Option.isSome_iff_ne_none, ne_eq, Dict.get?_ofList_eq_none_iff, not_not, Dict.keys,
    List.map_map]
  exact List.mem_map.2 ⟨type, htype, beq_iff_eq.1 hname⟩

end Schema

end GraphWalk
