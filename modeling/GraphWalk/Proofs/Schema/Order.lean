import GraphWalk.Proofs.Schema.Losses

/-!
# The order of definitions

A schema is resolved in phases: scalars, enums, unions, and at last the fields.  Each phase
looks up what the earlier ones have stored, so the order of definitions of different kinds
does not matter.  Unions are the exception.  They are resolved one after the other, and one
that has another as its first alternative finds it only if that one stands before it.

## Main definitions

* `resolveUnions` — one union after another is given its meaning.

## Main results

* `ofDeclarations_perm` — the aliases alone may depend on the order.
* `get?_aliases_union` — what a union stands for is told from those before it.
* `Chained.exists_orders` — a union of a union stands for one thing in one order and for another
  in another.
* `ofText_perm_iff` — **the order does not matter exactly when no union is chained.**
-/

namespace GraphWalk

namespace SchemaSyntax

open Declaration

variable {definitions others : List Definition} {text : String} {name first target : String}

/-- The aliases of some definitions. -/
def aliasesOf (definitions : List Definition) : Dict String :=
  (Names.ofDeclarations (declarationsOf definitions)).aliases

/-- One union after another is given its meaning. -/
def resolveUnions (definitions : List Definition) (aliases : Dict String)
    (unions : List (String × String)) : Dict String :=
  unions.foldl (fun aliases (name, first) =>
    Dict.insert aliases name (Names.unionAlias (declarationsOf definitions) aliases first)) aliases

theorem aliasesOf_eq (definitions : List Definition) :
    aliasesOf definitions = resolveUnions definitions
      (Names.enumAliases (definitions.filterMap Definition.enum?))
      (definitions.filterMap Definition.union?) := rfl

section Perm

variable (hdistinct : (definitions.map Definition.name).Nodup) (hperm : definitions.Perm others)

include hdistinct hperm

/-- **The aliases alone may depend on the order.** -/
theorem ofDeclarations_perm (haliases : aliasesOf definitions = aliasesOf others) :
    Schema.ofDeclarations (declarationsOf definitions)
      = Schema.ofDeclarations (declarationsOf others) := by
  have hscalars := ofList_kind_perm hdistinct hperm name_of_scalar? fun _ => ()
  have hnames : Names.ofDeclarations (declarationsOf definitions)
      = Names.ofDeclarations (declarationsOf others) :=
    (Names.mk.injEq ..).mpr ⟨haliases, hscalars⟩
  have htypes := ofList_kind_perm hdistinct hperm name_of_declared? fun x =>
    (Names.ofDeclarations (declarationsOf others)).fieldTable x.2
  refine (Schema.mk.injEq ..).mpr ⟨congrArg Schema.withRoots ?_, haliases, hscalars⟩
  rw [hnames]
  exact htypes

/-- Aliases depend on the order of unions only. -/
theorem aliasesOf_eq_of_unions
    (hunions : definitions.filterMap Definition.union? = others.filterMap Definition.union?) :
    aliasesOf definitions = aliasesOf others := by
  have hothers : (others.map Definition.name).Nodup := (hperm.map _).nodup_iff.1 hdistinct
  have henums := ofList_kind_perm hdistinct hperm name_of_enum? fun _ => Schema.textScalar
  have hdeclares : (declarationsOf definitions).declaresType
      = (declarationsOf others).declaresType := by
    funext name
    rw [declaresType_eq hdistinct, declaresType_eq hothers, definesObject_perm hdistinct hperm]
  rw [aliasesOf_eq, aliasesOf_eq, enumAliases_eq, enumAliases_eq, henums, hunions]
  unfold resolveUnions Names.unionAlias
  rw [hdeclares]

theorem Chained.perm (h : Chained definitions) : Chained others := by
  obtain ⟨name, first, target, hunion, hother, hobject, htext⟩ := h
  have hunions : definitions.filterMap Definition.union? ⊆ others.filterMap Definition.union? :=
    (hperm.filterMap _).subset
  exact ⟨name, first, target, hunions hunion, hunions hother,
    definesObject_perm hdistinct hperm ▸ hobject, htext⟩

/-- Without chained unions aliases do not depend on the order. -/
theorem aliasesOf_perm (hchained : ¬ Chained definitions) :
    aliasesOf definitions = aliasesOf others := by
  have hothers : (others.map Definition.name).Nodup := (hperm.map _).nodup_iff.1 hdistinct
  have hchained' : ¬ Chained others := fun h => hchained (h.perm hothers hperm.symm)
  have hmeant := congrArg Schema.aliases (schemaOf_perm hdistinct hperm)
  rw [← aliases_eq hdistinct hchained, ← aliases_eq hothers hchained'] at hmeant
  exact hmeant

end Perm

/-! ### The turn of a union -/

theorem get?_resolveUnions_of_ne {aliases : Dict String} {unions : List (String × String)}
    (h : ∀ u ∈ unions, u.1 ≠ name) :
    Dict.get? (resolveUnions definitions aliases unions) name = Dict.get? aliases name := by
  induction unions generalizing aliases with
  | nil => rfl
  | cons u unions ih =>
    obtain ⟨hu, hunions⟩ := List.forall_mem_cons.1 h
    exact (ih hunions).trans (Dict.get?_insert_of_ne _ hu.symm _)

/-- **What a union stands for is told from those before it.** -/
theorem get?_aliases_union (hdistinct : (definitions.map Definition.name).Nodup)
    (before : List (String × String)) {behind : List (String × String)}
    (hsplit : definitions.filterMap Definition.union? = before ++ (name, first) :: behind) :
    Dict.get? (aliasesOf definitions) name
      = some (Names.unionAlias (declarationsOf definitions) (resolveUnions definitions
          (Names.enumAliases (definitions.filterMap Definition.enum?)) before) first) := by
  have hnodup := nodup_keys_kind name_of_union? Prod.snd hdistinct
  rw [hsplit] at hnodup
  have hbehind : ∀ u ∈ behind, u.1 ≠ name := by
    rw [Dict.keys, List.map_map, List.map_append, List.map_cons, List.nodup_append] at hnodup
    rintro u hu rfl
    exact (List.nodup_cons.1 hnodup.2.1).1 (List.mem_map.2 ⟨u, hu, rfl⟩)
  rw [aliasesOf_eq, hsplit, resolveUnions, List.foldl_append, List.foldl_cons]
  exact (get?_resolveUnions_of_ne hbehind).trans (Dict.get?_insert_self _ _ _)

/-- What is defined as a union is not defined as a type with fields. -/
theorem not_definesObject_of_union (hdistinct : (definitions.map Definition.name).Nodup)
    {union : String × String} (h : union ∈ definitions.filterMap Definition.union?) :
    definesObject definitions union.1 = false := by
  obtain ⟨d, hd, hunion⟩ := List.mem_filterMap.1 h
  have hname := name_of_union? d union hunion
  rw [definesObject, (definitionOf?_eq_some_iff hdistinct).2 ⟨hd, hname.symm⟩, Option.any_some]
  cases d with
  | object kind name interfaces fields => cases hunion
  | _ => rfl

/-- A union that stands before its first alternative, another union, is one for text. -/
theorem get?_aliases_of_before (hdistinct : (definitions.map Definition.name).Nodup)
    {behind : List (String × String)}
    (hsplit : definitions.filterMap Definition.union? = (name, first) :: behind)
    (hother : (first, target) ∈ definitions.filterMap Definition.union?) :
    Dict.get? (aliasesOf definitions) name = some Schema.textScalar := by
  rw [get?_aliases_union hdistinct [] hsplit, resolveUnions, List.foldl_nil,
    unionAlias_eq hdistinct (getD_enumAliases hdistinct first), unionTarget,
    not_definesObject_of_union hdistinct hother, if_neg Bool.false_ne_true]

/-- Behind it, it is one for what the other stands for. -/
theorem get?_aliases_of_behind (hdistinct : (definitions.map Definition.name).Nodup)
    {behind : List (String × String)}
    (hsplit : definitions.filterMap Definition.union? = (first, target) :: (name, first) :: behind)
    (hobject : definesObject definitions target = true) :
    Dict.get? (aliasesOf definitions) name = some target := by
  have hother : (first, target) ∈ definitions.filterMap Definition.union? :=
    hsplit ▸ List.mem_cons_self
  have hfirst := not_definesObject_of_union hdistinct hother
  rw [get?_aliases_union hdistinct [(first, target)] hsplit, Names.unionAlias,
    declaresType_eq hdistinct, hfirst, if_neg Bool.false_ne_true, resolveUnions, List.foldl_cons,
    List.foldl_nil, Dict.get?_insert_self, Option.getD_some, Names.unionAlias,
    declaresType_eq hdistinct, if_pos hobject]

/-- **A chained union stands for one thing in one order and for another in another.** -/
theorem Chained.exists_orders (h : Chained definitions)
    (hdistinct : (definitions.map Definition.name).Nodup) :
    ∃ others again, definitions.Perm others ∧ definitions.Perm again ∧
      aliasesOf others ≠ aliasesOf again := by
  obtain ⟨name, first, target, hunion, hother, hobject, htext⟩ := h
  obtain ⟨u, hu, hunionOf⟩ := List.mem_filterMap.1 hunion
  obtain ⟨v, hv, hotherOf⟩ := List.mem_filterMap.1 hother
  -- a union that is its own first alternative is not chained
  have hne : v ≠ u := by
    rintro rfl
    obtain ⟨rfl, rfl⟩ := Prod.mk.inj (Option.some.inj (hunionOf.symm.trans hotherOf))
    rw [not_definesObject_of_union hdistinct hother] at hobject
    cases hobject
  obtain ⟨rest, hrest⟩ : ∃ rest, definitions.Perm (u :: v :: rest) := by
    obtain ⟨before, behind, rfl⟩ := List.append_of_mem hu
    have hmem : v ∈ before ++ behind := by simpa [hne] using hv
    obtain ⟨before', behind', heq⟩ := List.append_of_mem hmem
    refine ⟨before' ++ behind', List.perm_middle.trans (.cons u ?_)⟩
    rw [heq]
    exact List.perm_middle
  have hrest' : definitions.Perm (v :: u :: rest) := hrest.trans (.swap v u rest)
  have hsplit : (u :: v :: rest).filterMap Definition.union?
      = (name, first) :: (first, target) :: rest.filterMap Definition.union? := by
    rw [List.filterMap_cons_some hunionOf, List.filterMap_cons_some hotherOf]
  have hsplit' : (v :: u :: rest).filterMap Definition.union?
      = (first, target) :: (name, first) :: rest.filterMap Definition.union? := by
    rw [List.filterMap_cons_some hotherOf, List.filterMap_cons_some hunionOf]
  have hbefore := get?_aliases_of_before ((hrest.map _).nodup_iff.1 hdistinct) hsplit
    ((hrest.filterMap _).subset hother)
  have hbehind := get?_aliases_of_behind ((hrest'.map _).nodup_iff.1 hdistinct) hsplit'
    (definesObject_perm hdistinct hrest' ▸ hobject)
  refine ⟨_, _, hrest, hrest', fun heq => htext ?_⟩
  rw [heq, hbehind] at hbefore
  exact Option.some.inj hbefore

/-! ### Texts -/

/-- What a text shows can be shown in any order. -/
theorem exists_text (hperm : definitions.Perm others)
    (h : Renders (tokensOf definitions) text.toList) :
    ∃ other : String, Renders (tokensOf others) other.toList := by
  have hvalid := (spelled_plain_iff.2 h).valid
  have hsubset : plain (tokensOf others) ⊆ plain (tokensOf definitions) :=
    ((hperm.symm.flatMap_right _).map _).subset
  refine ⟨String.ofList (spell (plain (tokensOf others))), ?_⟩
  rw [String.toList_ofList]
  exact spelled_plain_iff.1 (spelled_spell fun ℓ hℓ => hvalid ℓ (hsubset hℓ))

/-- **The order does not matter exactly when no union is chained.**

Take any definitions of distinct names, whatever the first alternatives of unions are, and any text
that shows them.  A text that shows them in another order, with the unions in the same order, is
read as the same schema.  Texts in all orders are read as the same schema if and only if there is no
union of a union that stands for a type. -/
theorem ofText_perm_iff (hallowed : ∀ d ∈ definitions, d.Allowed)
    (hdistinct : (definitions.map Definition.name).Nodup)
    (h : Renders (tokensOf definitions) text.toList) :
    (∀ others (other : String), definitions.Perm others →
      definitions.filterMap Definition.union? = others.filterMap Definition.union? →
      Renders (tokensOf others) other.toList → Schema.ofText other = Schema.ofText text) ∧
    ((∀ others (other : String), definitions.Perm others →
      Renders (tokensOf others) other.toList → Schema.ofText other = Schema.ofText text)
      ↔ ¬ Chained definitions) := by
  have hread : ∀ others (other : String), definitions.Perm others →
      Renders (tokensOf others) other.toList →
      Schema.ofText other = Schema.ofDeclarations (declarationsOf others) :=
    fun others other hperm => ofText_plain fun d hd => hallowed d (hperm.mem_iff.2 hd)
  rw [hread definitions text (.refl _) h]
  refine ⟨fun others other hperm hunions hother => ?_, fun hall hchained => ?_,
    fun hchained others other hperm hother => ?_⟩
  · rw [hread others other hperm hother]
    exact (ofDeclarations_perm hdistinct hperm
      (aliasesOf_eq_of_unions hdistinct hperm hunions)).symm
  · obtain ⟨others, again, hothers, hagain, hne⟩ := hchained.exists_orders hdistinct
    obtain ⟨other, hother⟩ := exists_text hothers h
    obtain ⟨anew, hanew⟩ := exists_text hagain h
    have heq := (hall others other hothers hother).trans (hall again anew hagain hanew).symm
    rw [hread others other hothers hother, hread again anew hagain hanew] at heq
    exact hne (congrArg Schema.aliases heq)
  · rw [hread others other hperm hother]
    exact (ofDeclarations_perm hdistinct hperm (aliasesOf_perm hdistinct hperm hchained)).symm

/-- A union of a union of an enum. -/
def worded : List Definition :=
  [.union "Label" false false "Word" [], .union "Word" true true "Kind" [],
    .enum "Kind" true [.word "BOOK", .word "MAP"],
    .object .type "Query" none [⟨"label", none, .named "Label" false, 0⟩]]

/-- The definitions as they may be written. -/
def wordedText : String :=
  "union Label = Word
   union Word: | Kind
   enum Kind{BOOK MAP}
   type Query { label: Label }"

/-- A union of a union of a type. -/
def chain : List Definition :=
  [.union "A" false false "B" [], .union "B" false false "T" [],
    .object .type "T" none [⟨"x", none, .named "Int" false, 0⟩],
    .object .type "Query" none [⟨"a", none, .named "A" false, 0⟩]]

/-- The chain as it may be written. -/
def chainText : String :=
  "union A = B union B = T type T { x: Int } type Query { a: A }"

theorem ofText_perm_iff_chain :
    (Renders (tokensOf worded) wordedText.toList ∧
      Schema.ofText "type Query { label: Label } enum Kind { BOOK MAP }
          union Word: |Kind union Label = Word" = Schema.ofText wordedText) ∧
    Renders (tokensOf chain) chainText.toList ∧
      ∃ others other, chain.Perm others ∧ Renders (tokensOf others) other.toList ∧
        Schema.ofText other ≠ Schema.ofText chainText := by
  have hworded : Renders (tokensOf worded) wordedText.toList := by decide +kernel
  have hchain : Renders (tokensOf chain) chainText.toList := by decide +kernel
  refine ⟨⟨hworded, ?_⟩, hchain, ?_⟩
  · refine (ofText_perm_iff ?_ (by decide) hworded).2.2 ?_ worded.reverse _
      (List.reverse_perm _).symm (by decide +kernel)
    · simp [worded, Definition.Allowed, FieldDef.Allowed, Loose, keywords, TypeExpr.name]
    · rintro ⟨name, first, target, -, hother, hobject, -⟩
      simp only [worded, List.filterMap_cons, Definition.union?, List.filterMap_nil, List.mem_cons,
        Prod.mk.injEq, List.not_mem_nil, or_false] at hother
      rcases hother with ⟨-, rfl⟩ | ⟨-, rfl⟩ <;> exact absurd hobject (by decide)
  · have hallowed : ∀ d ∈ chain, d.Allowed := by
      simp [chain, Definition.Allowed, FieldDef.Allowed, Loose, keywords, TypeExpr.name]
    have hchained : Chained chain := ⟨"A", "B", "T", by decide, by decide, by decide, by decide⟩
    simpa [hchained] using (ofText_perm_iff hallowed (by decide) hchain).2

/-- **The order of unions can matter.**  Before the union that is its first alternative a union
stands for text, behind it for a type. -/
theorem unions_out_of_order :
    Renders (tokensOf chain) chainText.toList ∧
      Renders (tokensOf (chain.rotate 1))
        "union B = T type T { x: Int } type Query { a: A } union A = B".toList ∧
      chain.Perm (chain.rotate 1) ∧
      Schema.ofText "union B = T type T { x: Int } type Query { a: A } union A = B"
        ≠ Schema.ofText chainText := by
  refine ⟨by decide +kernel, by decide +kernel, by decide, fun heq => ?_⟩
  exact absurd (congrArg Schema.aliases heq) (by decide +kernel)

end SchemaSyntax

end GraphWalk
