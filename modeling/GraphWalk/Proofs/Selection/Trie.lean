import Mathlib.Data.List.Infix
import GraphWalk.Proofs.Dict.Entries
import GraphWalk.Proofs.Selection.Served

/-!
# Selections as tries

Requests that give the same arguments wherever they pass the same fields make a trie: it has a
node for every chain of fields that a request passes, and what stands there is told from the
requests that pass it, whatever their order.  Below a field with arguments the trie goes on in
the selection beside them.

## Main definitions

* `Selection.tree` — the object that requests make.
* `Selection.argumentsOf` — the arguments that requests give behind a chain of fields.
* `Selection.Passed` — a request passes a chain of fields.
* `Selection.Consistent` — requests give the same arguments behind the same fields.
* `Selection.place` — where the node of a chain stands.
* `Selection.IsNode` — what the node of a chain is.

## Main results

* `Selection.Consistent.get?_tree` — what stands under a field.
* `Selection.Consistent.isNode_tree` — every chain has its node, and nothing else is there.
* `Selection.Consistent.tree_eq_of_mem_iff` — the order of the requests makes no difference.
* `Selection.trie_ofPaths` — **the selection of consistent paths is their trie.**
-/

namespace GraphWalk

namespace Selection

/-- The object that requests make, one after the other. -/
def tree (requests : List (List Step)) : Dict Json := requests.foldl nest []

/-- What is left of a request behind a field and its arguments. -/
def behind? (name : String) : List Step → Option (List Step)
  | .field first :: .arguments _ :: rest => if first = name then some rest else none
  | .field first :: rest => if first = name then some rest else none
  | _ => none

/-- The arguments that a request gives right behind a chain of fields. -/
def argumentsAfter? (request : List Step) : List String → Option (Dict Json)
  | [] => none
  | [name] =>
    match request with
    | .field first :: .arguments args :: _ => if first = name then some args else none
    | _ => none
  | name :: next :: names =>
    (behind? name request).bind fun left => argumentsAfter? left (next :: names)

/-- The arguments that requests give right behind a chain of fields. -/
def argumentsOf (requests : List (List Step)) (chain : List String) : Option (Dict Json) :=
  requests.findSome? fun request => argumentsAfter? request chain

/-- Arguments stand right behind fields, and requests that pass the same fields give the same
arguments there, or none. -/
structure Consistent (requests : List (List Step)) : Prop where
  shaped : ∀ p ∈ requests, Shaped false p
  agree : ∀ p ∈ requests, ∀ q ∈ requests, ∀ chain, chain <+: namesOf p → chain <+: namesOf q →
    argumentsAfter? p chain = argumentsAfter? q chain

/-- Where the node of a chain stands: behind a field with arguments the way leads through the
selection beside them. -/
def place (requests : List (List Step)) : List String → List String
  | [] => []
  | [name] => [name]
  | name :: next :: names =>
    name :: ((if (argumentsOf requests [name]).isSome then [selectionName] else [])
      ++ place (requests.filterMap (behind? name)) (next :: names))

/-- Some request passes a chain of fields. -/
def Passed (requests : List (List Step)) (chain : List String) : Prop :=
  ∃ request ∈ requests, chain <+: namesOf request

/-- What the trie of some requests has at a chain of fields. -/
inductive IsNode (requests : List (List Step)) (chain : List String) : Option Json → Prop
  /-- No request passes the chain, and there is nothing. -/
  | absent (hnone : ¬Passed requests chain) : IsNode requests chain none
  /-- Requests end here, and none goes on. -/
  | chosen (hpassed : Passed requests chain) (hplain : argumentsOf requests chain = none)
      (hends : ∀ name, ¬Passed requests (chain ++ [name])) :
      IsNode requests chain (some (.bool true))
  /-- Requests go on, and there is an object of the fields with which they do. -/
  | nested {members : Dict Json} (hplain : argumentsOf requests chain = none)
      (hextended : ∃ name, Passed requests (chain ++ [name]))
      (hnames : ∀ name, Dict.contains members name = true ↔ Passed requests (chain ++ [name])) :
      IsNode requests chain (some (.object members))
  /-- Requests give arguments here, and beside them stands an object of the fields with which they
  go on. -/
  | given {args members : Dict Json} (hgiven : argumentsOf requests chain = some args)
      (hnames : ∀ name, Dict.contains members name = true ↔ Passed requests (chain ++ [name])) :
      IsNode requests chain
        (some (.object [(selectionName, .object members), (argumentsName, .object args)]))

variable {requests others : List (List Step)} {request left : List Step} {name : String}
  {chain : List String} {args : Dict Json}

/-! ### What is left of a request behind a field -/

theorem behind?_of_arguments (name : String) (args : Dict Json) (rest : List Step) :
    behind? name (.field name :: .arguments args :: rest) = some rest := if_pos rfl

theorem behind?_of_plain (h : ∀ args more, left ≠ .arguments args :: more) :
    behind? name (.field name :: left) = some left := by
  rw [behind?.eq_def]
  split
  · next args rest hrest => exact absurd (List.cons.inj hrest).2 (h args rest)
  · next first rest _ hrest =>
    obtain ⟨hfirst, rfl⟩ := List.cons.inj hrest
    exact if_pos (Step.field.inj hfirst).symm
  · next h => exact absurd rfl (h _ _)

/-- A request goes on behind a field with its arguments, or without any. -/
theorem eq_of_behind?_eq_some (h : behind? name request = some left) :
    (∃ args, request = .field name :: .arguments args :: left) ∨
      request = .field name :: left ∧ ∀ args more, left ≠ .arguments args :: more := by
  rw [behind?.eq_def] at h
  split at h
  · next first args rest =>
    split at h
    · next hname =>
      obtain rfl := Option.some.inj h
      exact .inl ⟨args, by rw [hname]⟩
    · cases h
  · next first rest hplain =>
    split at h
    · next hname =>
      obtain rfl := Option.some.inj h
      refine .inr ⟨by rw [hname], fun args more hrest => ?_⟩
      exact hplain args more hrest
    · cases h
  · cases h

theorem exists_behind? (name : String) (rest : List Step) :
    ∃ left, behind? name (.field name :: rest) = some left := by
  by_cases hplain : ∀ args more, rest ≠ .arguments args :: more
  · exact ⟨rest, behind?_of_plain hplain⟩
  · simp only [not_forall, not_not] at hplain
    obtain ⟨args, more, rfl⟩ := hplain
    exact ⟨more, behind?_of_arguments name args more⟩

theorem behind?_of_ne {first : String} (h : name ≠ first) (rest : List Step) :
    behind? name (.field first :: rest) = none := by
  rw [behind?.eq_def]
  split
  · next hrest =>
    obtain ⟨hfirst, -⟩ := List.cons.inj hrest
    exact if_neg fun hname => h (hname.symm.trans (Step.field.inj hfirst).symm)
  · next hrest =>
    obtain ⟨hfirst, -⟩ := List.cons.inj hrest
    exact if_neg fun hname => h (hname.symm.trans (Step.field.inj hfirst).symm)
  · rfl

theorem shaped_of_behind? (h : Shaped false request) (hleft : behind? name request = some left) :
    Shaped false left := by
  rcases eq_of_behind?_eq_some hleft with ⟨args, rfl⟩ | ⟨rfl, hplain⟩
  · exact h.2
  · cases left with
    | nil => trivial
    | cons step rest =>
      cases step with
      | field next => exact h
      | arguments args => exact absurd rfl (hplain args rest)

theorem namesOf_of_behind? (hleft : behind? name request = some left) :
    namesOf request = name :: namesOf left := by
  rcases eq_of_behind?_eq_some hleft with ⟨args, rfl⟩ | ⟨rfl, -⟩
  · rfl
  · rfl

/-- A request begins with a field, if it begins at all. -/
theorem eq_cons_of_shaped (h : Shaped false request) :
    request = [] ∨ ∃ name rest, request = .field name :: rest := by
  cases request with
  | nil => exact .inl rfl
  | cons step rest =>
    cases step with
    | field name => exact .inr ⟨name, rest, rfl⟩
    | arguments args => exact absurd h (not_shaped_arguments args rest)

/-- A request passes a field and goes on, or it does not begin with the field. -/
theorem cons_prefix_namesOf_iff (h : Shaped false request) :
    name :: chain <+: namesOf request ↔
      ∃ left, behind? name request = some left ∧ chain <+: namesOf left := by
  constructor
  · intro hpre
    rcases eq_cons_of_shaped h with rfl | ⟨first, rest, rfl⟩
    · exact absurd (List.prefix_nil.1 hpre) (List.cons_ne_nil _ _)
    · obtain ⟨left, hleft⟩ := exists_behind? first rest
      rw [namesOf_of_behind? hleft, List.cons_prefix_cons] at hpre
      obtain ⟨rfl, hpre⟩ := hpre
      exact ⟨left, hleft, hpre⟩
  · rintro ⟨left, hleft, hpre⟩
    rw [namesOf_of_behind? hleft, List.cons_prefix_cons]
    exact ⟨rfl, hpre⟩

/-- Arguments are given behind a chain that is passed. -/
theorem prefix_of_argumentsAfter? (h : argumentsAfter? request chain = some args) :
    chain <+: namesOf request := by
  induction chain generalizing request with
  | nil => cases h
  | cons name names ih =>
    cases names with
    | nil =>
      rw [argumentsAfter?.eq_def] at h
      dsimp only at h
      split at h
      · next first given rest =>
        split at h
        · next hname => exact List.cons_prefix_cons.2 ⟨hname.symm, List.nil_prefix⟩
        · cases h
      · cases h
    | cons next names =>
      rw [argumentsAfter?, Option.bind_eq_some_iff] at h
      obtain ⟨left, hleft, hgiven⟩ := h
      rw [namesOf_of_behind? hleft]
      exact List.cons_prefix_cons.2 ⟨rfl, ih hgiven⟩

theorem argumentsAfter?_cons (request : List Step) (name : String) (hne : chain ≠ []) :
    argumentsAfter? request (name :: chain)
      = (behind? name request).bind fun left => argumentsAfter? left chain := by
  cases chain with
  | nil => exact absurd rfl hne
  | cons next names => rfl

/-- Arguments right behind the first field. -/
theorem argumentsAfter?_singleton_eq_some (h : argumentsAfter? request [name] = some args) :
    ∃ rest, request = .field name :: .arguments args :: rest := by
  rw [argumentsAfter?.eq_def] at h
  dsimp only at h
  split at h
  · next first given rest =>
    split at h
    · next hname =>
      obtain rfl := Option.some.inj h
      exact ⟨rest, by rw [hname]⟩
    · cases h
  · cases h

theorem argumentsAfter?_singleton (name : String) (args : Dict Json) (rest : List Step) :
    argumentsAfter? (.field name :: .arguments args :: rest) [name] = some args := if_pos rfl

/-! ### Consistent requests -/

theorem argumentsOf_cons (requests : List (List Step)) (name : String) (hne : chain ≠ []) :
    argumentsOf requests (name :: chain)
      = argumentsOf (requests.filterMap (behind? name)) chain := by
  induction requests with
  | nil => rfl
  | cons request requests ih =>
    rw [argumentsOf, List.findSome?_cons, argumentsAfter?_cons request name hne,
      List.filterMap_cons]
    cases behind? name request with
    | none => exact ih
    | some left =>
      rw [Option.bind_some, argumentsOf, List.findSome?_cons]
      cases argumentsAfter? left chain with
      | none => exact ih
      | some args => rfl

/-- Requests are consistent when the arguments of each are told from the fields before them. -/
theorem Consistent.of_given (given : List String → Option (Dict Json))
    (hshaped : ∀ p ∈ requests, Shaped false p)
    (hgiven : ∀ p ∈ requests, ∀ chain ∈ (namesOf p).inits, argumentsAfter? p chain = given chain) :
    Consistent requests where
  shaped := hshaped
  agree := fun p hp q hq chain hpre hpre' =>
    (hgiven p hp chain ((List.mem_inits _ _).2 hpre)).trans
      (hgiven q hq chain ((List.mem_inits _ _).2 hpre')).symm

namespace Consistent

variable (h : Consistent requests)

include h

/-- What is left behind a field is consistent. -/
theorem behind (name : String) : Consistent (requests.filterMap (behind? name)) where
  shaped := by
    intro left hmem
    obtain ⟨request, hrequest, hleft⟩ := List.mem_filterMap.1 hmem
    exact shaped_of_behind? (h.shaped request hrequest) hleft
  agree := by
    intro p hp q hq chain hpre hpre'
    obtain ⟨request, hrequest, hp⟩ := List.mem_filterMap.1 hp
    obtain ⟨other, hother, hq⟩ := List.mem_filterMap.1 hq
    cases chain with
    | nil => rfl
    | cons first chain =>
      have hagree := h.agree request hrequest other hother (name :: first :: chain)
        (by rw [namesOf_of_behind? hp]; exact List.cons_prefix_cons.2 ⟨rfl, hpre⟩)
        (by rw [namesOf_of_behind? hq]; exact List.cons_prefix_cons.2 ⟨rfl, hpre'⟩)
      rw [argumentsAfter?, argumentsAfter?, hp, hq] at hagree
      exact hagree

/-- The arguments behind a chain are those that any request gives there. -/
theorem argumentsOf_eq_some_iff :
    argumentsOf requests chain = some args ↔
      ∃ request ∈ requests, argumentsAfter? request chain = some args := by
  rw [argumentsOf]
  constructor
  · intro hfound
    exact List.exists_of_findSome?_eq_some hfound
  · rintro ⟨request, hrequest, hgiven⟩
    cases hfound : requests.findSome? fun request => argumentsAfter? request chain with
    | none =>
      rw [List.findSome?_eq_none_iff.1 hfound request hrequest] at hgiven
      cases hgiven
    | some other =>
      obtain ⟨request', hrequest', hother⟩ := List.exists_of_findSome?_eq_some hfound
      rw [← hother, ← hgiven]
      exact h.agree request' hrequest' request hrequest chain (prefix_of_argumentsAfter? hother)
        (prefix_of_argumentsAfter? hgiven)

/-- Requests that pass a chain all give the arguments that are given behind it. -/
theorem argumentsAfter?_of_passes (hgiven : argumentsOf requests chain = some args)
    (hrequest : request ∈ requests) (hpre : chain <+: namesOf request) :
    argumentsAfter? request chain = some args := by
  obtain ⟨other, hother, hargs⟩ := h.argumentsOf_eq_some_iff.1 hgiven
  rw [← hargs]
  exact h.agree request hrequest other hother chain hpre (prefix_of_argumentsAfter? hargs)

/-- Below a field with arguments everything that is left begins with them. -/
theorem rest?_of_given (hgiven : argumentsOf requests [name] = some args) :
    requests.filterMap (rest? name)
      = (requests.filterMap (behind? name)).map (.arguments args :: ·) := by
  rw [List.map_filterMap]
  refine List.filterMap_congr fun request hrequest => ?_
  rcases eq_cons_of_shaped (h.shaped request hrequest) with rfl | ⟨first, rest, rfl⟩
  · rfl
  · by_cases hname : name = first
    · subst hname
      have hpre : [name] <+: namesOf (.field name :: rest) :=
        List.cons_prefix_cons.2 ⟨rfl, List.nil_prefix⟩
      obtain ⟨left, hleft⟩ :=
        argumentsAfter?_singleton_eq_some (h.argumentsAfter?_of_passes hgiven hrequest hpre)
      obtain rfl := (List.cons.inj hleft).2
      rw [behind?_of_arguments, rest?, if_pos rfl]
      rfl
    · rw [behind?_of_ne hname, rest?, if_neg hname]
      rfl

/-- Below a field without arguments nothing that is left begins with any. -/
theorem rest?_of_plain (hplain : argumentsOf requests [name] = none) :
    requests.filterMap (rest? name) = requests.filterMap (behind? name) := by
  refine List.filterMap_congr fun request hrequest => ?_
  rcases eq_cons_of_shaped (h.shaped request hrequest) with rfl | ⟨first, rest, rfl⟩
  · rfl
  · by_cases hname : name = first
    · subst hname
      rw [behind?_of_plain, rest?, if_pos rfl]
      rintro args more rfl
      have hgiven := h.argumentsOf_eq_some_iff.2
        ⟨_, hrequest, argumentsAfter?_singleton name args more⟩
      rw [hplain] at hgiven
      cases hgiven
    · rw [behind?_of_ne hname, rest?, if_neg hname]

end Consistent

/-! ### What stands under a field -/

/-- What stands under a field, from the arguments that are given to it and what is left of the
requests behind it. -/
def node (given : Option (Dict Json)) (left : List (List Step)) : Option Json :=
  match given with
  | some args =>
    some (.object [(selectionName, .object (tree left)), (argumentsName, .object args)])
  | none =>
    if left.isEmpty then none
    else if left.all List.isEmpty then some (.bool true)
    else some (.object (tree left))

/-- Arguments replace the arguments, and what follows them goes into the selection. -/
theorem nest_arguments_given (inner given args : Dict Json) (rest : List Step) :
    nest [(selectionName, Json.object inner), (argumentsName, Json.object given)]
        (.arguments args :: rest)
      = [(selectionName, .object (nest inner rest)), (argumentsName, .object args)] := by
  have hinsert :
      Dict.insert [(selectionName, Json.object inner), (argumentsName, Json.object given)]
          argumentsName (.object args)
        = [(selectionName, Json.object inner), (argumentsName, Json.object args)] := rfl
  rw [nest_arguments, hinsert]
  rfl

/-- Requests that all begin with the same arguments leave these, and a tree beside them. -/
theorem tree_arguments (args : Dict Json) {left : List (List Step)} (hne : left ≠ []) :
    tree (left.map (.arguments args :: ·))
      = [(selectionName, .object (tree left)), (argumentsName, .object args)] := by
  have hrun : ∀ (left : List (List Step)) (inner : Dict Json),
      (left.map (.arguments args :: ·)).foldl nest
          [(selectionName, .object inner), (argumentsName, .object args)]
        = [(selectionName, .object (left.foldl nest inner)), (argumentsName, .object args)] := by
    intro left
    induction left with
    | nil => exact fun _ => rfl
    | cons rest left ih =>
      intro inner
      rw [List.map_cons, List.foldl_cons, nest_arguments_given, ih]
      rfl
  cases left with
  | nil => exact absurd rfl hne
  | cons rest left => exact hrun left (nest [] rest)

/-- Requests without steps leave nothing. -/
theorem tree_of_all_isEmpty (h : requests.all List.isEmpty = true) : tree requests = [] := by
  induction requests with
  | nil => rfl
  | cons request requests ih =>
    rw [List.all_cons, Bool.and_eq_true, List.isEmpty_iff] at h
    obtain ⟨rfl, h⟩ := h
    exact ih h

theorem ascending_nest {members : Dict Json} (h : Dict.Ascending members) (request : List Step) :
    Dict.Ascending (nest members request) := by
  cases request with
  | nil => exact h
  | cons step rest =>
    cases step with
    | field name =>
      cases rest with
      | nil =>
        rw [nest_field_nil]
        split
        · exact h
        · exact Dict.ascending_insert h _ _
      | cons next rest =>
        rw [nest_field_cons]
        exact Dict.ascending_insert h _ _
    | arguments args =>
      rw [nest_arguments]
      exact Dict.ascending_insert (Dict.ascending_insert h _ _) _ _

theorem ascending_tree (requests : List (List Step)) : Dict.Ascending (tree requests) := by
  induction requests using List.reverseRecOn with
  | nil => exact List.Pairwise.nil
  | append_singleton requests last ih =>
    rw [tree, List.foldl_append]
    exact ascending_nest ih last

/-- A field that requests pass is there, and behind the chain behind it others are passed. -/
theorem passed_cons_iff (h : ∀ p ∈ requests, Shaped false p) :
    Passed requests (name :: chain) ↔ Passed (requests.filterMap (behind? name)) chain := by
  constructor
  · rintro ⟨request, hrequest, hpre⟩
    obtain ⟨left, hleft, hpre⟩ := (cons_prefix_namesOf_iff (h request hrequest)).1 hpre
    exact ⟨left, List.mem_filterMap.2 ⟨request, hrequest, hleft⟩, hpre⟩
  · rintro ⟨left, hmem, hpre⟩
    obtain ⟨request, hrequest, hleft⟩ := List.mem_filterMap.1 hmem
    exact ⟨request, hrequest, (cons_prefix_namesOf_iff (h request hrequest)).2 ⟨left, hleft, hpre⟩⟩

theorem passed_singleton_iff (h : ∀ p ∈ requests, Shaped false p) :
    Passed requests [name] ↔ requests.filterMap (behind? name) ≠ [] := by
  rw [passed_cons_iff h]
  constructor
  · rintro ⟨left, hleft, -⟩
    exact List.ne_nil_of_mem hleft
  · intro hne
    obtain ⟨left, hleft⟩ := List.exists_mem_of_ne_nil _ hne
    exact ⟨left, hleft, List.nil_prefix⟩

/-- The object under a name has what is left of the requests there. -/
theorem child_tree (h : ∀ p ∈ requests, Shaped false p) (name : String) :
    child (tree requests) name = tree (requests.filterMap (rest? name)) := by
  have hbelow := (Level.mk [] requests).child_members name
  rw [Level.below_eq fun _ args rest hmem => not_shaped_arguments args rest (h _ hmem)] at hbelow
  exact hbelow

/-- An object stands under a name that requests go on behind. -/
theorem get?_tree_of_leads (h : ∀ p ∈ requests, Shaped false p)
    (hleads : ∃ request ∈ requests, Leads name request) :
    Dict.get? (tree requests) name = some (.object (tree (requests.filterMap (rest? name)))) := by
  have hentry := (Level.mk [] requests).entry_members name
  rw [(Level.entry_eq_nested_iff rfl).2 hleads] at hentry
  obtain ⟨members, hmembers⟩ := Entry.of_eq_nested_iff.1 hentry
  have hchild := child_tree h name
  have hget : Dict.get? (tree requests) name = some (.object members) := hmembers
  rw [child, hget] at hchild
  rw [hget, ← hchild]

theorem Entry.of_eq_absent_iff {value : Option Json} :
    Entry.of value = .absent ↔ value = none := by
  rw [Entry.of.eq_def]
  split <;> simp_all

/-- What is left of requests behind a name at the beginning. -/
theorem mem_filterMap_rest?_iff (h : ∀ p ∈ requests, Shaped false p) :
    left ∈ requests.filterMap (rest? name) ↔ Step.field name :: left ∈ requests := by
  rw [mem_left_iff]
  refine ⟨fun hmem => hmem.resolve_right ?_, .inl⟩
  rintro ⟨-, args, hargs⟩
  exact not_shaped_arguments args left (h _ hargs)

/-- Where no request goes on behind a name, the name is asked for itself, or is not there. -/
theorem get?_tree_of_not_leads (h : ∀ p ∈ requests, Shaped false p)
    (hleads : ¬∃ request ∈ requests, Leads name request) :
    Dict.get? (tree requests) name = node none (requests.filterMap (rest? name)) := by
  classical
  have hentry := (Level.mk [] requests).entry_members name
  rw [Level.entry_eq rfl, if_neg hleads] at hentry
  have hempty : (requests.filterMap (rest? name)).all List.isEmpty = true := by
    rw [List.all_eq_true]
    intro left hleft
    rw [mem_filterMap_rest?_iff h] at hleft
    cases left with
    | nil => rfl
    | cons step rest => exact absurd ⟨_, hleft, .field step rest⟩ hleads
  rw [node, hempty, if_pos (Eq.refl true)]
  by_cases hmem : [Step.field name] ∈ requests
  · have hleft : (requests.filterMap (rest? name)).isEmpty = false :=
      List.isEmpty_eq_false_iff_exists_mem.2 ⟨[], (mem_filterMap_rest?_iff h).2 hmem⟩
    rw [if_pos hmem] at hentry
    rw [hleft, if_neg Bool.false_ne_true]
    exact Entry.of_eq_chosen_iff.1 hentry
  · have hleft : (requests.filterMap (rest? name)).isEmpty = true := by
      rw [List.isEmpty_iff, List.eq_nil_iff_forall_not_mem]
      intro left hleft
      have hend := List.isEmpty_iff.1 (List.all_eq_true.1 hempty left hleft)
      rw [mem_filterMap_rest?_iff h, hend] at hleft
      exact hmem hleft
    rw [if_neg hmem] at hentry
    rw [hleft, if_pos (Eq.refl true)]
    exact Entry.of_eq_absent_iff.1 hentry

/-- Below what stands under a field without arguments the way leads through what is left. -/
theorem at?_node_none (left : List (List Step)) {names : List String} (hne : names ≠ []) :
    (node none left).bind (fun value => value.at? names)
      = (Json.object (tree left)).at? names := by
  cases names with
  | nil => exact absurd rfl hne
  | cons name names =>
    rw [node]
    split
    · next hempty => rw [List.isEmpty_iff.1 hempty]; rfl
    split
    · next hends => rw [tree_of_all_isEmpty hends]; rfl
    · rfl

theorem place_ne_nil (requests : List (List Step)) (hne : chain ≠ []) :
    place requests chain ≠ [] := by
  cases chain with
  | nil => exact absurd rfl hne
  | cons name names =>
    cases names with
    | nil => exact List.cons_ne_nil _ _
    | cons next names => exact List.cons_ne_nil _ _

/-- What stands under a field does not depend on the order of what is left. -/
theorem node_eq_of_mem_iff (given : Option (Dict Json)) {left left' : List (List Step)}
    (hsame : ∀ rest, rest ∈ left' ↔ rest ∈ left) (htree : tree left' = tree left) :
    node given left' = node given left := by
  have hempty : left'.isEmpty = left.isEmpty := by
    rw [Bool.eq_iff_iff, List.isEmpty_iff, List.isEmpty_iff, List.eq_nil_iff_forall_not_mem,
      List.eq_nil_iff_forall_not_mem]
    exact forall_congr' fun rest => not_congr (hsame rest)
  have hends : left'.all List.isEmpty = left.all List.isEmpty := by
    rw [Bool.eq_iff_iff, List.all_eq_true, List.all_eq_true]
    exact forall_congr' fun rest => imp_congr_left (hsame rest)
  cases given with
  | some args => rw [node, node, htree]
  | none => rw [node, node, hempty, hends, htree]

namespace Consistent

variable (h : Consistent requests)

include h

/-- **What stands under a field** is told from its arguments and from what is left behind it. -/
theorem get?_tree (name : String) :
    Dict.get? (tree requests) name
      = node (argumentsOf requests [name]) (requests.filterMap (behind? name)) := by
  cases hgiven : argumentsOf requests [name] with
  | some args =>
    obtain ⟨request, hrequest, hargs⟩ := h.argumentsOf_eq_some_iff.1 hgiven
    obtain ⟨rest, rfl⟩ := argumentsAfter?_singleton_eq_some hargs
    have hleft : requests.filterMap (behind? name) ≠ [] :=
      List.ne_nil_of_mem (List.mem_filterMap.2 ⟨_, hrequest, behind?_of_arguments name args rest⟩)
    rw [get?_tree_of_leads h.shaped ⟨_, hrequest, .field _ _⟩, h.rest?_of_given hgiven,
      tree_arguments args hleft]
    rfl
  | none =>
    rw [← h.rest?_of_plain hgiven]
    by_cases hleads : ∃ request ∈ requests, Leads name request
    · rw [get?_tree_of_leads h.shaped hleads]
      obtain ⟨request, hrequest, hleads⟩ := hleads
      cases hleads with
      | field step rest =>
        have hmem := (mem_filterMap_rest?_iff h.shaped).2 hrequest
        have hall : (requests.filterMap (rest? name)).all List.isEmpty = false :=
          List.all_eq_false.2 ⟨_, hmem, Bool.false_ne_true⟩
        rw [node, List.isEmpty_eq_false_iff_exists_mem.2 ⟨_, hmem⟩, hall,
          if_neg Bool.false_ne_true, if_neg Bool.false_ne_true]
      | arguments args rest _ =>
        exact absurd (h.shaped _ hrequest) (not_shaped_arguments args rest)
    · exact get?_tree_of_not_leads h.shaped hleads

/-- A field is there when a request begins with it. -/
theorem contains_tree (name : String) :
    Dict.contains (tree requests) name = true ↔ Passed requests [name] := by
  rw [Dict.contains, h.get?_tree, passed_singleton_iff h.shaped, ← List.isEmpty_eq_false_iff]
  cases hgiven : argumentsOf requests [name] with
  | some args =>
    obtain ⟨request, hrequest, hargs⟩ := h.argumentsOf_eq_some_iff.1 hgiven
    obtain ⟨rest, rfl⟩ := argumentsAfter?_singleton_eq_some hargs
    refine iff_of_true rfl (List.isEmpty_eq_false_iff_exists_mem.2 ⟨rest, ?_⟩)
    exact List.mem_filterMap.2 ⟨_, hrequest, behind?_of_arguments name args rest⟩
  | none =>
    rw [node]
    cases (requests.filterMap (behind? name)).isEmpty with
    | true => exact iff_of_false Bool.false_ne_true fun h => Bool.false_ne_true h.symm
    | false =>
      refine iff_of_true ?_ rfl
      rw [if_neg Bool.false_ne_true]
      split <;> rfl

/-- The fields behind a field are those with which requests go on. -/
theorem contains_tree_behind (name next : String) :
    Dict.contains (tree (requests.filterMap (behind? name))) next = true
      ↔ Passed requests [name, next] := by
  rw [(h.behind name).contains_tree, passed_cons_iff h.shaped]

/-! ### Every chain has its node -/

/-- What stands under a field is its node. -/
theorem isNode_node (name : String) : IsNode requests [name]
    (node (argumentsOf requests [name]) (requests.filterMap (behind? name))) := by
  cases hgiven : argumentsOf requests [name] with
  | some args => exact .given hgiven (h.contains_tree_behind name)
  | none =>
    rw [node]
    split
    · next hempty =>
      refine .absent fun hpassed => (passed_singleton_iff h.shaped).1 hpassed ?_
      exact List.isEmpty_iff.1 hempty
    next hempty =>
    have hpassed : Passed requests [name] :=
      (passed_singleton_iff h.shaped).2 fun hnil => hempty (List.isEmpty_iff.2 hnil)
    split
    · next hends =>
      refine .chosen hpassed hgiven fun next hnext => ?_
      have hcontains := (h.contains_tree_behind name next).2 hnext
      rw [tree_of_all_isEmpty hends] at hcontains
      cases hcontains
    · next hends =>
      refine .nested hgiven ?_ (h.contains_tree_behind name)
      rw [Bool.not_eq_true, List.all_eq_false] at hends
      obtain ⟨left, hleft, hmore⟩ := hends
      rcases eq_cons_of_shaped ((h.behind name).shaped left hleft) with rfl | ⟨next, rest, rfl⟩
      · exact absurd rfl hmore
      · refine ⟨next, (passed_cons_iff h.shaped).2 ⟨_, hleft, ?_⟩⟩
        exact List.cons_prefix_cons.2 ⟨rfl, List.nil_prefix⟩

/-- The node of a chain behind a field is the node of the chain in what is left there. -/
theorem isNode_cons (hne : chain ≠ []) {value : Option Json}
    (hnode : IsNode (requests.filterMap (behind? name)) chain value) :
    IsNode requests (name :: chain) value := by
  have hpassed : ∀ chain, Passed requests (name :: chain)
      ↔ Passed (requests.filterMap (behind? name)) chain := fun _ => passed_cons_iff h.shaped
  have hargs := argumentsOf_cons requests name hne
  cases hnode with
  | absent hnone => exact .absent fun hmore => hnone ((hpassed chain).1 hmore)
  | chosen hhere hplain hends =>
    exact .chosen ((hpassed chain).2 hhere) (hargs.trans hplain)
      fun next hmore => hends next ((hpassed _).1 hmore)
  | nested hplain hextended hnames =>
    obtain ⟨next, hnext⟩ := hextended
    exact .nested (hargs.trans hplain) ⟨next, (hpassed _).2 hnext⟩
      fun next => (hnames next).trans (hpassed _).symm
  | given hgiven hnames =>
    exact .given (hargs.trans hgiven) fun next => (hnames next).trans (hpassed _).symm

/-- **Every chain has its node.** -/
theorem isNode_tree (hne : chain ≠ []) :
    IsNode requests chain ((Json.object (tree requests)).at? (place requests chain)) := by
  induction chain generalizing requests with
  | nil => exact absurd rfl hne
  | cons name names ih =>
    cases names with
    | nil =>
      rw [place, Json.at?_cons, Json.member?_object, h.get?_tree]
      simp only [Json.at?_nil, Option.bind_fun_some]
      exact h.isNode_node name
    | cons next names =>
      refine h.isNode_cons (List.cons_ne_nil _ _) ?_
      have hbelow := ih (h.behind name) (List.cons_ne_nil next names)
      rw [place, Json.at?_cons, Json.member?_object, h.get?_tree]
      cases argumentsOf requests [name] with
      | none =>
        rw [Option.isSome_none, if_neg Bool.false_ne_true, List.nil_append,
          at?_node_none _ (place_ne_nil _ (List.cons_ne_nil next names))]
        exact hbelow
      | some args => exact hbelow

/-! ### The order of the requests -/

/-- Requests that are the same but for their order give the same arguments. -/
theorem argumentsOf_eq_of_mem_iff (h' : Consistent others)
    (hsame : ∀ request, request ∈ others ↔ request ∈ requests) (chain : List String) :
    argumentsOf others chain = argumentsOf requests chain := by
  refine Option.ext fun args => ?_
  rw [h'.argumentsOf_eq_some_iff, h.argumentsOf_eq_some_iff]
  simp only [hsame]

theorem of_mem_iff (hsame : ∀ request, request ∈ others ↔ request ∈ requests) :
    Consistent others where
  shaped := fun p hp => h.shaped p ((hsame p).1 hp)
  agree := fun p hp q hq => h.agree p ((hsame p).1 hp) q ((hsame q).1 hq)

theorem tree_eq_of_length_lt (hsame : ∀ request, request ∈ others ↔ request ∈ requests) {n : Nat}
    (hlength : ∀ request ∈ requests, request.length < n) : tree others = tree requests := by
  induction n generalizing requests others with
  | zero =>
    obtain rfl : requests = [] :=
      List.eq_nil_iff_forall_not_mem.2 fun p hp => Nat.not_lt_zero _ (hlength p hp)
    obtain rfl : others = [] :=
      List.eq_nil_iff_forall_not_mem.2 fun p hp => List.not_mem_nil ((hsame p).1 hp)
    rfl
  | succ n ih =>
    have h' := h.of_mem_iff hsame
    refine Dict.ext_of_get? (ascending_tree _) (ascending_tree _) fun name => ?_
    have hleft : ∀ rest, rest ∈ others.filterMap (behind? name)
        ↔ rest ∈ requests.filterMap (behind? name) := by
      intro rest
      simp only [List.mem_filterMap, hsame]
    rw [h'.get?_tree, h.get?_tree, h.argumentsOf_eq_of_mem_iff h' hsame]
    refine node_eq_of_mem_iff _ hleft (ih (h.behind name) hleft fun rest hrest => ?_)
    obtain ⟨request, hrequest, hbehind⟩ := List.mem_filterMap.1 hrest
    have hlong := hlength request hrequest
    rcases eq_of_behind?_eq_some hbehind with ⟨args, rfl⟩ | ⟨rfl, -⟩
    · simp only [List.length_cons] at hlong
      omega
    · simp only [List.length_cons] at hlong
      omega

/-- **The order of the requests makes no difference**, nor does it matter how often one comes. -/
theorem tree_eq_of_mem_iff (hsame : ∀ request, request ∈ others ↔ request ∈ requests) :
    tree others = tree requests :=
  h.tree_eq_of_length_lt hsame fun _ hrequest =>
    Nat.lt_succ_of_le (List.sublist_flatten_of_mem hrequest).length_le

end Consistent

/-! ### The selection of paths -/

theorem ofPaths_eq_tree (paths : List Path) :
    ofPaths paths = .object (tree (paths.map Path.steps)) := by
  rw [ofPaths, membersOf, tree, List.foldl_map]

/-- **The selection of consistent paths is their trie.**  For every chain of fields it has the node
that the paths give to the chain, and it is the same for all lists of the same paths. -/
theorem trie_ofPaths {paths : List Path} (h : Consistent (paths.map Path.steps)) :
    (∀ chain, chain ≠ [] → IsNode (paths.map Path.steps) chain
      ((ofPaths paths).at? (place (paths.map Path.steps) chain))) ∧
    ∀ others : List Path, (∀ path, path ∈ others ↔ path ∈ paths) →
      ofPaths others = ofPaths paths := by
  constructor
  · intro chain hne
    rw [ofPaths_eq_tree]
    exact h.isNode_tree hne
  · intro others hsame
    rw [ofPaths_eq_tree, ofPaths_eq_tree, h.tree_eq_of_mem_iff]
    intro request
    simp only [List.mem_map, hsame]

/-- A field with arguments that several paths pass, in two orders. -/
theorem trie_ofPaths_item :
    let args : Dict Json := [("id", .string "5")]
    let paths : List Path :=
      [⟨[.field "item", .arguments args, .field "author"]⟩, ⟨[.field "items"]⟩, ⟨[]⟩,
        ⟨[.field "item", .arguments args, .field "author", .field "name"]⟩,
        ⟨[.field "item", .arguments args]⟩, ⟨[.field "items"]⟩]
    IsNode (paths.map Path.steps) ["item", "author"]
        ((ofPaths paths).at? ["item", "select", "author"]) ∧
      ofPaths paths.reverse = ofPaths paths := by
  intro args paths
  have h : Consistent (paths.map Path.steps) := by
    refine .of_given (fun chain => if chain = ["item"] then some args else none) ?_ ?_
    · simp [paths, Shaped]
    · simp [-List.mem_inits, paths, namesOf, List.filterMap_cons, List.inits, argumentsAfter?,
        behind?]
  obtain ⟨hnodes, hsame⟩ := trie_ofPaths h
  exact ⟨hnodes ["item", "author"] (by decide), hsame _ fun path => List.mem_reverse⟩

end Selection

end GraphWalk
