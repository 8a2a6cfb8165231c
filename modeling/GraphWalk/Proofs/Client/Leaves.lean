import GraphWalk.Proofs.Client.Journal
import GraphWalk.Proofs.Schema.Ways
import GraphWalk.Proofs.Traversal.FetchOnce

/-!
# No request past a leaf

Where a schema tells the leaves, whatever is asked for is a leaf.  That no leaf lies on
the way to it is not said by this, since everything behind a leaf is taken for a leaf
too.  It holds of a request exactly if the traversal that made it does not itself stand
at a leaf; and no traversal does as long as no use goes on behind a key that leads to
one.  Then the requests of a batch lie apart.

A traversal that does stand at a leaf asks for whatever key it is given, and the batch
then asks for fields of a scalar.

## Main definitions

* `Schema.StandsFree` — a path that does not lead to a leaf.

## Main results

* `Schema.isLeaf?_append` — everything behind a leaf is taken for a leaf.
* `Traversal.request?_behind_leaf` — what is asked for from a leaf.
* `Journal.requests_lead_to_leaves` — **requests lead through no leaf unless one was passed.**
-/

namespace GraphWalk

/-! ### Behind a leaf -/

namespace Schema

variable {s : Schema} {path : Path}

theorem isLeaf?_eq (s : Schema) (path : Path) :
    s.isLeaf? path = s.isLeaf? (.ofFields path.fields) := by
  rw [isLeaf?, isLeaf?, resolve, resolve, Path.fields_ofFields]

/-- **Everything behind a leaf is taken for a leaf.** -/
theorem isLeaf?_append {names : List String} (h : s.isLeaf? (.ofFields names) = some true)
    (more : List String) : s.isLeaf? (.ofFields (names ++ more)) = some true := by
  rw [isLeaf?, Option.map_eq_some_iff, resolve_eq_goOn, Path.fields_ofFields] at h
  obtain ⟨leaf, hfound, hleaf⟩ := h
  rw [isLeaf?, resolve_eq_goOn, Path.fields_ofFields, goOn_append, hfound, Option.bind_some,
    goOn_of_leaf hleaf, Option.map_some, hleaf]

/-- The path does not lead to a leaf. -/
def StandsFree (s : Schema) (path : Path) : Prop := s.isLeaf? path ≠ some true

/-- What lies on the way to where no leaf is is no leaf either. -/
theorem StandsFree.of_append {names more : List String}
    (h : s.StandsFree (.ofFields (names ++ more))) : s.StandsFree (.ofFields names) :=
  fun hleaf => h (isLeaf?_append hleaf more)

theorem standsFree_iff_fields : s.StandsFree path ↔ s.StandsFree (.ofFields path.fields) := by
  rw [StandsFree, StandsFree, isLeaf?_eq]

/-- **A leaf has no leaf before it exactly if its key was followed from none.** -/
theorem leadsToLeaf_withField_iff {key : String} (h : s.isLeaf? (path.withField key) = some true) :
    s.LeadsToLeaf (path.withField key).fields ↔ s.StandsFree path := by
  rw [standsFree_iff_fields]
  constructor
  · intro hleads
    exact hleads.proper path.fields [key] (Path.fields_withField path key) (List.cons_ne_nil _ _)
  · intro hfree
    refine ⟨(isLeaf?_eq s _).symm.trans h, fun init more hsplit hmore => ?_⟩
    -- what is left of the way once its last field is taken off leads on to the path
    obtain ⟨more, last, rfl⟩ := (List.eq_nil_or_concat' more).resolve_left hmore
    rw [Path.fields_withField, ← List.append_assoc] at hsplit
    rw [List.append_inj_left' hsplit rfl] at hfree
    exact hfree.of_append

end Schema

/-! ### Traversals and their requests -/

variable {s : Schema} {c₀ c : Client} {uses : List Use} {history : History}
  {held : List Traversal}

/-- Where a schema tells the leaves, only the key of a leaf leads from where no leaf is to one. -/
theorem Schema.standsFree_lostAtLeaves (hschema : c.schema = some s) :
    Journal.LostAtLeaves c s.StandsFree where
  root := by
    rw [StandsFree, isLeaf?, resolve_root]
    exact fun h => Bool.false_ne_true (Option.some.inj h)
  withArguments {path} args h := by
    rw [StandsFree, isLeaf?, resolve_withArguments]
    exact h
  parent {path} h := by
    obtain ⟨more, hmore⟩ := path.exists_fields_eq_parent_append
    rw [standsFree_iff_fields, hmore] at h
    exact standsFree_iff_fields.2 h.of_append
  withField_iff {t key} _ := by
    rw [StandsFree, Traversal.leadsToLeaf, hschema]
    exact beq_eq_false_iff_ne.symm

/-- **From a leaf whatever is not known is asked for.** -/
theorem Traversal.request?_behind_leaf {t : Traversal} {key : String}
    (hschema : c.schema = some s) (hleaf : s.isLeaf? t.path = some true) (hlist : t.isList = false)
    (hunknown : t.bound.member? key = none) :
    t.request? key c = some (t.path.withField key) := by
  have hbehind : s.isLeaf? (t.path.withField key) = some true := by
    rw [Schema.isLeaf?_eq, Path.fields_withField]
    exact Schema.isLeaf?_append ((Schema.isLeaf?_eq s _).symm.trans hleaf) [key]
  rw [request?.eq_def, hschema]
  split
  · next hbound => cases hlist.symm.trans (isList_iff.2 ⟨_, hbound⟩)
  · next found heq _ =>
    obtain rfl : s = found := Option.some.inj heq
    rw [if_pos hbehind, missing?, List.findSome?_cons, hunknown]
    rfl
  · next heq _ => cases heq

namespace Journal

/-- A request is for a leaf, and leads through no other one if its traversal stands at none. -/
theorem leadsToLeaf_of_register (hschema : c₀.schema = some s)
    (journal : Journal c₀ uses history held c) {path : Path} {added : Bool}
    (h : .register path added ∈ history) :
    s.isLeaf? path = some true ∧
      ∃ t ∈ held, path.parent = t.path ∧ (s.LeadsToLeaf path.fields ↔ s.StandsFree t.path) := by
  obtain ⟨t, ht, -, -, key, -, hrequest⟩ := journal.exists_of_register h
  obtain ⟨rfl, hleaf⟩ := Traversal.request?_of_schema hschema hrequest
  exact ⟨hleaf, t, ht, Path.parent_withField t.path key, Schema.leadsToLeaf_withField_iff hleaf⟩

/-- **Requests lead through no leaf unless one was passed.**

Whatever is asked for is a leaf, and no leaf lies on the way to it exactly if the traversal that
asked for it did not stand at one.  The traversals that were handed out stand at none exactly if no
use went on behind a key that leads to one.  If so, every request leads to a leaf and through no
other, and in no batch does one path go on from the end of another. -/
theorem requests_lead_to_leaves (hschema : c₀.schema = some s)
    (journal : Journal c₀ uses history held c) :
    (∀ path added, .register path added ∈ history → s.isLeaf? path = some true ∧
      ∃ t ∈ held, path.parent = t.path ∧ (s.LeadsToLeaf path.fields ↔ s.StandsFree t.path)) ∧
    ((∀ t ∈ held, s.StandsFree t.path) ↔ ∀ use ∈ uses, ¬use.PassesLeaf c₀) ∧
    ((∀ use ∈ uses, ¬use.PassesLeaf c₀) →
      (∀ path added, .register path added ∈ history → s.LeadsToLeaf path.fields) ∧
      ((∀ path ∈ c₀.pendingPaths, s.LeadsToLeaf path.fields) →
        ∀ call ∈ history.calls, Selection.Separate (call.paths.map Path.fields))) := by
  have hheld := journal.held_iff (Schema.standsFree_lostAtLeaves hschema)
  refine ⟨fun path added h => journal.leadsToLeaf_of_register hschema h, hheld, fun hpasses => ?_⟩
  have hleads : ∀ path added, .register path added ∈ history → s.LeadsToLeaf path.fields := by
    intro path added h
    obtain ⟨-, t, ht, -, hiff⟩ := journal.leadsToLeaf_of_register hschema h
    exact hiff.2 (hheld.2 hpasses t ht)
  refine ⟨hleads, fun hpending call hcall => ?_⟩
  refine Traversal.separate_leaves (s := s) fun names hnames => ?_
  obtain ⟨path, hpath, rfl⟩ := List.mem_map.1 hnames
  rcases journal.exists_of_call hcall hpath with hwaiting | hregistered
  · exact hpending path hwaiting
  · exact hleads path true hregistered

/-! ### The name of an item -/

/-- An item has a name. -/
def itemNames : Schema where
  types :=
    [("Item", [("name", .scalar "String")]),
      ("Query", [("item", .object "Item")])]

/-- A client of which nothing was asked. -/
def nameClient : Client := { schema := some itemNames }

/-- The item, of which nothing is known. -/
def unknownItem : Traversal := ⟨.ofFields ["item"], .null⟩

/-- The name of the item, of which nothing is known. -/
def unknownName : Traversal := ⟨.ofFields ["item", "name"], .null⟩

theorem unknownItem_journal :
    Journal nameClient [.field nameClient.query "item", .query] []
      [unknownItem, nameClient.query] nameClient :=
  (Journal.start.use .query nofun).useOf (.field nameClient.query "item") rfl List.mem_cons_self

/-- The name of the item is asked for, and is a leaf behind no other. -/
theorem requests_lead_to_leaves_name :
    (unknownItem.step "name" nameClient).2.pendingPaths = [.ofFields ["item", "name"]] ∧
      itemNames.LeadsToLeaf ["item", "name"] := by
  have journal := unknownItem_journal.useOf (.step unknownItem "name") rfl List.mem_cons_self
  have hpasses : ∀ use ∈ [Use.step unknownItem "name", .field nameClient.query "item", .query],
      ¬use.PassesLeaf nameClient := by decide +kernel
  obtain ⟨-, -, hleads⟩ := requests_lead_to_leaves (s := itemNames) rfl journal
  exact ⟨rfl, (hleads hpasses).1 (.ofFields ["item", "name"]) true List.mem_cons_self⟩

/-- Where the name is followed like a field, what is asked for next leads through it. -/
theorem name_asked_past :
    (unknownName.step "x" (unknownItem.field "name" nameClient).2).2.pendingPaths
        = [.ofFields ["item", "name"], .ofFields ["item", "name", "x"]] ∧
      ¬∀ (s : Schema) (c₀ c : Client) (uses : List Use) (history : History)
        (held : List Traversal), c₀.schema = some s → Journal c₀ uses history held c →
          ∀ path added, .register path added ∈ history → s.LeadsToLeaf path.fields := by
  refine ⟨rfl, fun hleads => ?_⟩
  have hname := unknownItem_journal.useOf (.field unknownItem "name") rfl List.mem_cons_self
  have hpast := hname.useOf (.step unknownName "x") rfl List.mem_cons_self
  have hx := hleads itemNames _ _ _ _ _ rfl hpast (.ofFields ["item", "name", "x"]) true
    List.mem_cons_self
  exact hx.proper ["item", "name"] ["x"] rfl (List.cons_ne_nil _ _) rfl

end Journal

end GraphWalk
