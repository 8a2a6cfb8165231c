import GraphWalk.Proofs.Document.Trees
import GraphWalk.Proofs.Selection.Levels

/-!
# A document determines its selection

Different selections have different documents.  A field that is asked for itself, one with a
selection below it and one with arguments beside a selection are written differently, even
where the selection or the arguments are empty, and a literal is written as no other value is.
Numbers count as far as their texts tell them apart.

## Main definitions

* `Selection.Proper` — the selections that a document is meant for.
* `Json.numbers` — the numbers in a value.
* `Number.ToldApart` — different numbers have different texts.

## Main results

* `QuerySyntax.valueOf_inj` — a literal determines its value.
* `Document.text_inj` — **a document determines its selection.**
-/

namespace GraphWalk

/-! ### Numbers in a value -/

/-- Of two numbers, one from either list, the texts are different unless the numbers are equal. -/
def Number.ToldApart (ms ns : List Number) : Prop := ∀ m ∈ ms, ∀ n ∈ ns, m.chars = n.chars → m = n

namespace Json

mutual

/-- The numbers in a value, those at any depth included. -/
def numbers : Json → List Number
  | .number n => [n]
  | .array items => itemNumbers items
  | .object members => memberNumbers members
  | _ => []

/-- The numbers in the items of a list. -/
def itemNumbers : List Json → List Number
  | [] => []
  | item :: items => item.numbers ++ itemNumbers items

/-- The numbers in the members of an object. -/
def memberNumbers : List (String × Json) → List Number
  | [] => []
  | (_, value) :: members => value.numbers ++ memberNumbers members

end

end Json

namespace Number

variable {ms ms' ns ns' : List Number}

theorem ToldApart.left (h : ToldApart (ms ++ ms') (ns ++ ns')) : ToldApart ms ns :=
  fun m hm n hn => h m (List.mem_append_left _ hm) n (List.mem_append_left _ hn)

theorem ToldApart.right (h : ToldApart (ms ++ ms') (ns ++ ns')) : ToldApart ms' ns' :=
  fun m hm n hn => h m (List.mem_append_right _ hm) n (List.mem_append_right _ hn)

end Number

/-! ### Literals -/

namespace QuerySyntax

open Json Number

mutual

/-- A literal determines its value. -/
theorem valueOf_inj : ∀ v w : Json, ToldApart v.numbers w.numbers → valueOf v = valueOf w → v = w
  | .null, w, _, h => by
    cases w with
    | null => rfl
    | bool b => cases b <;> exact absurd (Value.name.inj h) (by decide)
    | _ => cases h
  | .bool true, w, _, h => by
    cases w with
    | null => exact absurd (Value.name.inj h) (by decide)
    | bool b =>
      cases b with
      | true => rfl
      | false => exact absurd (Value.name.inj h) (by decide)
    | _ => cases h
  | .bool false, w, _, h => by
    cases w with
    | null => exact absurd (Value.name.inj h) (by decide)
    | bool b =>
      cases b with
      | true => exact absurd (Value.name.inj h) (by decide)
      | false => rfl
    | _ => cases h
  | .number m, w, happart, h => by
    cases w with
    | number n =>
      have htext : m.chars = n.chars := Value.number.inj h
      rw [happart m List.mem_cons_self n List.mem_cons_self htext]
    | bool b => cases b <;> cases h
    | _ => cases h
  | .string s, w, _, h => by
    cases w with
    | string t => rw [Value.quoted.inj h]
    | bool b => cases b <;> cases h
    | _ => cases h
  | .array items, w, happart, h => by
    cases w with
    | array others => rw [valuesOf_inj items others happart (Value.list.inj h)]
    | bool b => cases b <;> cases h
    | _ => cases h
  | .object members, w, happart, h => by
    cases w with
    | object others => rw [namedValuesOf_inj members others happart (Value.object.inj h)]
    | bool b => cases b <;> cases h
    | _ => cases h

theorem valuesOf_inj : ∀ items others : List Json,
    ToldApart (itemNumbers items) (itemNumbers others) → valuesOf items = valuesOf others →
      items = others
  | [], [], _, _ => rfl
  | [], _ :: _, _, h => nomatch h
  | _ :: _, [], _, h => nomatch h
  | item :: items, other :: others, happart, h => by
    obtain ⟨hitem, hitems⟩ := List.cons.inj h
    rw [valueOf_inj item other happart.left hitem, valuesOf_inj items others happart.right hitems]

theorem namedValuesOf_inj : ∀ members others : List (String × Json),
    ToldApart (memberNumbers members) (memberNumbers others) →
      namedValuesOf members = namedValuesOf others → members = others
  | [], [], _, _ => rfl
  | [], (_, _) :: _, _, h => nomatch h
  | (_, _) :: _, [], _, h => nomatch h
  | (name, value) :: members, (other, found) :: others, happart, h => by
    obtain ⟨hmember, hmembers⟩ := List.cons.inj h
    obtain ⟨hname, hvalue⟩ := Prod.mk.inj hmember
    rw [hname, valueOf_inj value found happart.left hvalue,
      namedValuesOf_inj members others happart.right hmembers]

end

end QuerySyntax

/-! ### Selections that a document is meant for -/

namespace Selection

mutual

/-- Every member has a name of the query language and asks for something. -/
inductive Proper : Dict Json → Prop
  /-- Nothing is asked for. -/
  | nil : Proper []
  /-- One more field. -/
  | cons {name : String} {value : Json} {members : Dict Json} (hname : Document.IsName name)
      (hvalue : ProperEntry value) (hmembers : Proper members) : Proper ((name, value) :: members)

/-- What stands under the name of a field. -/
inductive ProperEntry : Json → Prop
  /-- The field is asked for itself. -/
  | chosen : ProperEntry (.bool true)
  /-- There is a selection below the field, and nothing that would be taken for arguments. -/
  | nested {members : Dict Json} (hmembers : Proper members)
      (hplain : ∀ args, Dict.get? members argumentsName ≠ some (.object args)) :
      ProperEntry (.object members)
  /-- There are arguments beside a selection, which may be empty. -/
  | given {args selected : Dict Json} (hargs : Json.NamedMembers args)
      (hselected : Proper selected) :
      ProperEntry (.object [(selectionName, .object selected), (argumentsName, .object args)])

end

mutual

theorem Proper.named {members : Dict Json} : Proper members → Json.NamedMembers members
  | .nil => trivial
  | .cons hname hvalue hmembers => ⟨hname, hvalue.named, hmembers.named⟩

theorem ProperEntry.named {value : Json} : ProperEntry value → value.Named
  | .chosen => trivial
  | .nested hmembers _ => hmembers.named
  | .given hargs hselected =>
    ⟨isName_selectionName, hselected.named, isName_argumentsName, hargs, trivial⟩

end

end Selection

/-! ### Fields -/

namespace Field

open Selection QuerySyntax

variable {name : String} {value : Json}

/-- The field of a member. -/
def ofEntry (name : String) : Json → Field
  | .object child => ofChild name child
  | _ => .mk name none none

/-- A member that asks for something has its field. -/
theorem ofMembers_cons (h : ProperEntry value) (members : Dict Json) :
    ofMembers ((name, value) :: members) = ofEntry name value :: ofMembers members := by
  cases h with
  | chosen =>
    rw [ofMembers]
    rfl
  | nested hmembers hplain => rw [ofMembers, ofEntry]
  | given hargs hselected => rw [ofMembers, ofEntry]

end Field

namespace Selection

open GraphWalk.Field QuerySyntax Json Number

variable {name : String} {members others args selected found : Dict Json}

theorem nodeOf_chosen (name : String) :
    nodeOf (ofEntry name (.bool true)) = .mk name none none := rfl

theorem nodeOf_nested (name : String)
    (h : ∀ args, Dict.get? members argumentsName ≠ some (.object args)) :
    nodeOf (ofEntry name (.object members))
      = .mk name none (some (nodesOf (ofMembers members))) := by
  rw [ofEntry, ofChild_of_plain name h]
  rfl

/-- The selection beside arguments, which is left out when it is empty. -/
def selectedNodes (selected : Dict Json) : Option (List Node) :=
  if selected = [] then none else some (nodesOf (ofMembers selected))

theorem nodeOf_given (name : String) (args selected : Dict Json) :
    nodeOf (ofEntry name
        (.object [(selectionName, .object selected), (argumentsName, .object args)]))
      = .mk name (some (namedValuesOf args)) (selectedNodes selected) := by
  have hargs : Dict.get? [(selectionName, Json.object selected), (argumentsName, .object args)]
      argumentsName = some (.object args) := rfl
  have hselected : child [(selectionName, .object selected), (argumentsName, .object args)]
      selectionName = selected := rfl
  rw [ofEntry, ofChild_of_arguments name hargs, hselected, selectedNodes]
  split <;> rfl

/-- The selection that is left out is the empty one, which has no fields. -/
theorem nodesOf_eq_of_selectedNodes (h : selectedNodes selected = selectedNodes found) :
    nodesOf (ofMembers selected) = nodesOf (ofMembers found) := by
  rw [selectedNodes, selectedNodes] at h
  split at h
  · next hselected =>
    split at h
    · next hfound => rw [hselected, hfound]
    · cases h
  · split at h
    · cases h
    · exact Option.some.inj h

mutual

/-- Members are told from their fields. -/
theorem Proper.eq_of_nodesOf {a : Dict Json} : Proper a → ∀ {b : Dict Json}, Proper b →
    ToldApart (memberNumbers a) (memberNumbers b) →
      nodesOf (ofMembers a) = nodesOf (ofMembers b) → a = b
  | .nil, _, .nil, _, _ => rfl
  | .nil, _, .cons _ hvalue _, _, h => by
    rw [ofMembers_cons hvalue, ofMembers] at h
    cases h
  | .cons _ hvalue _, _, .nil, _, h => by
    rw [ofMembers_cons hvalue, ofMembers] at h
    cases h
  | .cons _ hvalue hmembers, _, .cons _ hfound hothers, happart, h => by
    rw [ofMembers_cons hvalue, ofMembers_cons hfound] at h
    obtain ⟨hnode, hnodes⟩ := List.cons.inj h
    obtain ⟨hname, heq⟩ := hvalue.eq_of_nodeOf hfound happart.left hnode
    rw [hname, heq, hmembers.eq_of_nodesOf hothers happart.right hnodes]

/-- What stands under a name is told from its field. -/
theorem ProperEntry.eq_of_nodeOf {v : Json} : ProperEntry v →
    ∀ {w : Json} {name other : String}, ProperEntry w → ToldApart v.numbers w.numbers →
      nodeOf (ofEntry name v) = nodeOf (ofEntry other w) → name = other ∧ v = w
  | .chosen, _, name, other, hw, happart, h => by
    rw [nodeOf_chosen] at h
    cases hw with
    | chosen => exact ⟨(Node.mk.inj h).1, rfl⟩
    | nested hothers hplain =>
      rw [nodeOf_nested other hplain] at h
      cases h
    | given hfound hothers =>
      rw [nodeOf_given] at h
      cases h
  | .nested hmembers hplain, _, name, other, hw, happart, h => by
    rw [nodeOf_nested name hplain] at h
    cases hw with
    | chosen => cases h
    | nested hothers hplain' =>
      rw [nodeOf_nested other hplain'] at h
      obtain ⟨hname, -, hnodes⟩ := Node.mk.inj h
      rw [hmembers.eq_of_nodesOf hothers happart (Option.some.inj hnodes)]
      exact ⟨hname, rfl⟩
    | given hfound hothers =>
      rw [nodeOf_given] at h
      cases h
  | .given hargs hselected, _, name, other, hw, happart, h => by
    rw [nodeOf_given] at h
    cases hw with
    | chosen => cases h
    | nested hothers hplain =>
      rw [nodeOf_nested other hplain] at h
      cases h
    | given hfound hothers =>
      rw [nodeOf_given] at h
      obtain ⟨hname, hmembers, hnodes⟩ := Node.mk.inj h
      rw [namedValuesOf_inj _ _ happart.right.left (Option.some.inj hmembers),
        hselected.eq_of_nodesOf hothers happart.left (nodesOf_eq_of_selectedNodes hnodes)]
      exact ⟨hname, rfl⟩

end

end Selection

namespace Document

open QuerySyntax Selection

/-- **A document determines its selection**, as far as the texts of the numbers in it determine the
numbers. -/
theorem text_inj {a b : Dict Json} (ha : Proper a) (hb : Proper b)
    (hnumbers : Number.ToldApart (Json.object a).numbers (Json.object b).numbers) :
    text (.object a) = text (.object b) ↔ a = b := by
  constructor
  · intro h
    have hlex := lex_text ha.named
    rw [h, lex_text hb.named] at hlex
    exact ha.eq_of_nodesOf hb hnumbers (queryLexemes_injective (Option.some.inj hlex).symm)
  · exact fun h => congrArg (fun members => text (.object members)) h

/-- Brackets inside a quoted text are not taken for those of the document. -/
theorem text_inj_brackets :
    let item (title : String) (selected : Dict Json) : Dict Json :=
      [("item", .object [(selectionName, .object selected),
        (argumentsName, .object [("id", .number (.int 5)), ("title", .string title)])])]
    let quoted := item "x\") \x7b name \x7d" []
    let plain := item "x" [("name", .bool true)]
    Proper quoted ∧ Proper plain ∧ text (.object quoted) ≠ text (.object plain) := by
  intro item quoted plain
  have hargs : ∀ title : String,
      Json.NamedMembers [("id", .number (.int 5)), ("title", .string title)] :=
    fun _ => ⟨by decide, trivial, by decide, trivial, trivial⟩
  have hquoted : Proper quoted := .cons (by decide) (.given (hargs _) .nil) .nil
  have hplain : Proper plain :=
    .cons (by decide) (.given (hargs _) (.cons (by decide) .chosen .nil)) .nil
  have hapart : Number.ToldApart (Json.object quoted).numbers (Json.object plain).numbers := by
    have hall : ∀ (title : String) (selected : Dict Json), Json.memberNumbers selected = [] →
        (Json.object (item title selected)).numbers = [.int 5] := by
      intro title selected hselected
      simp only [item, Json.numbers, Json.memberNumbers, hselected, List.append_nil,
        List.nil_append]
    rw [hall _ _ rfl, hall _ _ rfl]
    intro m hm n hn _
    rw [List.mem_singleton.1 hm, List.mem_singleton.1 hn]
  refine ⟨hquoted, hplain, fun h => ?_⟩
  have hequal : item "x\") \x7b name \x7d" [] = item "x" [("name", .bool true)] :=
    (text_inj hquoted hplain hapart).1 h
  cases hequal

end Document

end GraphWalk
