import GraphWalk.Proofs.Document.Grammar
import GraphWalk.Proofs.Document.Rendering

/-!
# The tree of a document

The text of a document is read as the lexemes of one tree, whose fields are those that its
selection stands for.  The blanks between them belong to nothing, and neither do the commas
between arguments.  So a document is a query exactly when its tree is valid.

## Main definitions

* `QuerySyntax.valueOf` — the literal of a value.
* `QuerySyntax.nodeOf`, `QuerySyntax.nodesOf` — fields as they are written.

## Main results

* `Document.lex_text` — **a document is read as its tree.**
* `Document.isQuery_text_iff` — a document is a query when its tree is valid.
-/

namespace GraphWalk

namespace QuerySyntax

mutual

/-- The literal of a value. -/
def valueOf : Json → Value
  | .null => .name "null"
  | .bool true => .name "true"
  | .bool false => .name "false"
  | .number n => .number n.chars
  | .string s => .quoted s
  | .array items => .list (valuesOf items)
  | .object members => .object (namedValuesOf members)

/-- The literals of the items of a list. -/
def valuesOf : List Json → List Value
  | [] => []
  | item :: items => valueOf item :: valuesOf items

/-- The literals of named values. -/
def namedValuesOf : List (String × Json) → List (String × Value)
  | [] => []
  | (name, value) :: members => (name, valueOf value) :: namedValuesOf members

end

mutual

/-- A field as it is written. -/
def nodeOf : Field → Node
  | .mk name args selected =>
    .mk name (args.map namedValuesOf)
      (match selected with
      | none => none
      | some fields => some (nodesOf fields))

/-- Fields as they are written. -/
def nodesOf : List Field → List Node
  | [] => []
  | field :: fields => nodeOf field :: nodesOf fields

end

theorem nodesOf_eq_map (fields : List Field) : nodesOf fields = fields.map nodeOf := by
  induction fields with
  | nil => rfl
  | cons field fields ih => rw [nodesOf, ih, List.map_cons]

/-! ### Texts are read as trees -/

/-- A name, a colon and a literal are read. -/
theorem reads_argument {name : String} (hname : Document.IsName name) {cs : List Char}
    {lexemes : List Lexeme} (h : Reads cs lexemes) :
    Reads (name.toList ++ ':' :: ' ' :: cs) (.name name :: .punctuator ':' :: lexemes) :=
  (reads_name hname).append (by decide) ((h.ignored (by decide)).punctuator (by decide))

mutual

/-- A literal is read. -/
theorem reads_chars : ∀ v : Json, v.Named → Reads (Literal.chars v) (valueOf v).lexemes
  | .null, _ => @reads_name "null" (by decide)
  | .bool true, _ => @reads_name "true" (by decide)
  | .bool false, _ => @reads_name "false" (by decide)
  | .number n, _ => reads_number n.isNumeral_chars
  | .string s, _ => reads_quoted s
  | .array items, h => by
    have hitems := (reads_itemChars items h).append (by decide)
      (reads_punctuator (c := ']') (by decide))
    rw [Literal.chars, valueOf, Value.lexemes]
    exact hitems.punctuator (by decide)
  | .object members, h => by
    have hmembers := (reads_argumentChars members h).append (by decide)
      (reads_punctuator (c := '\x7d') (by decide))
    rw [Literal.chars, valueOf, Value.lexemes]
    exact hmembers.punctuator (by decide)

/-- Items are read. -/
theorem reads_itemChars : ∀ items : List Json, Json.NamedItems items →
    Reads (Literal.itemChars items) (itemLexemes (valuesOf items))
  | [], _ => reads_nil
  | [item], h => by
    rw [valuesOf, valuesOf, itemLexemes, itemLexemes, List.append_nil]
    exact reads_chars item h.1
  | item :: next :: items, h => by
    have hmore := reads_itemChars (next :: items) h.2
    rw [Literal.itemChars, valuesOf, itemLexemes]
    · exact (reads_chars item h.1).append (by decide) hmore.comma
    · exact List.cons_ne_nil _ _

/-- Named values are read. -/
theorem reads_argumentChars : ∀ members : List (String × Json), Json.NamedMembers members →
    Reads (Literal.argumentChars members) (memberLexemes (namedValuesOf members))
  | [], _ => reads_nil
  | [(name, value)], h => by
    rw [namedValuesOf, namedValuesOf, memberLexemes, memberLexemes, List.append_nil]
    exact reads_argument h.1 (reads_chars value h.2.1)
  | (name, value) :: next :: members, h => by
    have hmore := reads_argumentChars (next :: members) h.2.2
    rw [Literal.argumentChars, namedValuesOf, memberLexemes]
    · exact reads_argument h.1 ((reads_chars value h.2.1).append (by decide) hmore.comma)
    · exact List.cons_ne_nil _ _

end

/-- A name is read, and the arguments behind it. -/
theorem reads_name_arguments {name : String} (hname : Document.IsName name)
    {args : Option (Dict Json)}
    (hargs : ∀ members, args = some members → Json.NamedMembers members) :
    Reads (name.toList ++ Field.argumentsChars args)
      (.name name :: argumentLexemes (args.map namedValuesOf)) := by
  cases args with
  | none =>
    rw [Field.argumentsChars, List.append_nil]
    exact reads_name hname
  | some members =>
    have hmembers := (reads_argumentChars members (hargs members rfl)).append (by decide)
      (reads_punctuator (c := ')') (by decide))
    rw [Field.argumentsChars]
    exact (reads_name hname).append (by decide) (hmembers.punctuator (by decide))

/-- A selection is read behind what selects. -/
theorem reads_selection {cs selected : List Char} {lexemes more : List Lexeme}
    (h : Reads cs lexemes) (hselected : Reads selected more) :
    Reads (cs ++ ' ' :: '\x7b' :: selected) (lexemes ++ .punctuator '\x7b' :: more) :=
  h.append (by decide) ((hselected.punctuator (by decide)).ignored (by decide))

mutual

/-- A field is read. -/
theorem reads_fieldChars : ∀ field : Field, field.Named → Reads field.chars (nodeOf field).lexemes
  | .mk name args none, h => by
    rw [Field.chars, List.append_nil, nodeOf, Node.lexemes, selectionLexemes, List.append_nil]
    exact reads_name_arguments h.1 h.2.1
  | .mk name args (some fields), h => by
    rw [Field.chars, nodeOf, Node.lexemes, selectionLexemes]
    exact reads_selection (reads_name_arguments h.1 h.2.1) (reads_selectedChars fields h.2.2)

/-- The fields of a selection are read. -/
theorem reads_selectedChars : ∀ fields : List Field, Field.NamedAll fields →
    Reads (Field.selectedChars fields) (selectedLexemes (nodesOf fields))
  | [], _ => (reads_punctuator (by decide)).ignored (by decide)
  | field :: fields, h => by
    have hfields := reads_selectedChars fields h.2
    obtain ⟨more, hmore⟩ := Document.exists_selectedChars fields
    rw [Field.selectedChars, nodesOf, selectedLexemes]
    rw [hmore] at hfields ⊢
    exact ((reads_fieldChars field h.1).append (by decide) hfields).ignored (by decide)

end

/-! ### Literals of named values are valid -/

mutual

theorem valid_valueOf : ∀ v : Json, v.Named → (valueOf v).Valid
  | .null, _ => by rw [valueOf, Value.Valid]; decide
  | .bool true, _ => by rw [valueOf, Value.Valid]; decide
  | .bool false, _ => by rw [valueOf, Value.Valid]; decide
  | .number n, _ => n.isNumeral_chars
  | .string _, _ => trivial
  | .array items, h => validItems_valuesOf items h
  | .object members, h => validMembers_namedValuesOf members h

theorem validItems_valuesOf : ∀ items : List Json, Json.NamedItems items →
    ValidItems (valuesOf items)
  | [], _ => trivial
  | item :: items, h => ⟨valid_valueOf item h.1, validItems_valuesOf items h.2⟩

theorem validMembers_namedValuesOf : ∀ members : List (String × Json), Json.NamedMembers members →
    ValidMembers (namedValuesOf members)
  | [], _ => trivial
  | (_, value) :: members, h =>
    ⟨h.1, valid_valueOf value h.2.1, validMembers_namedValuesOf members h.2.2⟩

end

end QuerySyntax

namespace Document

open QuerySyntax

variable {members : Dict Json}

/-- **A document is read as its tree.** -/
theorem lex_text (h : Json.NamedMembers members) :
    lex .between (text (.object members)).toList
      = some (queryLexemes (nodesOf (Field.ofMembers members))) := by
  have hquery : Reads "query".toList [.name "query"] := QuerySyntax.reads_name (by decide)
  have hselected := reads_selectedChars _ (Field.namedAll_ofMembers members h)
  have hread := reads_selection hquery hselected [] ends_nil
  rw [List.append_nil] at hread
  rw [text, String.toList_ofList]
  exact hread.trans (congrArg some (List.append_nil _))

/-- A document is a query when its tree is valid. -/
theorem isQuery_text_iff (h : Json.NamedMembers members) :
    IsQuery (text (.object members)) ↔ nodesOf (Field.ofMembers members) ≠ [] ∧
      ValidNodes (nodesOf (Field.ofMembers members)) := by
  constructor
  · rintro ⟨nodes, hne, hvalid, hlex⟩
    rw [lex_text h] at hlex
    obtain rfl := queryLexemes_injective (Option.some.inj hlex)
    exact ⟨hne, hvalid⟩
  · rintro ⟨hne, hvalid⟩
    exact ⟨_, hne, hvalid, lex_text h⟩

end Document

end GraphWalk
