import GraphWalk.Document
import GraphWalk.Text.Word

/-!
# Reading a document

A reader of query documents that knows their fields and how these are nested, and
passes over arguments.  It serves to say which fields a document selects without
reference to how the document was made.

## Main definitions

* `Document.IsName` — the names of the query language.
* `Document.Mode`, `Document.tokens` — the tokens of a document, arguments aside.
* `Document.nested` — the fields of a document, each below those that enclose it.
* `Document.Selects` — a document selects one field below the other.

## Main results

* `Document.reads_name`, `Document.reads_opening`, `Document.reads_closing` — one step of the
  reader.
-/

namespace GraphWalk

namespace Document

open Text

/-- A name of the query language: ASCII letters, digits and underscores, no digit in front. -/
def IsName (name : String) : Prop :=
  (∃ c cs, name.toList = c :: cs ∧ c.isDigit = false) ∧ ∀ c ∈ name.toList, isAsciiWord c = true

instance decidableIsName (name : String) : Decidable (IsName name) :=
  decidable_of_iff
    ((name.toList.head?.any fun c => !c.isDigit) = true ∧ name.toList.all isAsciiWord = true) <| by
    rw [IsName, List.all_eq_true]
    refine and_congr ?_ Iff.rfl
    cases name.toList with
    | nil => exact ⟨nofun, fun ⟨_, _, h, _⟩ => nomatch h⟩
    | cons c cs => simp

/-- A token of a document. -/
inductive Token
  /-- The name of a field, or the word at the beginning. -/
  | name (text : String)
  /-- A selection begins. -/
  | opening
  /-- A selection ends. -/
  | closing
  deriving DecidableEq, Repr

/-- Where a reader stands. -/
inductive Mode
  /-- Among fields, behind some characters of a name. -/
  | fields (word : List Char)
  /-- Between the parentheses around arguments. -/
  | arguments
  /-- In a quoted text among arguments. -/
  | quoted
  /-- Behind a backslash in a quoted text. -/
  | escaped
  deriving DecidableEq, Repr

/-- The name that some characters make up, if there are any. -/
def named (word : List Char) : List Token :=
  if word.isEmpty then [] else [.name (String.ofList word)]

/-- The tokens of a text.  Arguments are passed over. -/
def tokens : Mode → List Char → List Token
  | .fields word, [] => named word
  | _, [] => []
  | .fields word, c :: cs =>
    if isAsciiWord c then tokens (.fields (word ++ [c])) cs
    else
      named word ++
        if c = '(' then tokens .arguments cs
        else if c = '\x7b' then .opening :: tokens (.fields []) cs
        else if c = '\x7d' then .closing :: tokens (.fields []) cs
        else tokens (.fields []) cs
  | .arguments, c :: cs =>
    if c = ')' then tokens (.fields []) cs
    else if c = '"' then tokens .quoted cs
    else tokens .arguments cs
  | .quoted, c :: cs =>
    if c = '"' then tokens .arguments cs
    else if c = '\\' then tokens .escaped cs
    else tokens .quoted cs
  | .escaped, _ :: cs => tokens .quoted cs

/-- The fields that some tokens name, each at the end of the fields around it.  `here` are the
fields around the current selection, `outer` those around each selection that encloses it, and
`last` is the field named last. -/
def nested : (outer : List (List String)) → (here last : List String) → List Token →
    List (List String)
  | _, _, _, [] => []
  | outer, here, _, .name text :: ts => (here ++ [text]) :: nested outer here (here ++ [text]) ts
  | outer, here, last, .opening :: ts => nested (here :: outer) last last ts
  | enclosing :: outer, _, _, .closing :: ts => nested outer enclosing enclosing ts
  | [], _, _, .closing :: ts => nested [] [] [] ts

/-- The fields of a document, each at the end of the fields around it. -/
def fieldsOf (text : String) : List (List String) :=
  nested [] [] [] (tokens (.fields []) text.toList)

/-- A document selects some fields, each below the one before it. -/
def Selects (text : String) (names : List String) : Prop := ("query" :: names) ∈ fieldsOf text

instance (text : String) (names : List String) : Decidable (Selects text names) :=
  inferInstanceAs (Decidable (_ ∈ _))

/-! ### Steps of the reader -/

/-- The fields read from the rest of a text. -/
def reads (outer : List (List String)) (here last : List String) (cs : List Char) :
    List (List String) :=
  nested outer here last (tokens (.fields []) cs)

variable {outer : List (List String)} {here last : List String}

theorem reads_blank (cs : List Char) :
    reads outer here last (' ' :: cs) = reads outer here last cs := rfl

theorem reads_opening (cs : List Char) :
    reads outer here last ('\x7b' :: cs) = reads (here :: outer) last last cs := rfl

theorem reads_closing (enclosing : List String) (cs : List Char) :
    reads (enclosing :: outer) here last ('\x7d' :: cs) = reads outer enclosing enclosing cs := rfl

/-- The characters of a word are taken together. -/
theorem tokens_word {word : List Char} (hword : ∀ c ∈ word, isAsciiWord c = true)
    (before rest : List Char) :
    tokens (.fields before) (word ++ rest) = tokens (.fields (before ++ word)) rest := by
  induction word generalizing before with
  | nil => rw [List.nil_append, List.append_nil]
  | cons c word ih =>
    rw [List.cons_append, tokens, if_pos (hword c List.mem_cons_self),
      ih fun d hd => hword d (List.mem_cons_of_mem _ hd), List.append_assoc]
    rfl

/-- A word ends before any other character. -/
theorem tokens_wordEnd {word : List Char} (hne : word ≠ []) {c : Char} (hc : isAsciiWord c = false)
    (cs : List Char) :
    tokens (.fields word) (c :: cs)
      = .name (String.ofList word) :: tokens (.fields []) (c :: cs) := by
  have hnamed : named word = [.name (String.ofList word)] := by
    rw [named, if_neg]
    rw [List.isEmpty_iff]
    exact hne
  simp only [tokens, hc, Bool.false_eq_true, if_false, hnamed]
  rfl

/-- A name is read as a field. -/
theorem reads_name {name : String} (hname : IsName name) {c : Char} (hc : isAsciiWord c = false)
    (cs : List Char) :
    reads outer here last (name.toList ++ c :: cs)
      = (here ++ [name]) :: reads outer here (here ++ [name]) (c :: cs) := by
  have hne : name.toList ≠ [] := by
    obtain ⟨⟨d, ds, hcons, -⟩, -⟩ := hname
    rw [hcons]
    exact List.cons_ne_nil _ _
  rw [reads, tokens_word hname.2, List.nil_append, tokens_wordEnd hne hc, String.ofList_toList]
  rfl

end Document

end GraphWalk
