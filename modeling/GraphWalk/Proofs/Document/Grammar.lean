import GraphWalk.Proofs.Document.Lexer

/-!
# The grammar of queries

A query is the word `query` and a selection of fields between braces, each a name, perhaps
with arguments between parentheses, perhaps with a selection of its own.  Neither the
arguments nor a selection may be empty.  What one can write is a tree, and the lexemes of a
tree determine it: a bracket that opens says what follows, and what stands behind a field
opens none.

## Main definitions

* `QuerySyntax.Value`, `QuerySyntax.Node` — literals and fields as they are written.
* `QuerySyntax.Value.lexemes`, `QuerySyntax.Node.lexemes` — how they are written.
* `QuerySyntax.Value.Valid`, `QuerySyntax.Node.Valid` — what the grammar asks of them.
* `QuerySyntax.IsQuery` — **the texts that are queries.**

## Main results

* `QuerySyntax.queryLexemes_injective` — a query has one tree only.
-/

namespace GraphWalk

namespace QuerySyntax

/-! ### What can be written -/

/-- A literal. -/
inductive Value
  /-- A name: `true`, `false`, `null`, or that of a value of an enum. -/
  | name (text : String)
  /-- A number. -/
  | number (chars : List Char)
  /-- A quoted text. -/
  | quoted (text : String)
  /-- A list between brackets. -/
  | list (items : List Value)
  /-- Named values between braces. -/
  | object (members : List (String × Value))
  deriving Inhabited, Repr

/-- A field of a query. -/
inductive Node
  /-- A name, the arguments if there are parentheses, and the fields of the selection if there are
  braces. -/
  | mk (name : String) (arguments : Option (List (String × Value))) (selected : Option (List Node))
  deriving Inhabited, Repr

mutual

/-- How a literal is written. -/
def Value.lexemes : Value → List Lexeme
  | .name text => [.name text]
  | .number chars => [.number chars]
  | .quoted text => [.quoted text]
  | .list items => .punctuator '[' :: (itemLexemes items ++ [.punctuator ']'])
  | .object members => .punctuator '\x7b' :: (memberLexemes members ++ [.punctuator '\x7d'])

/-- How the items of a list are written. -/
def itemLexemes : List Value → List Lexeme
  | [] => []
  | item :: items => item.lexemes ++ itemLexemes items

/-- How named values are written. -/
def memberLexemes : List (String × Value) → List Lexeme
  | [] => []
  | (name, value) :: members =>
    .name name :: .punctuator ':' :: (value.lexemes ++ memberLexemes members)

end

/-- How the arguments of a field are written. -/
def argumentLexemes : Option (List (String × Value)) → List Lexeme
  | none => []
  | some members => .punctuator '(' :: (memberLexemes members ++ [.punctuator ')'])

mutual

/-- How a field is written. -/
def Node.lexemes : Node → List Lexeme
  | .mk name arguments selected =>
    .name name :: (argumentLexemes arguments ++ selectionLexemes selected)

/-- How the selection of a field is written. -/
def selectionLexemes : Option (List Node) → List Lexeme
  | none => []
  | some nodes => .punctuator '\x7b' :: selectedLexemes nodes

/-- How the fields of a selection are written, its opening brace aside. -/
def selectedLexemes : List Node → List Lexeme
  | [] => [.punctuator '\x7d']
  | node :: nodes => node.lexemes ++ selectedLexemes nodes

end

/-- How a query is written. -/
def queryLexemes (nodes : List Node) : List Lexeme :=
  .name "query" :: .punctuator '\x7b' :: selectedLexemes nodes

/-! ### What the grammar asks for -/

mutual

/-- Names are names and numbers are numerals, at every depth. -/
def Value.Valid : Value → Prop
  | .name text => Document.IsName text
  | .number chars => IsNumeral chars
  | .quoted _ => True
  | .list items => ValidItems items
  | .object members => ValidMembers members

/-- Every item is valid. -/
def ValidItems : List Value → Prop
  | [] => True
  | item :: items => item.Valid ∧ ValidItems items

/-- Every named value is valid. -/
def ValidMembers : List (String × Value) → Prop
  | [] => True
  | (name, value) :: members => Document.IsName name ∧ value.Valid ∧ ValidMembers members

end

mutual

/-- Neither the arguments nor the selection are empty where they are given, at every depth. -/
def Node.Valid : Node → Prop
  | .mk name arguments selected => Document.IsName name ∧
      (∀ members, arguments = some members → members ≠ [] ∧ ValidMembers members) ∧
      match selected with
      | none => True
      | some nodes => nodes ≠ [] ∧ ValidNodes nodes

/-- Every field is valid. -/
def ValidNodes : List Node → Prop
  | [] => True
  | node :: nodes => node.Valid ∧ ValidNodes nodes

end

/-- **The texts that are queries**: the word `query` and a selection of at least one field. -/
def IsQuery (text : String) : Prop :=
  ∃ nodes, nodes ≠ [] ∧ ValidNodes nodes ∧ lex .between text.toList = some (queryLexemes nodes)

/-! ### Lexemes determine what is written -/

variable {r r' : List Lexeme}

/-- No literal begins with a bracket that closes. -/
theorem Value.exists_lexemes (v : Value) :
    ∃ first rest, v.lexemes = first :: rest ∧ first ≠ .punctuator ']' := by
  cases v with
  | name text => exact ⟨_, _, rfl, nofun⟩
  | number chars => exact ⟨_, _, rfl, nofun⟩
  | quoted text => exact ⟨_, _, rfl, nofun⟩
  | list items => exact ⟨_, _, rfl, by decide⟩
  | object members => exact ⟨_, _, rfl, by decide⟩

/-- A list does not end where an item stands. -/
theorem closing_ne_item (item : Value) (items : List Value) (rest : List Lexeme) :
    .punctuator ']' :: r ≠ itemLexemes (item :: items) ++ rest := by
  obtain ⟨first, more, hitem, hne⟩ := item.exists_lexemes
  rw [itemLexemes, hitem]
  exact fun h => hne (List.cons.inj h).1.symm

/-- Between two brackets, and behind them, the same is written. -/
theorem between_of_append {left right : Lexeme} {inner inner' : List Lexeme}
    (h : left :: (inner ++ [right]) ++ r = left :: (inner' ++ [right]) ++ r') :
    inner ++ right :: r = inner' ++ right :: r' := by
  rw [List.cons_append, List.cons_append, List.append_assoc, List.append_assoc] at h
  exact (List.cons.inj h).2

mutual

/-- A literal is determined by its lexemes, whatever stands behind them. -/
theorem Value.lexemes_append_inj : ∀ (v w : Value) (r r' : List Lexeme),
    v.lexemes ++ r = w.lexemes ++ r' → v = w ∧ r = r'
  | .name text, w, r, r', h => by
    cases w with
    | name other =>
      obtain ⟨hname, hrest⟩ := List.cons.inj h
      cases hname
      exact ⟨rfl, hrest⟩
    | _ => cases (List.cons.inj h).1
  | .number chars, w, r, r', h => by
    cases w with
    | number other =>
      obtain ⟨hnumber, hrest⟩ := List.cons.inj h
      cases hnumber
      exact ⟨rfl, hrest⟩
    | _ => cases (List.cons.inj h).1
  | .quoted text, w, r, r', h => by
    cases w with
    | quoted other =>
      obtain ⟨hquoted, hrest⟩ := List.cons.inj h
      cases hquoted
      exact ⟨rfl, hrest⟩
    | _ => cases (List.cons.inj h).1
  | .list items, w, r, r', h => by
    cases w with
    | list others =>
      obtain ⟨rfl, hrest⟩ := itemLexemes_append_inj items others r r' (between_of_append h)
      exact ⟨rfl, hrest⟩
    | _ => cases (List.cons.inj h).1
  | .object members, w, r, r', h => by
    cases w with
    | object others =>
      obtain ⟨rfl, hrest⟩ :=
        memberLexemes_append_inj '\x7d' members others r r' (between_of_append h)
      exact ⟨rfl, hrest⟩
    | _ => cases (List.cons.inj h).1

/-- So are the items of a list up to its end. -/
theorem itemLexemes_append_inj : ∀ (items others : List Value) (r r' : List Lexeme),
    itemLexemes items ++ .punctuator ']' :: r = itemLexemes others ++ .punctuator ']' :: r' →
      items = others ∧ r = r'
  | [], [], r, r', h => ⟨rfl, (List.cons.inj h).2⟩
  | [], other :: others, r, r', h => absurd h (closing_ne_item other others _)
  | item :: items, [], r, r', h => absurd h.symm (closing_ne_item item items _)
  | item :: items, other :: others, r, r', h => by
    rw [itemLexemes, itemLexemes, List.append_assoc, List.append_assoc] at h
    obtain ⟨rfl, hrest⟩ := item.lexemes_append_inj other _ _ h
    obtain ⟨rfl, hbehind⟩ := itemLexemes_append_inj items others r r' hrest
    exact ⟨rfl, hbehind⟩

/-- So are named values up to the bracket behind them. -/
theorem memberLexemes_append_inj (close : Char) :
    ∀ (members others : List (String × Value)) (r r' : List Lexeme),
    memberLexemes members ++ .punctuator close :: r
      = memberLexemes others ++ .punctuator close :: r' → members = others ∧ r = r'
  | [], [], r, r', h => ⟨rfl, (List.cons.inj h).2⟩
  | [], (_, _) :: _, r, r', h => by cases (List.cons.inj h).1
  | (_, _) :: _, [], r, r', h => by cases (List.cons.inj h).1
  | (name, value) :: members, (other, found) :: others, r, r', h => by
    rw [memberLexemes, memberLexemes, List.cons_append, List.cons_append, List.cons_append,
      List.cons_append, List.append_assoc, List.append_assoc] at h
    obtain ⟨hname, htail⟩ := List.cons.inj h
    cases hname
    obtain ⟨rfl, hrest⟩ := value.lexemes_append_inj found _ _ (List.cons.inj htail).2
    obtain ⟨rfl, hbehind⟩ := memberLexemes_append_inj close members others r r' hrest
    exact ⟨rfl, hbehind⟩

end

/-- Neither arguments nor a selection begin here. -/
def Follows (r : List Lexeme) : Prop :=
  ∀ first ∈ r.head?, first ≠ .punctuator '(' ∧ first ≠ .punctuator '\x7b'

/-- What follows a field in a selection is another field or the end. -/
theorem follows_selectedLexemes (nodes : List Node) (r : List Lexeme) :
    Follows (selectedLexemes nodes ++ r) := by
  cases nodes with
  | nil =>
    intro first hfirst
    rw [← Option.some.inj hfirst]
    decide
  | cons node nodes =>
    obtain ⟨name, arguments, selected⟩ := node
    intro first hfirst
    rw [← Option.some.inj hfirst]
    exact ⟨nofun, nofun⟩

/-- Arguments are determined if none begin behind them. -/
theorem argumentLexemes_append_inj {arguments others : Option (List (String × Value))}
    (hr : ∀ first ∈ r.head?, first ≠ .punctuator '(')
    (hr' : ∀ first ∈ r'.head?, first ≠ .punctuator '(')
    (h : argumentLexemes arguments ++ r = argumentLexemes others ++ r') :
    arguments = others ∧ r = r' := by
  cases arguments with
  | none =>
    cases others with
    | none => exact ⟨rfl, h⟩
    | some others =>
      rw [argumentLexemes, List.nil_append] at h
      rw [h] at hr
      exact absurd rfl (hr _ rfl)
  | some members =>
    cases others with
    | none =>
      rw [argumentLexemes, argumentLexemes, List.nil_append] at h
      rw [← h] at hr'
      exact absurd rfl (hr' _ rfl)
    | some others =>
      obtain ⟨rfl, hrest⟩ := memberLexemes_append_inj ')' members others r r' (between_of_append h)
      exact ⟨rfl, hrest⟩

/-- No arguments begin with a selection, nor behind it. -/
theorem ne_of_mem_selectionLexemes (hr : Follows r) (selected : Option (List Node)) :
    ∀ first ∈ (selectionLexemes selected ++ r).head?, first ≠ .punctuator '(' := by
  cases selected with
  | none => exact fun first hfirst => (hr first hfirst).1
  | some nodes =>
    intro first hfirst
    rw [← Option.some.inj hfirst]
    decide

mutual

/-- A field is determined by its lexemes if what stands behind them is no part of it. -/
theorem Node.lexemes_append_inj : ∀ (n m : Node) (r r' : List Lexeme), Follows r → Follows r' →
    n.lexemes ++ r = m.lexemes ++ r' → n = m ∧ r = r'
  | .mk name arguments selected, .mk other others found, r, r', hr, hr', h => by
    rw [Node.lexemes, Node.lexemes, List.cons_append, List.cons_append, List.append_assoc,
      List.append_assoc] at h
    obtain ⟨hname, htail⟩ := List.cons.inj h
    cases hname
    obtain ⟨rfl, hselection⟩ := argumentLexemes_append_inj
      (ne_of_mem_selectionLexemes hr selected) (ne_of_mem_selectionLexemes hr' found) htail
    obtain ⟨rfl, hrest⟩ := selectionLexemes_append_inj selected found r r' hr hr' hselection
    exact ⟨rfl, hrest⟩

/-- So is the selection of a field. -/
theorem selectionLexemes_append_inj : ∀ (selected found : Option (List Node)) (r r' : List Lexeme),
    Follows r → Follows r' → selectionLexemes selected ++ r = selectionLexemes found ++ r' →
      selected = found ∧ r = r'
  | none, none, r, r', hr, hr', h => ⟨rfl, h⟩
  | none, some others, r, r', hr, hr', h => by
    rw [selectionLexemes, List.nil_append] at h
    rw [h] at hr
    exact absurd rfl (hr _ rfl).2
  | some nodes, none, r, r', hr, hr', h => by
    rw [selectionLexemes, selectionLexemes, List.nil_append] at h
    rw [← h] at hr'
    exact absurd rfl (hr' _ rfl).2
  | some nodes, some others, r, r', hr, hr', h => by
    obtain ⟨rfl, hrest⟩ := selectedLexemes_append_inj nodes others r r' (List.cons.inj h).2
    exact ⟨rfl, hrest⟩

/-- So are the fields of a selection up to its end. -/
theorem selectedLexemes_append_inj : ∀ (nodes others : List Node) (r r' : List Lexeme),
    selectedLexemes nodes ++ r = selectedLexemes others ++ r' → nodes = others ∧ r = r'
  | [], [], r, r', h => ⟨rfl, (List.cons.inj h).2⟩
  | [], .mk _ _ _ :: _, r, r', h => by
    rw [selectedLexemes, selectedLexemes, Node.lexemes] at h
    cases (List.cons.inj h).1
  | .mk _ _ _ :: _, [], r, r', h => by
    rw [selectedLexemes, selectedLexemes, Node.lexemes] at h
    cases (List.cons.inj h).1
  | node :: nodes, other :: others, r, r', h => by
    rw [selectedLexemes, selectedLexemes, List.append_assoc, List.append_assoc] at h
    obtain ⟨rfl, hrest⟩ := node.lexemes_append_inj other _ _ (follows_selectedLexemes nodes r)
      (follows_selectedLexemes others r') h
    obtain ⟨rfl, hbehind⟩ := selectedLexemes_append_inj nodes others r r' hrest
    exact ⟨rfl, hbehind⟩

end

/-- A query has one tree only. -/
theorem queryLexemes_injective : Function.Injective queryLexemes := by
  intro nodes others h
  have hselected := (List.cons.inj (List.cons.inj h).2).2
  rw [← List.append_nil (selectedLexemes nodes), ← List.append_nil (selectedLexemes others)]
    at hselected
  exact (selectedLexemes_append_inj nodes others [] [] hselected).1

end QuerySyntax

end GraphWalk
