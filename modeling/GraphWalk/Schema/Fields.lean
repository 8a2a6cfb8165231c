import GraphWalk.Text.Blank
import GraphWalk.Text.Word

/-!
# Field declarations

The body of a type, and the list of a field's arguments, are read field by field.
Several fields may share a line; commas, bars and quoted descriptions between them
are passed over, and so is whatever does not make a field.

## Main definitions

* `TypeUse` — a type as it is mentioned: its name, and whether brackets stood around it.
* `FieldDecl` — a declared field with its arguments.
* `FieldDecl.typeUse?`, `FieldDecl.afterDefault` — the type of a field, and its default value.
* `FieldDecl.Item`, `FieldDecl.item` — what stands next in a text: a field, or nothing that
  makes one.
* `FieldDecl.read` — the fields of a text.
-/

namespace GraphWalk

/-- A type as it is mentioned. -/
structure TypeUse where
  /-- The name inside all brackets. -/
  name : String
  /-- There are brackets around the name. -/
  isList : Bool := false
  deriving DecidableEq, Repr, Inhabited

/-- A declared field. -/
inductive FieldDecl
  /-- A name, a type, and the arguments if the field takes any. -/
  | mk (name : String) (type : TypeUse) (arguments : Option (List FieldDecl))
  deriving Repr, Inhabited

namespace FieldDecl

open Text

/-- The name of a field. -/
def name : FieldDecl → String
  | .mk name _ _ => name

/-- The type of a field. -/
def type : FieldDecl → TypeUse
  | .mk _ type _ => type

/-- The arguments of a field. -/
def arguments : FieldDecl → Option (List FieldDecl)
  | .mk _ _ arguments => arguments

/-! ### Tokens -/

/-- The rest of a quoted text, its opening quote already read: up to its closing quote, and after
it.  A backslash takes the next character with it. -/
def spanQuoted : List Char → List Char × List Char
  | [] => ([], [])
  | ['\\'] => (['\\'], [])
  | '\\' :: c :: cs => ('\\' :: c :: (spanQuoted cs).1, (spanQuoted cs).2)
  | '"' :: cs => (['"'], cs)
  | c :: cs => (c :: (spanQuoted cs).1, (spanQuoted cs).2)

theorem length_spanQuoted_le (cs : List Char) : (spanQuoted cs).2.length ≤ cs.length := by
  fun_induction spanQuoted cs <;> simp_all <;> omega

/-- The text after a quoted text whose opening quote is already read. -/
def afterQuoted (cs : List Char) : List Char := (spanQuoted cs).2

/-- The text from its next field on: blanks, commas, bars and quoted texts are passed over. -/
def dropTrivia (cs : List Char) : List Char :=
  match cs with
  | [] => []
  | c :: cs =>
    if isBlank c || c == ',' || c == '|' then dropTrivia cs
    else if c = '"' then dropTrivia (afterQuoted cs)
    else c :: cs
termination_by cs.length
decreasing_by
  · exact Nat.lt_succ_self _
  · exact Nat.lt_succ_of_le (length_spanQuoted_le _)

theorem length_dropTrivia_le (cs : List Char) : (dropTrivia cs).length ≤ cs.length := by
  fun_induction dropTrivia cs with
  | case1 => simp
  | case2 c cs h ih => simp only [List.length_cons]; omega
  | case3 cs h ih =>
    have := length_spanQuoted_le cs
    simp only [afterQuoted] at ih
    simp only [List.length_cons, afterQuoted]; omega
  | case4 => simp

/-- The name at the front of a text, possibly empty, and what follows it. -/
def spanName (cs : List Char) : List Char × List Char :=
  (cs.takeWhile isName, cs.dropWhile isName)

theorem length_spanName_le (cs : List Char) : (spanName cs).2.length ≤ cs.length :=
  (List.dropWhile_suffix isName).length_le

theorem length_spanName_lt {cs : List Char} (h : (spanName cs).1 ≠ []) :
    (spanName cs).2.length < cs.length := by
  cases cs with
  | nil => simp [spanName] at h
  | cons c cs =>
    by_cases hc : isName c
    · simp only [spanName, List.dropWhile_cons, hc, if_true, List.length_cons]
      exact Nat.lt_succ_of_le (length_spanName_le cs)
    · simp [spanName, hc] at h

/-- A text without one given character at its front. -/
def dropChar (token : Char) : List Char → List Char
  | [] => []
  | c :: cs => if c = token then cs else c :: cs

theorem length_dropChar_le (token : Char) (cs : List Char) :
    (dropChar token cs).length ≤ cs.length := by
  cases cs with
  | nil => simp [dropChar]
  | cons c cs => simp only [dropChar]; split <;> simp

/-- The text up to the bracket that closes one already read, and the text after it; `depth` more
brackets are open.  Quoted texts are taken whole.  Without the closing bracket everything belongs
to the inner text. -/
def spanBalanced (opening closing : Char) (depth : Nat) (cs : List Char) :
    List Char × List Char :=
  match cs with
  | [] => ([], [])
  | c :: cs =>
    if c = '"' then
      let quoted := spanQuoted cs
      let found := spanBalanced opening closing depth quoted.2
      ('"' :: (quoted.1 ++ found.1), found.2)
    else if c = opening then
      let found := spanBalanced opening closing (depth + 1) cs
      (c :: found.1, found.2)
    else if c = closing then
      match depth with
      | 0 => ([], cs)
      | depth + 1 =>
        let found := spanBalanced opening closing depth cs
        (c :: found.1, found.2)
    else
      let found := spanBalanced opening closing depth cs
      (c :: found.1, found.2)
termination_by cs.length
decreasing_by
  · exact Nat.lt_succ_of_le (length_spanQuoted_le _)
  all_goals exact Nat.lt_succ_self _

theorem length_spanQuoted (cs : List Char) :
    (spanQuoted cs).1.length + (spanQuoted cs).2.length = cs.length := by
  fun_induction spanQuoted cs <;> simp_all <;> omega

theorem length_spanBalanced_le (opening closing : Char) (depth : Nat) (cs : List Char) :
    (spanBalanced opening closing depth cs).1.length
      + (spanBalanced opening closing depth cs).2.length ≤ cs.length := by
  fun_induction spanBalanced opening closing depth cs with
  | case1 => simp
  | case2 depth cs quoted found ih =>
    have := length_spanQuoted cs
    simp only [List.length_cons, List.length_append, found, quoted] at *
    omega
  | case4 => simp
  | _ =>
    simp +zetaDelta only [List.length_cons] at *
    omega

/-! ### Types and default values -/

/-- The type at the front of a text, and what follows it.  Brackets may be nested, a closing one
may be missing, and an exclamation mark may stand after the name and after every bracket. -/
def typeUse? (cs : List Char) : Option (TypeUse × List Char) :=
  match h : dropBlanks cs with
  | '[' :: inner =>
    have hinner : inner.length < cs.length := by
      have := length_dropBlanks_le cs
      rw [h, List.length_cons] at this
      omega
    match typeUse? inner with
    | some (type, rest) =>
      some ({ type with isList := true },
        dropChar '!' (dropBlanks (dropChar ']' (dropBlanks rest))))
    | none => none
  | other =>
    let (name, rest) := spanName other
    if name.isEmpty then none
    else some ({ name := String.ofList name }, dropChar '!' (dropBlanks rest))
termination_by cs.length

theorem length_of_typeUse? {cs rest : List Char} {type : TypeUse}
    (h : typeUse? cs = some (type, rest)) : rest.length < cs.length := by
  fun_induction typeUse? cs generalizing type rest with
  | case1 cs inner hopen hlen type' rest' hinner ih =>
    have := ih hinner
    simp only [Option.some.injEq, Prod.mk.injEq] at h
    rw [← h.2]
    have h1 := length_dropChar_le '!' (dropBlanks (dropChar ']' (dropBlanks rest')))
    have h2 := length_dropBlanks_le (dropChar ']' (dropBlanks rest'))
    have h3 := length_dropChar_le ']' (dropBlanks rest')
    have h4 := length_dropBlanks_le rest'
    omega
  | case2 => simp at h
  | case3 => simp at h
  | case4 cs name rest' hname hnot hspan =>
    simp only [Option.some.injEq, Prod.mk.injEq] at h
    rw [← h.2]
    have h1 := length_dropChar_le '!' (dropBlanks rest')
    have h2 := length_dropBlanks_le rest'
    have h3 := length_dropBlanks_le cs
    have h4 := @length_spanName_lt (dropBlanks cs) (by rw [hspan]; simpa using hname)
    rw [hspan] at h4
    simp only at h4
    omega

/-- The character ends a default value that stands without brackets and quotes. -/
def endsDefault (c : Char) : Bool :=
  isBlank c || c == ',' || c == ')'

/-- The text after a default value whose equals sign is already read. -/
def afterDefaultValue : List Char → List Char
  | '"' :: cs => afterQuoted cs
  | '[' :: cs => (spanBalanced '[' ']' 0 cs).2
  | '\x7b' :: cs => (spanBalanced '\x7b' '\x7d' 0 cs).2
  | cs => cs.dropWhile fun c => !endsDefault c

/-- The text after a default value, if one is given. -/
def afterDefault (cs : List Char) : List Char :=
  match dropBlanks cs with
  | '=' :: cs => afterDefaultValue (dropBlanks cs)
  | cs => cs

theorem length_afterDefaultValue_le (cs : List Char) :
    (afterDefaultValue cs).length ≤ cs.length := by
  unfold afterDefaultValue
  split
  · have := length_spanQuoted_le ‹_›
    simp only [afterQuoted, List.length_cons]; omega
  · have := length_spanBalanced_le '[' ']' 0 ‹_›
    simp only [List.length_cons]; omega
  · have := length_spanBalanced_le '\x7b' '\x7d' 0 ‹_›
    simp only [List.length_cons]; omega
  · exact (List.dropWhile_suffix _).length_le

theorem length_afterDefault_le (cs : List Char) : (afterDefault cs).length ≤ cs.length := by
  have h := length_dropBlanks_le cs
  unfold afterDefault
  split
  · next rest hrest =>
    have h1 := length_afterDefaultValue_le (dropBlanks rest)
    have h2 := length_dropBlanks_le rest
    rw [hrest, List.length_cons] at h
    omega
  · exact h

/-! ### Declarations -/

/-- The text between the parentheses that stand next, if any do, and the text after them. -/
def spanArguments (cs : List Char) : Option (List Char) × List Char :=
  match dropBlanks cs with
  | '(' :: inner =>
    ((spanBalanced '(' ')' 0 inner).1, (spanBalanced '(' ')' 0 inner).2)
  | cs => (none, cs)

theorem length_spanArguments_le (cs : List Char) : (spanArguments cs).2.length ≤ cs.length := by
  have h := length_dropBlanks_le cs
  unfold spanArguments
  split
  · next inner hopen =>
    have := length_spanBalanced_le '(' ')' 0 inner
    rw [hopen, List.length_cons] at h
    simp only; omega
  · exact h

theorem length_of_spanArguments {cs inner : List Char} (h : (spanArguments cs).1 = some inner) :
    inner.length < cs.length := by
  have hlen := length_dropBlanks_le cs
  unfold spanArguments at h
  split at h
  · next rest hopen =>
    have := length_spanBalanced_le '(' ')' 0 rest
    rw [hopen, List.length_cons] at hlen
    simp only [Option.some.injEq] at h
    rw [← h]
    omega
  · simp at h

/-- What stands next in the text of some fields. -/
inductive Item
  /-- Nothing that makes a field. -/
  | skipped
  /-- A field: its name, the text of its arguments if it takes any, and its type. -/
  | field (name : String) (arguments : Option (List Char)) (type : TypeUse)
  deriving Repr, Inhabited

/-- What stands next in a text without trivia at its front, and the text after it.  A name without
a colon, or with no type behind the colon, makes no field; neither does any other character. -/
def item (c : Char) (cs : List Char) : Item × List Char :=
  let name := spanName (c :: cs)
  if name.1.isEmpty then (.skipped, cs)
  else
    let arguments := spanArguments name.2
    match dropBlanks arguments.2 with
    | ':' :: rest =>
      match typeUse? rest with
      | some (type, rest) =>
        (.field (String.ofList name.1) arguments.1 type, afterDefault rest)
      | none => (.skipped, rest)
    | rest => (.skipped, rest)

theorem length_item_lt (c : Char) (cs : List Char) :
    (item c cs).2.length < (c :: cs).length := by
  simp only [item]
  split
  · simp
  · next hname =>
    have h1 : (spanName (c :: cs)).2.length < (c :: cs).length :=
      length_spanName_lt fun h => hname (by simp [h])
    have h2 := length_spanArguments_le (spanName (c :: cs)).2
    have h3 := length_dropBlanks_le (spanArguments (spanName (c :: cs)).2).2
    split
    · next rest hcolon =>
      rw [hcolon, List.length_cons] at h3
      split
      · next type rest' htype =>
        have h4 := length_of_typeUse? htype
        have h5 := length_afterDefault_le rest'
        simp only; omega
      · simp only; omega
    · simp only; omega

theorem length_of_item {c : Char} {cs inner : List Char} {name : String} {type : TypeUse}
    (h : (item c cs).1 = .field name (some inner) type) : inner.length < (c :: cs).length := by
  simp only [item] at h
  split at h
  · simp at h
  · split at h
    · split at h
      · simp only [Item.field.injEq] at h
        have h1 := length_of_spanArguments h.2.1
        have h2 := length_spanName_le (c :: cs)
        omega
      · simp at h
    · simp at h

/-- A declaration added to those before it: in place of one of the same name, otherwise last. -/
def put (decls : List FieldDecl) (decl : FieldDecl) : List FieldDecl :=
  if decls.any (·.name == decl.name) then
    decls.map fun old => if old.name == decl.name then decl else old
  else decls ++ [decl]

/-- Declarations with each name once: at the place of its first, as its last has it. -/
def collect (decls : List FieldDecl) : List FieldDecl :=
  decls.foldl put []

/-- Every declaration of a text, repeated names included. -/
def readAll (cs : List Char) : List FieldDecl :=
  match htrivia : dropTrivia cs with
  | [] => []
  | c :: rest =>
    have hafter : (item c rest).2.length < cs.length := by
      have := length_dropTrivia_le cs
      rw [htrivia] at this
      exact Nat.lt_of_lt_of_le (length_item_lt c rest) this
    match hitem : (item c rest).1 with
    | .skipped => readAll (item c rest).2
    | .field name none type => .mk name type none :: readAll (item c rest).2
    | .field name (some inner) type =>
      have hinner : inner.length < cs.length := by
        have := length_dropTrivia_le cs
        rw [htrivia] at this
        exact Nat.lt_of_lt_of_le (length_of_item hitem) this
      .mk name type (some (collect (readAll inner))) :: readAll (item c rest).2
termination_by cs.length

/-- The fields of a text. -/
def read (cs : List Char) : List FieldDecl :=
  collect (readAll cs)

end FieldDecl

end GraphWalk
