import GraphWalk.Json.Printer
import GraphWalk.Text.After

/-!
# Paths

A path is the way from the root of the graph to one of its values: the fields that
were followed, and the argument objects given to them.  Two paths are the same when
their fields are, whatever the arguments; the key of a path is the text of its
fields.

## Main definitions

* `Step`, `Path` — a field or an argument object, and a list of them.
* `Path.fields` — the names of the fields, in order.
* `Path.same`, `Path.hashInto` — equality of paths, and what a hasher is told of one.
* `Path.key` — the names joined by points.
* `Path.text` — the path with its arguments.
* `Path.isAtOrBelow` — one key is another one or lies below it.
-/

namespace GraphWalk

/-- One step of a path. -/
inductive Step
  /-- A field, by its name. -/
  | field (name : String)
  /-- The arguments of the field before it. -/
  | arguments (args : Dict Json)
  deriving Inhabited, Repr

/-- The name of a field step; none for arguments. -/
def Step.name? : Step → Option String
  | .field name => some name
  | .arguments _ => none

@[simp] theorem Step.name?_field (name : String) : (Step.field name).name? = some name := rfl

@[simp] theorem Step.name?_arguments (args : Dict Json) :
    (Step.arguments args).name? = none := rfl

/-- The steps from the root to a value. -/
structure Path where
  /-- The steps in the order taken. -/
  steps : List Step := []
  deriving Inhabited, Repr

namespace Path

/-- The path that leads nowhere. -/
def root : Path := {}

/-- The path of some fields without arguments. -/
def ofFields (names : List String) : Path := ⟨names.map .field⟩

/-- One field further. -/
def withField (p : Path) (name : String) : Path := ⟨p.steps ++ [.field name]⟩

/-- Arguments for the last field. -/
def withArguments (p : Path) (args : Dict Json) : Path := ⟨p.steps ++ [.arguments args]⟩

/-- The path without its last step. -/
def parent (p : Path) : Path := ⟨p.steps.dropLast⟩

/-- The names of the fields, in order. -/
def fields (p : Path) : List String := p.steps.filterMap Step.name?

/-- The name of the last field. -/
def lastField? (p : Path) : Option String := p.fields.getLast?

/-- The number of steps. -/
def length (p : Path) : Nat := p.steps.length

/-- There are no steps. -/
def isRoot (p : Path) : Bool := p.steps.isEmpty

/-- The paths follow the same fields. -/
def same (p q : Path) : Bool := p.fields == q.fields

/-- A hasher is told the names of the fields one after the other, and no arguments. -/
def hashInto (tell : σ → String → σ) (hasher : σ) (p : Path) : σ := p.fields.foldl tell hasher

@[simp] theorem fields_root : root.fields = [] := rfl

@[simp] theorem fields_ofFields (names : List String) : (ofFields names).fields = names := by
  simp only [fields, ofFields, List.filterMap_map]
  exact List.filterMap_some

@[simp] theorem fields_withField (p : Path) (name : String) :
    (p.withField name).fields = p.fields ++ [name] := by
  simp [fields, withField]

@[simp] theorem fields_withArguments (p : Path) (args : Dict Json) :
    (p.withArguments args).fields = p.fields := by
  simp [fields, withArguments]

@[simp] theorem parent_withField (p : Path) (name : String) : (p.withField name).parent = p := by
  simp [parent, withField]

@[simp] theorem parent_withArguments (p : Path) (args : Dict Json) :
    (p.withArguments args).parent = p := by
  simp [parent, withArguments]

/-! ### Equality and hashes -/

/-- Equal paths tell every hasher the same. -/
theorem hashInto_eq_of_same {p q : Path} (h : p.same q = true) (tell : σ → String → σ)
    (hasher : σ) : p.hashInto tell hasher = q.hashInto tell hasher := by
  rw [hashInto, hashInto, eq_of_beq h]

instance : BEq Path := ⟨same⟩

instance : Hashable Path := ⟨hashInto (fun state name => mixHash state (hash name)) 7⟩

instance : LawfulHashable Path := ⟨fun _ _ h => hashInto_eq_of_same h _ _⟩

/-! ### Keys -/

/-- What stands between the fields of a key. -/
def separator : Char := '.'

/-- Names joined by the separator. -/
def joined : List String → List Char
  | [] => []
  | [name] => name.toList
  | name :: names => name.toList ++ separator :: joined names

/-- The text that identifies a path: its fields joined by the separator. -/
def key (p : Path) : String := String.ofList (joined p.fields)

@[simp] theorem joined_nil : joined [] = [] := rfl

@[simp] theorem joined_singleton (name : String) : joined [name] = name.toList := rfl

@[simp] theorem joined_cons_cons (name next : String) (names : List String) :
    joined (name :: next :: names) = name.toList ++ separator :: joined (next :: names) := rfl

/-- Paths that follow the same fields have the same key. -/
theorem key_eq_of_fields_eq {p q : Path} (h : p.fields = q.fields) : p.key = q.key := by
  rw [key, key, h]

@[simp] theorem key_withArguments (p : Path) (args : Dict Json) :
    (p.withArguments args).key = p.key :=
  key_eq_of_fields_eq (fields_withArguments p args)

/-- One key is another one, or continues it with a further field.  Every key is at or below the
empty one. -/
def isAtOrBelow (candidate key : String) : Bool :=
  key.isEmpty ||
    match Text.after? key.toList candidate.toList with
    | some rest => rest.isEmpty || rest.head? == some separator
    | none => false

@[simp] theorem isAtOrBelow_self (key : String) : isAtOrBelow key key = true := by
  have h : Text.after? key.toList key.toList = some [] :=
    Text.after?_eq_some_iff.2 (List.append_nil _).symm
  simp [isAtOrBelow, h]

/-! ### Text -/

/-- A step as it is shown: a field behind the separator, arguments between parentheses. -/
def stepChars : Step → List Char
  | .field name => separator :: name.toList
  | .arguments args => '(' :: (Json.chars (.object args) ++ [')'])

/-- The first step as it is shown: a field stands without the separator. -/
def firstStepChars : Step → List Char
  | .field name => name.toList
  | .arguments args => stepChars (.arguments args)

/-- The path as it is shown, arguments included. -/
def chars (p : Path) : List Char :=
  match p.steps with
  | [] => []
  | step :: steps => firstStepChars step ++ steps.flatMap stepChars

/-- The path as it is shown, arguments included. -/
def text (p : Path) : String := String.ofList p.chars

@[simp] theorem text_root : root.text = "" := rfl

end Path

end GraphWalk
