import GraphWalk.Json.Written

/-!
# Records

A record holds its fields by their names, or in their order.  It is told by an object, which
may hold other members beside the fields, or by a list, which holds the fields alone.  A name
that is told twice tells nothing: no field may be given more than once.

## Main definitions

* `Dict.only?` — the one entry of a name.
* `Record`, `Record.fields?` — a record, and its fields.
* `Record.tagged?` — the tag of a tagged record.
* `Json.record?`, `Written.record?` — the record that a value tells, and one as it is written.
-/

namespace GraphWalk

/-- The entry of a name.  None when there are several. -/
def Dict.only? {α : Type} (entries : List (String × α)) (name : String) : Option α :=
  match entries.filter fun entry => entry.1 == name with
  | [entry] => some entry.2
  | _ => none

/-- Fields by their names, or in their order. -/
inductive Record (α : Type)
  /-- Members, in the order in which they are met. -/
  | named (members : List (String × α))
  /-- Items without names. -/
  | listed (items : List α)
  deriving Inhabited, Repr

/-- The fields of a record.  Each name is met once, and others may stand beside them; items are as
many as there are fields. -/
def Record.fields? {α : Type} (names : List String) : Record α → Option (List α)
  | .named members => names.mapM (Dict.only? members)
  | .listed items => if items.length = names.length then some items else none

namespace Json

/-- The text that a value is. -/
def string? : Json → Option String
  | .string s => some s
  | _ => none

/-- The truth value that a value is. -/
def bool? : Json → Option Bool
  | .bool b => some b
  | _ => none

/-- The texts that a list holds; none when it holds anything else. -/
def strings? : Json → Option (List String)
  | .array items => items.mapM string?
  | _ => none

/-- The record that a value tells. -/
def record? : Json → Option (Record Json)
  | .object members => some (.named members)
  | .array items => some (.listed items)
  | _ => none

end Json

/-- The tag of a tagged record, and the record of its fields.  A list holds the tag first. -/
def Record.tagged? : Record Json → Option (String × Record Json)
  | .named members =>
    ((Dict.only? members "type").bind Json.string?).map fun tag => (tag, .named members)
  | .listed (tag :: items) => tag.string?.map fun tag => (tag, .listed items)
  | .listed [] => none

namespace Written

/-- The members by their names.  None when a name is no text. -/
def named? (members : List (List Nat × Written)) : Option (List (String × Written)) :=
  members.mapM fun member => (string? member.1).map fun name => (name, member.2)

/-- The record that is written.  What its fields tell is left open: of a field that nobody asks for
no more is known than that it is written. -/
def record? : Written → Option (Record Written)
  | .object members => (named? members).map .named
  | .array items => some (.listed items)
  | _ => none

end Written

end GraphWalk
