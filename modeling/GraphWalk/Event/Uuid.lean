import GraphWalk.Text.After
import GraphWalk.Text.Hex

/-!
# Unique identifiers

A batch is known by a number of 32 hexadecimal digits.  It is written in five groups
with hyphens between them.  It is read in that form, bare, in braces or as a name, and
also without any hyphens.

## Main definitions

* `Uuid` — the identifiers.
* `Uuid.hyphenate`, `Uuid.dropHyphens?` — groups with hyphens between them.
* `Uuid.chars`, `Uuid.text` — the text of an identifier.
* `Uuid.read?` — the identifier that a text tells.
-/

namespace GraphWalk

/-- An identifier of 32 hexadecimal digits. -/
structure Uuid where
  /-- The digits, the most significant one first. -/
  digits : List (Fin 16)
  /-- There are 32 of them. -/
  length_digits : digits.length = 32
  deriving DecidableEq, Repr

namespace Uuid

instance : Inhabited Uuid := ⟨⟨List.replicate 32 0, List.length_replicate⟩⟩

/-! ### Groups -/

/-- Characters with a hyphen after each group; the last group is what is left. -/
def hyphenate : (sizes : List Nat) → List Char → List Char
  | [], cs => cs
  | size :: sizes, cs => cs.take size ++ '-' :: hyphenate sizes (cs.drop size)

/-- The characters of groups that have a hyphen after each but the last. -/
def dropHyphens? : (sizes : List Nat) → List Char → Option (List Char)
  | [], cs => some cs
  | size :: sizes, cs =>
    match cs.drop size with
    | '-' :: rest => (dropHyphens? sizes rest).map (cs.take size ++ ·)
    | _ => none

/-- The hyphens can be dropped again if there are characters for every group. -/
theorem dropHyphens?_hyphenate {sizes : List Nat} {cs : List Char}
    (h : sizes.foldr (· + ·) 0 ≤ cs.length) :
    dropHyphens? sizes (hyphenate sizes cs) = some cs := by
  induction sizes generalizing cs with
  | nil => rfl
  | cons size sizes ih =>
    rw [List.foldr_cons] at h
    have hsize : (cs.take size).length = size := by rw [List.length_take]; omega
    have hrest : sizes.foldr (· + ·) 0 ≤ (cs.drop size).length := by rw [List.length_drop]; omega
    simp only [hyphenate, dropHyphens?, List.drop_left' hsize, List.take_left' hsize, ih hrest,
      Option.map_some, List.take_append_drop]

/-- The sizes of the groups before the last one. -/
def groups : List Nat := [8, 4, 4, 4]

/-! ### Text -/

/-- The digits as characters. -/
def hexChars (u : Uuid) : List Char :=
  u.digits.map Text.hexDigit

/-- The text of an identifier. -/
def chars (u : Uuid) : List Char :=
  hyphenate groups u.hexChars

/-- The text of an identifier. -/
def text (u : Uuid) : String :=
  String.ofList u.chars

/-! ### Reading -/

/-- The identifier of 32 hexadecimal digits. -/
def ofHex? (cs : List Char) : Option Uuid :=
  (cs.mapM Text.hexDigit?).bind fun digits =>
    if h : digits.length = 32 then some ⟨digits, h⟩ else none

/-- An identifier is read back from its digits. -/
@[simp] theorem ofHex?_hexChars (u : Uuid) : ofHex? u.hexChars = some u := by
  rw [ofHex?, hexChars, Text.mapM_hexDigit?]
  simp [u.length_digits]

/-- The words that begin a name. -/
def nameWords : List Char := "urn:uuid:".toList

/-- What stands inside braces, or behind the words that begin a name, which may be written with
capital letters; any other text as it is. -/
def unwrapped (cs : List Char) : List Char :=
  match cs with
  | '\x7b' :: rest => if rest.getLast? = some '\x7d' then rest.dropLast else cs
  | cs =>
    if (cs.take nameWords.length).map Char.toLower = nameWords then cs.drop nameWords.length
    else cs

/-- The identifier that some characters tell: digits alone, or groups with hyphens. -/
def ofChars? (cs : List Char) : Option Uuid :=
  (ofHex? cs).or ((dropHyphens? groups (unwrapped cs)).bind ofHex?)

/-- The identifier that a text tells. -/
def read? (text : String) : Option Uuid :=
  ofChars? text.toList

end Uuid

end GraphWalk
