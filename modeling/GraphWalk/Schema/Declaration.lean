import GraphWalk.Schema.Fields
import GraphWalk.Text.After

/-!
# Declarations

A schema text declares types, enums, unions and scalars.  Each kind is looked for
on its own, anywhere in the text: a declaration begins with its keyword at the
start of a word, and what does not go on as a declaration does is passed over.

## Main definitions

* `Declaration.Recogniser` — what a declaration of one kind looks like.
* `Declaration.Recogniser.scan` — all declarations of one kind, in the order of the text.
* `Declaration.objectTypes`, `Declaration.enums`, `Declaration.unions`, `Declaration.scalars` —
  the four kinds.
-/

namespace GraphWalk.Declaration

open Text

/-- What the declarations of one kind look like. -/
structure Recogniser (α : Type) where
  /-- The declaration at the front of a text, and the text after it. -/
  read? : List Char → Option (α × List Char)
  /-- A declaration takes up some of the text. -/
  shortens : ∀ {cs found rest}, read? cs = some (found, rest) → rest.length < cs.length

/-- All declarations that a text holds.  A declaration begins where a word does; `inWord` says
that a character of a word stands before the text.  No declaration begins inside another one of
its kind. -/
def Recogniser.scan {α : Type} (r : Recogniser α) (inWord : Bool) (cs : List Char) : List α :=
  match cs with
  | [] => []
  | c :: cs =>
    if inWord then r.scan (isWord c) cs
    else
      match h : r.read? (c :: cs) with
      | some (found, rest) =>
        have := Nat.le_of_lt_succ (r.shortens h)
        found :: r.scan false rest
      | none => r.scan (isWord c) cs
termination_by cs.length

@[simp] theorem Recogniser.scan_nil {α : Type} (r : Recogniser α) (inWord : Bool) :
    r.scan inWord [] = [] := by
  rw [scan]

theorem Recogniser.scan_inWord {α : Type} (r : Recogniser α) (c : Char) (cs : List Char) :
    r.scan true (c :: cs) = r.scan (isWord c) cs := by
  rw [scan, if_pos rfl]

theorem Recogniser.scan_of_read?_eq_some {α : Type} (r : Recogniser α) {cs rest : List Char}
    {found : α} (h : r.read? cs = some (found, rest)) :
    r.scan false cs = found :: r.scan false rest := by
  cases cs with
  | nil => exact absurd (r.shortens h) (Nat.not_lt_zero _)
  | cons c cs =>
    rw [scan, if_neg Bool.false_ne_true]
    split <;> simp_all

theorem Recogniser.scan_of_read?_eq_none {α : Type} (r : Recogniser α) {c : Char}
    {cs : List Char} (h : r.read? (c :: cs) = none) :
    r.scan false (c :: cs) = r.scan (isWord c) cs := by
  rw [scan, if_neg Bool.false_ne_true]
  split <;> simp_all

/-! ### Parts of declarations -/

/-- The text after a keyword and the blanks that have to follow it. -/
def afterKeyword? (keyword : String) (cs : List Char) : Option (List Char) :=
  match after? keyword.toList cs with
  | some (c :: rest) => if isBlank c then some (dropBlanks rest) else none
  | _ => none

/-- The word at the front of a text, and the text after it. -/
def word? (cs : List Char) : Option (String × List Char) :=
  let word := cs.takeWhile isWord
  if word.isEmpty then none else some (String.ofList word, cs.dropWhile isWord)

/-- A keyword and the word behind it: what every declaration begins with. -/
def named? (keyword : String) (cs : List Char) : Option (String × List Char) :=
  (afterKeyword? keyword cs).bind word?

/-- The text after the next character, which has to be one of those allowed. -/
def afterOneOf? (allowed : List Char) : List Char → Option (List Char)
  | [] => none
  | c :: cs => if allowed.contains c then some cs else none

/-- The text after the opening brace of a body.  A list of interfaces may stand before the
brace. -/
def afterHeader? (cs : List Char) : Option (List Char) :=
  match afterKeyword? "implements" (dropBlanks cs) with
  | some interfaces => afterOneOf? ['\x7b'] (interfaces.dropWhile (· != '\x7b'))
  | none => afterOneOf? ['\x7b'] (dropBlanks cs)

/-- The text up to the closing brace, and the text after it. -/
def body? (cs : List Char) : Option (List Char × List Char) :=
  (afterOneOf? ['\x7d'] (cs.dropWhile (· != '\x7d'))).map
    fun rest => (cs.takeWhile (· != '\x7d'), rest)

theorem length_of_afterKeyword? {keyword : String} {cs rest : List Char}
    (h : afterKeyword? keyword cs = some rest) : rest.length < cs.length := by
  unfold afterKeyword? at h
  split at h
  · next c after hafter =>
    simp only [Option.ite_none_right_eq_some, Option.some.injEq] at h
    have := length_dropBlanks_le after
    rw [after?_eq_some_iff.1 hafter, ← h.2, List.length_append, List.length_cons]
    omega
  · simp at h

theorem length_of_word? {cs rest : List Char} {word : String} (h : word? cs = some (word, rest)) :
    rest.length < cs.length := by
  simp only [word?, Option.ite_none_left_eq_some, Option.some.injEq, Prod.mk.injEq] at h
  obtain ⟨hword, _, rfl⟩ := h
  cases cs with
  | nil => simp at hword
  | cons c cs =>
    by_cases hc : isWord c
    · rw [List.dropWhile_cons_of_pos hc]
      exact Nat.lt_succ_of_le (List.dropWhile_suffix isWord).length_le
    · simp [hc] at hword

theorem length_of_named? {keyword name : String} {cs rest : List Char}
    (h : named? keyword cs = some (name, rest)) : rest.length < cs.length := by
  obtain ⟨after, hafter, hword⟩ := Option.bind_eq_some_iff.1 h
  have := length_of_afterKeyword? hafter
  have := length_of_word? hword
  omega

theorem length_of_afterOneOf? {allowed cs rest : List Char}
    (h : afterOneOf? allowed cs = some rest) : rest.length < cs.length := by
  cases cs with
  | nil => simp [afterOneOf?] at h
  | cons c cs =>
    simp only [afterOneOf?, Option.ite_none_right_eq_some, Option.some.injEq] at h
    rw [h.2]
    exact Nat.lt_succ_self _

theorem length_of_afterHeader? {cs rest : List Char} (h : afterHeader? cs = some rest) :
    rest.length < cs.length := by
  have := length_dropBlanks_le cs
  unfold afterHeader? at h
  split at h
  · next interfaces hinterfaces =>
    have := length_of_afterKeyword? hinterfaces
    have := length_of_afterOneOf? h
    have := (List.dropWhile_suffix (l := interfaces) (· != '\x7b')).length_le
    omega
  · have := length_of_afterOneOf? h
    omega

theorem length_of_body? {cs body rest : List Char} (h : body? cs = some (body, rest)) :
    rest.length < cs.length := by
  obtain ⟨_, hclose, hpair⟩ := Option.map_eq_some_iff.1 h
  obtain ⟨_, rfl⟩ := Prod.mk.inj hpair
  exact Nat.lt_of_lt_of_le (length_of_afterOneOf? hclose) (List.dropWhile_suffix _).length_le

/-! ### The kinds of declarations -/

/-- The keywords of types with fields. -/
def objectKeywords : List String := ["type", "input", "interface"]

/-- A type with fields: its name and the text of its body. -/
def objectType? (cs : List Char) : Option ((String × List Char) × List Char) :=
  (objectKeywords.findSome? fun keyword => named? keyword cs).bind fun (name, rest) =>
    (afterHeader? rest).bind fun rest =>
      (body? rest).map fun (body, rest) => ((name, body), rest)

/-- An enum: its name. -/
def enum? (cs : List Char) : Option (String × List Char) :=
  (named? "enum" cs).bind fun (name, rest) =>
    (afterOneOf? ['=', '\x7b'] (dropBlanks rest)).map fun rest => (name, rest)

/-- A union: its name and its first alternative, which a bar may precede. -/
def union? (cs : List Char) : Option ((String × String) × List Char) :=
  (named? "union" cs).bind fun (name, rest) =>
    (afterOneOf? [':', '='] (dropBlanks rest)).bind fun rest =>
      (word? (dropBlanks (FieldDecl.dropChar '|' (dropBlanks rest)))).map
        fun (first, rest) => ((name, first), rest)

/-- A scalar: its name. -/
def scalar? (cs : List Char) : Option (String × List Char) :=
  named? "scalar" cs

/-- The types with fields: their names and the texts of their bodies. -/
def objectTypes : Recogniser (String × List Char) where
  read? := objectType?
  shortens {cs found rest} h := by
    simp only [objectType?, Option.bind_eq_some_iff, Option.map_eq_some_iff] at h
    obtain ⟨⟨_, _⟩, hnamed, _, hheader, ⟨_, _⟩, hbody, hpair⟩ := h
    obtain ⟨_, rfl⟩ := Prod.mk.inj hpair
    obtain ⟨_, _, hkeyword⟩ := List.exists_of_findSome?_eq_some hnamed
    have := length_of_named? hkeyword
    have := length_of_afterHeader? hheader
    have := length_of_body? hbody
    dsimp only at *
    omega

/-- The enums: their names. -/
def enums : Recogniser String where
  read? := enum?
  shortens {cs found rest} h := by
    simp only [enum?, Option.bind_eq_some_iff, Option.map_eq_some_iff] at h
    obtain ⟨⟨_, after⟩, hnamed, _, hopen, hpair⟩ := h
    obtain ⟨_, rfl⟩ := Prod.mk.inj hpair
    have := length_of_named? hnamed
    have := length_of_afterOneOf? hopen
    have := length_dropBlanks_le after
    dsimp only at *
    omega

/-- The unions: their names and first alternatives. -/
def unions : Recogniser (String × String) where
  read? := union?
  shortens {cs found rest} h := by
    simp only [union?, Option.bind_eq_some_iff, Option.map_eq_some_iff] at h
    obtain ⟨⟨_, after⟩, hnamed, next, hsign, ⟨_, _⟩, hword, hpair⟩ := h
    obtain ⟨_, rfl⟩ := Prod.mk.inj hpair
    have h1 := length_of_named? hnamed
    have h2 := length_of_afterOneOf? hsign
    have h3 := length_dropBlanks_le after
    have h4 := length_dropBlanks_le next
    have h5 := FieldDecl.length_dropChar_le '|' (dropBlanks next)
    have h6 := length_dropBlanks_le (FieldDecl.dropChar '|' (dropBlanks next))
    have h7 := length_of_word? hword
    dsimp only at *
    omega

/-- The scalars: their names. -/
def scalars : Recogniser String where
  read? := scalar?
  shortens := length_of_named?

end GraphWalk.Declaration
