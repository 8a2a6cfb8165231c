import GraphWalk.Proofs.Document.Reading

/-!
# Arguments are passed over

Between the parentheses around arguments a reader looks for the closing one, and it is
not misled: outside of quoted texts a literal has neither a parenthesis nor a quote, and
inside of them every quote is escaped.

## Main definitions

* `Json.Named` — the names of members at every depth are names of the query language.
* `Document.Passed` — a reader of arguments gets through a text.

## Main results

* `Document.passed_chars`, `Document.passed_argumentChars` — literals and arguments are passed.
* `Document.reads_arguments` — arguments are passed over.
-/

namespace GraphWalk

namespace Json

mutual

/-- The names of members at every depth are names of the query language. -/
def Named : Json → Prop
  | .array items => NamedItems items
  | .object members => NamedMembers members
  | _ => True

/-- Every item is named. -/
def NamedItems : List Json → Prop
  | [] => True
  | item :: items => item.Named ∧ NamedItems items

/-- Every member has a name of the query language and a value that is named. -/
def NamedMembers : List (String × Json) → Prop
  | [] => True
  | (name, value) :: members => Document.IsName name ∧ value.Named ∧ NamedMembers members

end

/-- Every member is named. -/
theorem namedMembers_iff {members : Dict Json} :
    NamedMembers members ↔ ∀ entry ∈ members, Document.IsName entry.1 ∧ entry.2.Named := by
  induction members with
  | nil => exact ⟨fun _ => nofun, fun _ => trivial⟩
  | cons entry members ih => rw [NamedMembers, ih, List.forall_mem_cons, and_assoc]

theorem named_of_get? {members : Dict Json} {name : String} {value : Json}
    (h : NamedMembers members) (hget : Dict.get? members name = some value) : value.Named :=
  (namedMembers_iff.1 h _ (Dict.mem_of_get?_eq_some hget)).2

end Json

namespace Document

open Text

/-- A reader of arguments gets through a text. -/
def Passed (cs : List Char) : Prop :=
  ∀ rest, tokens .arguments (cs ++ rest) = tokens .arguments rest

/-- The character means nothing to a reader of arguments. -/
def isPlain (c : Char) : Bool := c != ')' && c != '"'

/-! ### Plain texts and quoted ones -/

theorem passed_nil : Passed [] := fun _ => rfl

theorem Passed.append {cs ds : List Char} (hcs : Passed cs) (hds : Passed ds) :
    Passed (cs ++ ds) := by
  intro rest
  rw [List.append_assoc, hcs, hds]

theorem Passed.cons {c : Char} {cs : List Char} (hc : isPlain c = true) (hcs : Passed cs) :
    Passed (c :: cs) := by
  intro rest
  rw [isPlain, Bool.and_eq_true, bne_iff_ne, bne_iff_ne] at hc
  rw [List.cons_append, tokens, if_neg hc.1, if_neg hc.2, hcs]

theorem passed_of_plain {cs : List Char} (h : ∀ c ∈ cs, isPlain c = true) : Passed cs := by
  induction cs with
  | nil => exact passed_nil
  | cons c cs ih =>
    exact .cons (h c List.mem_cons_self) (ih fun d hd => h d (List.mem_cons_of_mem _ hd))

theorem passed_of_all {cs : List Char} (h : cs.all isPlain = true) : Passed cs :=
  passed_of_plain (List.all_eq_true.1 h)

theorem isPlain_of_isAsciiWord {c : Char} (h : isAsciiWord c = true) : isPlain c = true := by
  rw [isPlain, Bool.and_eq_true, bne_iff_ne, bne_iff_ne]
  constructor
  · rintro rfl
    exact absurd h (by decide)
  · rintro rfl
    exact absurd h (by decide)

theorem passed_name {name : String} (h : IsName name) : Passed name.toList :=
  passed_of_plain fun c hc => isPlain_of_isAsciiWord (h.2 c hc)

/-- A hexadecimal digit neither ends a quoted text nor escapes anything. -/
theorem digitChar_ne {n : Nat} (h : n < 16) : Nat.digitChar n ≠ '"' ∧ Nat.digitChar n ≠ '\\' := by
  have hall : ∀ n < 16, Nat.digitChar n ≠ '"' ∧ Nat.digitChar n ≠ '\\' := by decide
  exact hall n h

/-- A character of a quoted text, escaped if need be, does not end the text. -/
theorem tokens_escapedChar (c : Char) (rest : List Char) :
    tokens .quoted (Json.escapedChar c ++ rest) = tokens .quoted rest := by
  unfold Json.escapedChar
  by_cases hquote : c = '"'
  · rw [if_pos hquote]
    rfl
  rw [if_neg hquote]
  by_cases hslash : c = '\\'
  · rw [if_pos hslash]
    rfl
  rw [if_neg hslash]
  split
  · rfl
  split
  · rfl
  split
  · rfl
  split
  · rfl
  split
  · rfl
  split
  · next hcontrol =>
    have hfirst := digitChar_ne (n := c.toNat / 16) (by omega)
    have hsecond := digitChar_ne (n := c.toNat % 16) (by omega)
    show tokens .quoted (Nat.digitChar (c.toNat / 16) :: Nat.digitChar (c.toNat % 16) :: rest) = _
    rw [tokens, if_neg hfirst.1, if_neg hfirst.2, tokens, if_neg hsecond.1, if_neg hsecond.2]
  · rw [List.singleton_append, tokens, if_neg hquote, if_neg hslash]

theorem passed_quoted (s : String) : Passed (Json.quoted s) := by
  intro rest
  have hbody : ∀ cs : List Char, tokens .quoted (cs.flatMap Json.escapedChar ++ '"' :: rest)
      = tokens .arguments rest := by
    intro cs
    induction cs with
    | nil => rfl
    | cons c cs ih => rw [List.flatMap_cons, List.append_assoc, tokens_escapedChar, ih]
  have hquoted := hbody s.toList
  rw [Json.quoted, List.cons_append, List.append_assoc]
  exact hquoted

/-! ### Numbers -/

theorem isPlain_of_mem_toDigits {c : Char} {n : Nat} (h : c ∈ Nat.toDigits 10 n) :
    isPlain c = true := by
  refine isPlain_of_isAsciiWord ?_
  have hdigit := Nat.isDigit_of_mem_toDigits (by decide) (by decide) h
  rw [isAsciiWord, Char.isAlphanum, hdigit, Bool.or_true, Bool.true_or]

theorem passed_toDigits (n : Nat) : Passed (Nat.toDigits 10 n) :=
  passed_of_plain fun _ hc => isPlain_of_mem_toDigits hc

theorem passed_zeros (n : Nat) : Passed (List.replicate n '0') :=
  passed_of_plain fun c hc => by rw [List.eq_of_mem_replicate hc]; rfl

theorem passed_take_digits (d : Decimal) (n : Nat) : Passed (d.digits.take n) :=
  passed_of_plain fun _ hc => isPlain_of_mem_toDigits (List.mem_of_mem_take hc)

theorem passed_drop_digits (d : Decimal) (n : Nat) : Passed (d.digits.drop n) :=
  passed_of_plain fun _ hc => isPlain_of_mem_toDigits (List.mem_of_mem_drop hc)

theorem passed_decimal (d : Decimal) : Passed d.chars := by
  unfold Decimal.chars
  split
  · exact ((passed_toDigits _).append (passed_zeros _)).append (passed_of_all (by decide))
  split
  · exact (passed_take_digits d _).append (.cons rfl (passed_drop_digits d _))
  split
  · exact ((passed_of_all (by decide)).append (passed_zeros _)).append (passed_toDigits _)
  · unfold Decimal.scientific Decimal.exponentChars
    refine ((passed_take_digits d 1).append ?_).append (.cons rfl (.cons ?_ (passed_toDigits _)))
    · split
      · exact passed_nil
      · exact .cons rfl (passed_drop_digits d 1)
    · split <;> rfl

theorem passed_number (n : Number) : Passed n.chars := by
  have hsign : ∀ (negative : Bool), Passed (if negative = true then ['-'] else []) := by
    intro negative
    split
    · exact .cons rfl passed_nil
    · exact passed_nil
  cases n with
  | int value =>
    rw [Number.chars, Number.intChars]
    refine Passed.append ?_ (passed_toDigits _)
    split
    · exact .cons rfl passed_nil
    · exact passed_nil
  | double x => exact (hsign x.negative).append (passed_decimal _)

/-! ### Literals -/

mutual

/-- A literal is passed. -/
theorem passed_chars : ∀ v : Json, v.Named → Passed (Literal.chars v)
  | .null, _ => passed_of_all (by decide)
  | .bool true, _ => passed_of_all (by decide)
  | .bool false, _ => passed_of_all (by decide)
  | .number n, _ => passed_number n
  | .string s, _ => passed_quoted s
  | .array items, h => by
    rw [Literal.chars]
    exact .cons rfl ((passed_itemChars items h).append (.cons rfl passed_nil))
  | .object members, h => by
    rw [Literal.chars]
    exact .cons rfl ((passed_argumentChars members h).append (.cons rfl passed_nil))

/-- Items are passed. -/
theorem passed_itemChars : ∀ items : List Json, Json.NamedItems items →
    Passed (Literal.itemChars items)
  | [], _ => passed_nil
  | [item], h => passed_chars item h.1
  | item :: next :: items, h => by
    rw [Literal.itemChars]
    · exact (passed_chars item h.1).append
        (.cons rfl (.cons rfl (passed_itemChars (next :: items) h.2)))
    · exact List.cons_ne_nil _ _

/-- Named values are passed. -/
theorem passed_argumentChars : ∀ members : List (String × Json), Json.NamedMembers members →
    Passed (Literal.argumentChars members)
  | [], _ => passed_nil
  | [(name, value)], h =>
    (passed_name h.1).append (.cons rfl (.cons rfl (passed_chars value h.2.1)))
  | (name, value) :: next :: members, h => by
    rw [Literal.argumentChars]
    · exact (passed_name h.1).append (.cons rfl (.cons rfl ((passed_chars value h.2.1).append
        (.cons rfl (.cons rfl (passed_argumentChars (next :: members) h.2.2))))))
    · exact List.cons_ne_nil _ _

end

/-- Arguments are passed over, parentheses included. -/
theorem reads_arguments (outer : List (List String)) (here last : List String)
    {args : List (String × Json)} (h : Json.NamedMembers args) (cs : List Char) :
    reads outer here last ('(' :: (Literal.argumentChars args ++ ')' :: cs))
      = reads outer here last cs := by
  have harguments := passed_argumentChars args h (')' :: cs)
  show nested outer here last (tokens .arguments (Literal.argumentChars args ++ ')' :: cs)) = _
  rw [harguments]
  rfl

end Document

end GraphWalk
