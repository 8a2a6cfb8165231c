import GraphWalk.Json.Written
import GraphWalk.Text.After
import GraphWalk.Text.Hex

/-!
# Reading JSON texts

A text is read from its front: each reader returns what it read and the text after
it, which is shorter.  Spaces may stand around every token; nothing may follow the
value but spaces.

## Main definitions

* `Written.isSpace` — a space between tokens.
* `Written.stringBody?` — the rest of a quoted text, its opening quote already read.
* `Written.numberLiteral?` — a number.
* `Written.readValue?` — a value, with mutual recursion over items and members.
* `Written.read?`, `Json.read?` — a whole text, as written and as a value.
-/

namespace GraphWalk

namespace Written

/-- A space between tokens. -/
def isSpace (c : Char) : Bool :=
  c == ' ' || c == '\n' || c == '\t' || c == '\r'

/-- The text from its first character that is not a space. -/
def dropSpace (cs : List Char) : List Char :=
  cs.dropWhile isSpace

theorem length_dropSpace_le (cs : List Char) : (dropSpace cs).length ≤ cs.length :=
  (List.dropWhile_suffix isSpace).length_le

/-- The number written by four hexadecimal digits. -/
def hexWord? (a b c d : Char) : Option Nat :=
  (Text.hexValue? a).bind fun a => (Text.hexValue? b).bind fun b => (Text.hexValue? c).bind fun c =>
    (Text.hexValue? d).map fun d => ((a * 16 + b) * 16 + c) * 16 + d

/-- The character that an escape of one letter stands for. -/
def escape? (c : Char) : Option Char :=
  if c = '"' then some '"'
  else if c = '\\' then some '\\'
  else if c = '/' then some '/'
  else if c = 'b' then some '\x08'
  else if c = 'f' then some '\x0c'
  else if c = 'n' then some '\n'
  else if c = 'r' then some '\r'
  else if c = 't' then some '\t'
  else none

/-- One code point in front of those read after it. -/
def consCode (n : Nat) : Option (List Nat × List Char) → Option (List Nat × List Char) :=
  Option.map fun found => (n :: found.1, found.2)

/-- The code points of a quoted text up to its closing quote, and the text after that.  None when
the quote is missing, an escape is malformed or a control character stands in the text. -/
def stringBody? : List Char → Option (List Nat × List Char)
  | [] => none
  | '"' :: rest => some ([], rest)
  | '\\' :: 'u' :: a :: b :: c :: d :: rest =>
    (hexWord? a b c d).bind fun n => consCode n (stringBody? rest)
  | '\\' :: e :: rest => (escape? e).bind fun c => consCode c.toNat (stringBody? rest)
  | c :: rest => if c.toNat < 0x20 || c == '\\' then none else consCode c.toNat (stringBody? rest)

theorem length_of_stringBody? {cs : List Char} {codes : List Nat} {rest : List Char}
    (h : stringBody? cs = some (codes, rest)) : rest.length < cs.length := by
  induction cs using stringBody?.induct generalizing codes with
  | case1 => simp [stringBody?] at h
  | case2 rest => simp_all [stringBody?]
  | case3 a b c d rest ih =>
    simp only [stringBody?, consCode, Option.bind_eq_some_iff, Option.map_eq_some_iff,
      Prod.mk.injEq] at h
    obtain ⟨_, _, ⟨_, _⟩, hfound, _, rfl⟩ := h
    exact Nat.lt_trans (ih hfound) (by simp only [List.length_cons]; omega)
  | case4 e rest hne ih =>
    rw [stringBody?] at h
    · simp only [consCode, Option.bind_eq_some_iff, Option.map_eq_some_iff, Prod.mk.injEq] at h
      obtain ⟨_, _, ⟨_, _⟩, hfound, _, rfl⟩ := h
      exact Nat.lt_trans (ih hfound) (by simp only [List.length_cons]; omega)
    · exact hne
  | case5 c rest hq hu he hc => rw [stringBody?] at h <;> simp_all
  | case6 c rest hq hu he hc ih =>
    rw [stringBody?] at h <;> try assumption
    simp only [hc, consCode] at h
    obtain ⟨⟨_, _⟩, hfound, hpair⟩ := Option.map_eq_some_iff.1 h
    obtain ⟨_, rfl⟩ := Prod.mk.inj hpair
    exact Nat.lt_trans (ih hfound) (by simp only [List.length_cons]; omega)

/-! ### Numbers -/

/-- The digits at the front of a text and what follows them. -/
def spanDigits (cs : List Char) : List Char × List Char :=
  (cs.takeWhile Char.isDigit, cs.dropWhile Char.isDigit)

theorem length_spanDigits_le (cs : List Char) : (spanDigits cs).2.length ≤ cs.length :=
  (List.dropWhile_suffix Char.isDigit).length_le

theorem length_spanDigits_lt {cs : List Char} (h : (spanDigits cs).1 ≠ []) :
    (spanDigits cs).2.length < cs.length := by
  cases cs with
  | nil => simp [spanDigits] at h
  | cons c cs =>
    by_cases hc : c.isDigit
    · simp only [spanDigits, List.dropWhile_cons, hc, if_true, List.length_cons]
      exact Nat.lt_succ_of_le (length_spanDigits_le cs)
    · simp [spanDigits, hc] at h

/-- The digits after a decimal point, of which there is at least one.  The outer result is none
when a point stands without a digit; the inner one is none when there is no point. -/
def fraction? : List Char → Option (Option (List Char) × List Char)
  | '.' :: rest =>
    let (digits, rest) := spanDigits rest
    if digits.isEmpty then none else some (some digits, rest)
  | cs => some (none, cs)

/-- The sign of an exponent, a plus sign being optional. -/
def exponentSign : List Char → Bool × List Char
  | '-' :: rest => (true, rest)
  | '+' :: rest => (false, rest)
  | cs => (false, cs)

/-- The exponent at the front of a text whose mark has been read. -/
def exponentAfterMark? (cs : List Char) : Option (Option Int × List Char) :=
  let (negative, cs) := exponentSign cs
  let (digits, rest) := spanDigits cs
  if digits.isEmpty then none
  else
    let magnitude : Int := Text.ofDigits digits
    some (some (if negative then -magnitude else magnitude), rest)

/-- The exponent at the front of a text, if there is one.  None when the mark stands without a
digit. -/
def exponent? : List Char → Option (Option Int × List Char)
  | 'e' :: rest => exponentAfterMark? rest
  | 'E' :: rest => exponentAfterMark? rest
  | cs => some (none, cs)

/-- The digits before the point: a single nought, or digits that do not begin with one. -/
def whole? (cs : List Char) : Option (List Char × List Char) :=
  let (digits, rest) := spanDigits cs
  if digits.isEmpty || (digits.head? == some '0' && digits.length != 1) then none
  else some (digits, rest)

/-- The sign of a number. -/
def minus : List Char → Bool × List Char
  | '-' :: rest => (true, rest)
  | cs => (false, cs)

/-- The number at the front of a text and what follows it. -/
def numberLiteral? (cs : List Char) : Option (NumberLiteral × List Char) :=
  let (negative, cs) := minus cs
  (whole? cs).bind fun (whole, cs) =>
    (fraction? cs).bind fun (fraction, cs) =>
      (exponent? cs).map fun (exponent, rest) =>
        (⟨negative, whole, fraction, exponent⟩, rest)

theorem length_of_fraction? {cs rest : List Char} {digits : Option (List Char)}
    (h : fraction? cs = some (digits, rest)) : rest.length ≤ cs.length := by
  unfold fraction? at h
  split at h
  · next cs =>
    simp only [Option.ite_none_left_eq_some, Option.some.injEq, Prod.mk.injEq] at h
    have := length_spanDigits_le cs
    rw [h.2.2] at this
    simp only [List.length_cons]; omega
  · simp_all

theorem length_exponentSign_le (cs : List Char) : (exponentSign cs).2.length ≤ cs.length := by
  unfold exponentSign
  split <;> simp

theorem length_of_exponentAfterMark? {cs rest : List Char} {exponent : Option Int}
    (h : exponentAfterMark? cs = some (exponent, rest)) : rest.length ≤ cs.length := by
  simp only [exponentAfterMark?, Option.ite_none_left_eq_some, Option.some.injEq,
    Prod.mk.injEq] at h
  have := length_spanDigits_le (exponentSign cs).2
  have := length_exponentSign_le cs
  rw [h.2.2] at *
  omega

theorem length_of_exponent? {cs rest : List Char} {exponent : Option Int}
    (h : exponent? cs = some (exponent, rest)) : rest.length ≤ cs.length := by
  unfold exponent? at h
  split at h
  · have := length_of_exponentAfterMark? h; simp only [List.length_cons]; omega
  · have := length_of_exponentAfterMark? h; simp only [List.length_cons]; omega
  · simp_all

theorem length_of_whole? {cs digits rest : List Char} (h : whole? cs = some (digits, rest)) :
    rest.length < cs.length := by
  simp only [whole?, Option.ite_none_left_eq_some, Option.some.injEq, Prod.mk.injEq] at h
  obtain ⟨hdigits, _, rfl⟩ := h
  refine length_spanDigits_lt fun he => hdigits ?_
  simp [he]

theorem length_minus_le (cs : List Char) : (minus cs).2.length ≤ cs.length := by
  unfold minus
  split <;> simp

theorem length_of_numberLiteral? {cs rest : List Char} {literal : NumberLiteral}
    (h : numberLiteral? cs = some (literal, rest)) : rest.length < cs.length := by
  simp only [numberLiteral?, Option.bind_eq_some_iff, Option.map_eq_some_iff] at h
  obtain ⟨⟨_, _⟩, hwhole, ⟨_, _⟩, hfraction, ⟨_, _⟩, hexponent, hpair⟩ := h
  obtain ⟨_, rfl⟩ := Prod.mk.inj hpair
  have := length_minus_le cs
  have := length_of_whole? hwhole
  have := length_of_fraction? hfraction
  have := length_of_exponent? hexponent
  dsimp only at *
  omega

/-! ### Values -/

theorem length_of_after? {word cs rest : List Char} (h : Text.after? word cs = some rest) :
    rest.length ≤ cs.length := by
  rw [Text.after?_eq_some_iff.1 h, List.length_append]
  omega

/-- A value that is neither a list nor an object, and what follows it. -/
def scalar? (cs : List Char) : Option (Written × List Char) :=
  match cs with
  | 'n' :: rest => (Text.after? ['u', 'l', 'l'] rest).map (.null, ·)
  | 't' :: rest => (Text.after? ['r', 'u', 'e'] rest).map (.bool true, ·)
  | 'f' :: rest => (Text.after? ['a', 'l', 's', 'e'] rest).map (.bool false, ·)
  | '"' :: rest => (stringBody? rest).map fun (codes, rest) => (.string codes, rest)
  | cs => (numberLiteral? cs).map fun (literal, rest) => (.number literal, rest)

theorem length_of_scalar? {cs rest : List Char} {w : Written} (h : scalar? cs = some (w, rest)) :
    rest.length < cs.length := by
  unfold scalar? at h
  split at h <;> obtain ⟨_, hfound, hpair⟩ := Option.map_eq_some_iff.1 h <;>
    obtain ⟨_, rfl⟩ := Prod.mk.inj hpair
  · have := length_of_after? hfound; simp only [List.length_cons]; omega
  · have := length_of_after? hfound; simp only [List.length_cons]; omega
  · have := length_of_after? hfound; simp only [List.length_cons]; omega
  · have := length_of_stringBody? hfound; simp only [List.length_cons]; omega
  · exact length_of_numberLiteral? hfound

/-- A text strictly shorter than another one. -/
abbrev Shorter (cs : List Char) := { rest : List Char // rest.length < cs.length }

/-- What follows a character that stands next, after spaces. -/
def afterToken? (token : Char) (cs : List Char) : Option (List Char) :=
  match dropSpace cs with
  | c :: rest => if c = token then some rest else none
  | [] => none

theorem length_of_afterToken? {token : Char} {cs rest : List Char}
    (h : afterToken? token cs = some rest) : rest.length < cs.length := by
  have := length_dropSpace_le cs
  unfold afterToken? at h
  split at h
  · next hd =>
    rw [hd, List.length_cons] at this
    simp only [Option.ite_none_right_eq_some, Option.some.injEq] at h
    rw [← h.2]; omega
  · simp at h

/-- The name of a member and the colon behind it, and what follows. -/
def memberName? (cs : List Char) : Option (List Nat × List Char) :=
  (afterToken? '"' cs).bind fun rest =>
    (stringBody? rest).bind fun (codes, rest) => (afterToken? ':' rest).map (codes, ·)

theorem length_of_memberName? {cs rest : List Char} {codes : List Nat}
    (h : memberName? cs = some (codes, rest)) : rest.length < cs.length := by
  simp only [memberName?, Option.bind_eq_some_iff, Option.map_eq_some_iff] at h
  obtain ⟨_, hquote, ⟨_, _⟩, hbody, _, hcolon, hpair⟩ := h
  obtain ⟨_, rfl⟩ := Prod.mk.inj hpair
  have := length_of_afterToken? hquote
  have := length_of_stringBody? hbody
  have := length_of_afterToken? hcolon
  dsimp only at *
  omega

mutual

/-- The value at the front of a text, and what follows it. -/
def readValue? (cs : List Char) : Option (Written × Shorter cs) :=
  match hlist : afterToken? '[' cs with
  | some inner =>
    have hinner := length_of_afterToken? hlist
    match hclose : afterToken? ']' inner with
    | some rest => some (.array [], ⟨rest, by have := length_of_afterToken? hclose; omega⟩)
    | none =>
      (readItems? inner).map fun (items, rest) => (.array items, ⟨rest.1, by omega⟩)
  | none =>
    match hobject : afterToken? '\x7b' cs with
    | some inner =>
      have hinner := length_of_afterToken? hobject
      match hclose : afterToken? '\x7d' inner with
      | some rest => some (.object [], ⟨rest, by have := length_of_afterToken? hclose; omega⟩)
      | none =>
        (readMembers? inner).map fun (members, rest) => (.object members, ⟨rest.1, by omega⟩)
    | none =>
      match hscalar : scalar? (dropSpace cs) with
      | some (w, rest) => some (w, ⟨rest, by
          have := length_dropSpace_le cs
          have := length_of_scalar? hscalar
          omega⟩)
      | none => none
termination_by (cs.length, 0)

/-- The items of a list up to its closing bracket, and what follows that. -/
def readItems? (cs : List Char) : Option (List Written × Shorter cs) :=
  match readValue? cs with
  | none => none
  | some (item, ⟨after, hafter⟩) =>
    match hcomma : afterToken? ',' after with
    | some next =>
      have hnext := length_of_afterToken? hcomma
      (readItems? next).map fun (items, rest) => (item :: items, ⟨rest.1, by omega⟩)
    | none =>
      match hclose : afterToken? ']' after with
      | some rest => some ([item], ⟨rest, by have := length_of_afterToken? hclose; omega⟩)
      | none => none
termination_by (cs.length, 1)

/-- The members of an object up to its closing brace, and what follows that. -/
def readMembers? (cs : List Char) : Option (List (List Nat × Written) × Shorter cs) :=
  match hname : memberName? cs with
  | none => none
  | some (name, value) =>
    have hvalue := length_of_memberName? hname
    match readValue? value with
    | none => none
    | some (w, ⟨after, hafter⟩) =>
      match hcomma : afterToken? ',' after with
      | some next =>
        have hnext := length_of_afterToken? hcomma
        (readMembers? next).map fun (members, rest) =>
          ((name, w) :: members, ⟨rest.1, by omega⟩)
      | none =>
        match hclose : afterToken? '\x7d' after with
        | some rest => some ([(name, w)], ⟨rest, by have := length_of_afterToken? hclose; omega⟩)
        | none => none
termination_by (cs.length, 1)

end

/-- A whole text as it is written: one value, and nothing behind it but spaces. -/
def read? (cs : List Char) : Option Written :=
  (readValue? cs).bind fun (w, rest) => if (dropSpace rest.1).isEmpty then some w else none

end Written

/-- The value of a whole text. -/
def Json.read? (text : String) : Option Json :=
  (Written.read? text.toList).bind (Written.valueWithin? 0)

end GraphWalk
