import GraphWalk.Text.After

/-!
# Comments

A schema text has comments from a hash to the end of the line, and descriptions
between triple quotes.  They are removed before anything else is read; the newlines
of a description stay, so that every line keeps its number.

## Main definitions

* `Schema.closing?` — the text up to a triple quote and the text after it.
* `Schema.strip` — a text without its comments and descriptions.
-/

namespace GraphWalk.Schema

/-- The mark that opens and closes a description. -/
def tripleQuote : List Char := ['"', '"', '"']

/-- The character ends a line. -/
def isLineEnd (c : Char) : Bool :=
  c == '\n' || c == '\r'

/-- The text up to the first triple quote, and the text after it. -/
def closing? : List Char → Option (List Char × List Char)
  | [] => none
  | c :: cs =>
    match Text.after? tripleQuote (c :: cs) with
    | some rest => some ([], rest)
    | none => (closing? cs).map fun (body, rest) => (c :: body, rest)

/-- The body of the description that a text begins with, and the text after it.  None when the
text does not begin with one or it is never closed. -/
def description? (cs : List Char) : Option (List Char × List Char) :=
  (Text.after? tripleQuote cs).bind closing?

theorem length_of_closing? {cs body rest : List Char} (h : closing? cs = some (body, rest)) :
    rest.length < cs.length := by
  induction cs generalizing body with
  | nil => simp [closing?] at h
  | cons c cs ih =>
    rw [closing?] at h
    split at h
    · next hafter =>
      have hlen := congrArg List.length (Text.after?_eq_some_iff.1 hafter)
      simp only [List.length_append, tripleQuote, List.length_cons, List.length_nil] at hlen
      simp only [Option.some.injEq, Prod.mk.injEq] at h
      rw [← h.2, List.length_cons]
      omega
    · obtain ⟨⟨_, _⟩, hfound, hpair⟩ := Option.map_eq_some_iff.1 h
      obtain ⟨_, rfl⟩ := Prod.mk.inj hpair
      have := ih hfound
      simp only [List.length_cons]
      omega

theorem length_of_description? {cs body rest : List Char}
    (h : description? cs = some (body, rest)) : rest.length < cs.length := by
  obtain ⟨after, hafter, hclosing⟩ := Option.bind_eq_some_iff.1 h
  have := length_of_closing? hclosing
  rw [Text.after?_eq_some_iff.1 hafter, List.length_append]
  omega

/-- The text without comments and descriptions.  Of a description its newlines are left, of a
comment nothing; a description that is never closed is no description. -/
def strip (cs : List Char) : List Char :=
  match cs with
  | [] => []
  | c :: cs =>
    if c = '#' then
      have := (List.dropWhile_suffix (l := cs) fun c => !isLineEnd c).length_le
      strip (cs.dropWhile fun c => !isLineEnd c)
    else
      match h : description? (c :: cs) with
      | some (body, rest) =>
        have := Nat.le_of_lt_succ (length_of_description? h)
        body.filter (· == '\n') ++ strip rest
      | none => c :: strip cs
termination_by cs.length

@[simp] theorem strip_nil : strip [] = [] := by
  rw [strip]

theorem strip_hash (cs : List Char) :
    strip ('#' :: cs) = strip (cs.dropWhile fun c => !isLineEnd c) := by
  rw [strip, if_pos rfl]

theorem strip_description {c : Char} {cs body rest : List Char} (hc : c ≠ '#')
    (h : description? (c :: cs) = some (body, rest)) :
    strip (c :: cs) = body.filter (· == '\n') ++ strip rest := by
  rw [strip, if_neg hc]
  split
  · simp_all
  · simp_all

theorem strip_cons {c : Char} {cs : List Char} (hc : c ≠ '#')
    (h : description? (c :: cs) = none) : strip (c :: cs) = c :: strip cs := by
  rw [strip, if_neg hc]
  split
  · simp_all
  · rfl

end GraphWalk.Schema
