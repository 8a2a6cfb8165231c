import GraphWalk.Json.Reader

/-!
# How values are read

Each reader carries a proof that what it leaves is shorter than what it was given.  What it
finds is told here without these proofs, by one equation for each reader.

## Main definitions

* `Written.found?` — what was found at the front of a text, and what is left of it.
* `Written.Reads`, `Written.ReadsItems`, `Written.ReadsMembers` — a value, items or members are
  found.

## Main results

* `Written.found?_readValue?`, `Written.found?_readItems?`, `Written.found?_readMembers?` — how
  a value, items and members are read.
* `Written.Reads.items_closed`, `Written.Reads.items_comma`, `Written.Reads.members_closed`,
  `Written.Reads.members_comma` — the last item or member, and one more.
* `Written.read?_eq_some_iff_reads` — a whole text.
-/

namespace GraphWalk

namespace Written

variable {α : Type} {cs after inner rest value : List Char} {name : List Nat} {w : Written}
  {ws : List Written} {members : List (List Nat × Written)} {token c : Char}

/-! ### Tokens -/

theorem afterToken?_cons (h : isSpace token = false) (rest : List Char) :
    afterToken? token (token :: rest) = some rest := by
  simp [afterToken?, dropSpace, h]

theorem afterToken?_cons_of_ne (h : isSpace c = false) (hne : c ≠ token) (rest : List Char) :
    afterToken? token (c :: rest) = none := by
  simp [afterToken?, dropSpace, h, hne]

theorem dropSpace_cons (h : isSpace c = false) (rest : List Char) :
    dropSpace (c :: rest) = c :: rest := by
  simp [dropSpace, h]

/-! ### One equation for each reader -/

/-- What was found at the front of a text, and what is left of it. -/
def found? (answer : Option (α × Shorter cs)) : Option (α × List Char) :=
  answer.map fun (a, rest) => (a, rest.1)

/-- How a value is read: a list, an object or something else. -/
theorem found?_readValue? (cs : List Char) :
    found? (readValue? cs) = match afterToken? '[' cs with
      | some inner =>
        match afterToken? ']' inner with
        | some rest => some (.array [], rest)
        | none => (found? (readItems? inner)).map fun (items, rest) => (.array items, rest)
      | none =>
        match afterToken? '\x7b' cs with
        | some inner =>
          match afterToken? '\x7d' inner with
          | some rest => some (.object [], rest)
          | none => (found? (readMembers? inner)).map fun (members, rest) => (.object members, rest)
        | none => scalar? (dropSpace cs) := by
  rw [readValue?]
  split
  · next hlist =>
    split
    · next hclose => simp [hlist, hclose, found?]
    · next hclose => simp [hlist, hclose, found?, Function.comp_def]
  · next hlist =>
    split
    · next hobject =>
      split
      · next hclose => simp [hlist, hobject, hclose, found?]
      · next hclose => simp [hlist, hobject, hclose, found?, Function.comp_def]
    · next hobject =>
      split
      · next hscalar => simp [hlist, hobject, hscalar, found?]
      · next hscalar => simp [hlist, hobject, hscalar, found?]

/-- How items are read: a value, and behind a comma more of them. -/
theorem found?_readItems? (cs : List Char) :
    found? (readItems? cs) = (found? (readValue? cs)).bind fun (item, after) =>
      match afterToken? ',' after with
      | some next => (found? (readItems? next)).map fun (items, rest) => (item :: items, rest)
      | none => (afterToken? ']' after).map fun rest => ([item], rest) := by
  rw [readItems?]
  split
  · next hvalue => simp [hvalue, found?]
  · next hvalue =>
    split
    · next hcomma => simp [hvalue, hcomma, found?, Function.comp_def]
    · next hcomma =>
      split
      · next hclose => simp [hvalue, hcomma, hclose, found?]
      · next hclose => simp [hvalue, hcomma, hclose, found?]

/-- How members are read: a name and a value, and behind a comma more of them. -/
theorem found?_readMembers? (cs : List Char) :
    found? (readMembers? cs) = (memberName? cs).bind fun (name, value) =>
      (found? (readValue? value)).bind fun (w, after) =>
        match afterToken? ',' after with
        | some next =>
          (found? (readMembers? next)).map fun (members, rest) => ((name, w) :: members, rest)
        | none => (afterToken? '\x7d' after).map fun rest => ([(name, w)], rest) := by
  rw [readMembers?]
  split
  · next hname => simp [hname, found?]
  · next hname =>
    split
    · next hvalue => simp [hname, hvalue, found?]
    · next hvalue =>
      split
      · next hcomma => simp [hname, hvalue, hcomma, found?, Function.comp_def]
      · next hcomma =>
        split
        · next hclose => simp [hname, hvalue, hcomma, hclose, found?]
        · next hclose => simp [hname, hvalue, hcomma, hclose, found?]

/-! ### What is found -/

/-- The text begins with a value, and the rest is left of it. -/
def Reads (cs : List Char) (w : Written) (rest : List Char) : Prop :=
  found? (readValue? cs) = some (w, rest)

/-- The text begins with items and their closing bracket, and the rest is left of it. -/
def ReadsItems (cs : List Char) (ws : List Written) (rest : List Char) : Prop :=
  found? (readItems? cs) = some (ws, rest)

/-- The text begins with members and their closing brace, and the rest is left of it. -/
def ReadsMembers (cs : List Char) (members : List (List Nat × Written)) (rest : List Char) :
    Prop :=
  found? (readMembers? cs) = some (members, rest)

/-- What begins neither a list nor an object is read as it stands. -/
theorem reads_scalar (hspace : isSpace c = false) (hlist : c ≠ '[') (hobject : c ≠ '\x7b')
    (hscalar : scalar? (c :: cs) = some (w, rest)) : Reads (c :: cs) w rest := by
  rw [Reads, found?_readValue?, afterToken?_cons_of_ne hspace hlist,
    afterToken?_cons_of_ne hspace hobject, dropSpace_cons hspace]
  exact hscalar

theorem reads_array_nil (rest : List Char) : Reads ('[' :: ']' :: rest) (.array []) rest := by
  rw [Reads, found?_readValue?, afterToken?_cons rfl]
  dsimp only
  rw [afterToken?_cons rfl]

theorem ReadsItems.reads (h : ReadsItems cs ws rest) (hclose : afterToken? ']' cs = none) :
    Reads ('[' :: cs) (.array ws) rest := by
  rw [ReadsItems] at h
  rw [Reads, found?_readValue?, afterToken?_cons rfl]
  dsimp only
  rw [hclose, h]
  rfl

theorem reads_object_nil (rest : List Char) :
    Reads ('\x7b' :: '\x7d' :: rest) (.object []) rest := by
  rw [Reads, found?_readValue?, afterToken?_cons_of_ne rfl (by decide), afterToken?_cons rfl]
  dsimp only
  rw [afterToken?_cons rfl]

theorem ReadsMembers.reads (h : ReadsMembers cs members rest)
    (hclose : afterToken? '\x7d' cs = none) : Reads ('\x7b' :: cs) (.object members) rest := by
  rw [ReadsMembers] at h
  rw [Reads, found?_readValue?, afterToken?_cons_of_ne rfl (by decide), afterToken?_cons rfl]
  dsimp only
  rw [hclose, h]
  rfl

/-- The last item stands before the closing bracket, with spaces between them. -/
theorem Reads.items_closed (h : Reads cs w after) (hcomma : afterToken? ',' after = none)
    (hclose : afterToken? ']' after = some rest) : ReadsItems cs [w] rest := by
  rw [Reads] at h
  rw [ReadsItems, found?_readItems?, h]
  simp [hcomma, hclose]

/-- Behind a comma there are more items. -/
theorem Reads.items_comma (h : Reads cs w after) (hcomma : afterToken? ',' after = some inner)
    (hitems : ReadsItems inner ws rest) : ReadsItems cs (w :: ws) rest := by
  rw [Reads] at h
  rw [ReadsItems] at hitems
  rw [ReadsItems, found?_readItems?, h]
  simp [hcomma, hitems]

/-- The last member stands before the closing brace, with spaces between them. -/
theorem Reads.members_closed (hname : memberName? cs = some (name, value))
    (h : Reads value w after) (hcomma : afterToken? ',' after = none)
    (hclose : afterToken? '\x7d' after = some rest) : ReadsMembers cs [(name, w)] rest := by
  rw [Reads] at h
  rw [ReadsMembers, found?_readMembers?, hname]
  simp [h, hcomma, hclose]

/-- Behind a comma there are more members. -/
theorem Reads.members_comma (hname : memberName? cs = some (name, value))
    (h : Reads value w after) (hcomma : afterToken? ',' after = some inner)
    (hmembers : ReadsMembers inner members rest) :
    ReadsMembers cs ((name, w) :: members) rest := by
  rw [Reads] at h
  rw [ReadsMembers] at hmembers
  rw [ReadsMembers, found?_readMembers?, hname]
  simp [h, hcomma, hmembers]

/-- The last item stands right before the closing bracket. -/
theorem Reads.items_last (h : Reads cs w (']' :: rest)) : ReadsItems cs [w] rest :=
  h.items_closed (afterToken?_cons_of_ne rfl (by decide) rest) (afterToken?_cons rfl rest)

/-- Behind a comma that stands right there there are more items. -/
theorem Reads.items_cons (h : Reads cs w (',' :: after)) (hitems : ReadsItems after ws rest) :
    ReadsItems cs (w :: ws) rest :=
  h.items_comma (afterToken?_cons rfl after) hitems

/-- The last member stands right before the closing brace. -/
theorem Reads.members_last (hname : memberName? cs = some (name, value))
    (h : Reads value w ('\x7d' :: rest)) : ReadsMembers cs [(name, w)] rest :=
  h.members_closed hname (afterToken?_cons_of_ne rfl (by decide) rest) (afterToken?_cons rfl rest)

/-- Behind a comma that stands right there there are more members. -/
theorem Reads.members_cons (hname : memberName? cs = some (name, value))
    (h : Reads value w (',' :: after)) (hmembers : ReadsMembers after members rest) :
    ReadsMembers cs ((name, w) :: members) rest :=
  h.members_comma hname (afterToken?_cons rfl after) hmembers

/-- What is left of a value that was read is shorter. -/
theorem Reads.length_lt (h : Reads cs w rest) : rest.length < cs.length := by
  obtain ⟨⟨found, left⟩, -, hpair⟩ := Option.map_eq_some_iff.1 h
  obtain ⟨-, rfl⟩ := Prod.mk.inj hpair
  exact left.2

/-- A whole text is read as a value that it begins with, if nothing but spaces is left. -/
theorem read?_eq_some_iff_reads :
    read? cs = some w ↔ ∃ rest, Reads cs w rest ∧ dropSpace rest = [] := by
  rw [read?, Option.bind_eq_some_iff]
  constructor
  · rintro ⟨⟨found, left⟩, hvalue, hend⟩
    rw [Option.ite_none_right_eq_some, List.isEmpty_iff, Option.some.injEq] at hend
    obtain ⟨hspaces, rfl⟩ := hend
    refine ⟨left.1, ?_, hspaces⟩
    rw [Reads, hvalue]
    rfl
  · rintro ⟨rest, h, hspaces⟩
    obtain ⟨⟨found, left⟩, hvalue, hpair⟩ := Option.map_eq_some_iff.1 h
    obtain ⟨rfl, rfl⟩ := Prod.mk.inj hpair
    refine ⟨_, hvalue, ?_⟩
    dsimp only at hspaces ⊢
    rw [hspaces]
    rfl

/-- A text that holds a value and nothing else is read as that value. -/
theorem read?_of_reads (h : Reads cs w []) : read? cs = some w :=
  read?_eq_some_iff_reads.2 ⟨[], h, rfl⟩

end Written

end GraphWalk
