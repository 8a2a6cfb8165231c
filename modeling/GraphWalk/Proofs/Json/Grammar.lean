import GraphWalk.Proofs.Json.Tokens

/-!
# The grammar of JSON

How a JSON text is written: lists and objects nested as deep as one likes, with spaces around
every token.  The grammar refers to no reader.

## Main definitions

* `Written.Spelled`, `Written.SpelledItems`, `Written.SpelledMembers` — how a value, items and
  members are written.
* `Written.IsText` — a whole text, with spaces around its value.

## Main results

* `Written.Spelled.reads` — what the grammar has is read.
* `Written.Reads.spelled` — what is read is in the grammar.
* `Written.read?_eq_some_iff` — **the reader reads the grammar**, and nothing else.
-/

namespace GraphWalk

namespace Written

/-! ### Values -/

mutual

/-- How a value is written. -/
inductive Spelled : Written → List Char → Prop
  /-- The word `null`. -/
  | null : Spelled .null ['n', 'u', 'l', 'l']
  /-- The word `true`. -/
  | yes : Spelled (.bool true) ['t', 'r', 'u', 'e']
  /-- The word `false`. -/
  | no : Spelled (.bool false) ['f', 'a', 'l', 's', 'e']
  /-- A number. -/
  | number {literal : NumberLiteral} {cs : List Char} (h : literal.Spelled cs) :
      Spelled (.number literal) cs
  /-- A quoted text. -/
  | string {codes : List Nat} {cs : List Char} (h : SpelledCodes codes cs) :
      Spelled (.string codes) ('"' :: (cs ++ ['"']))
  /-- A list without items. -/
  | noItems {gap : List Char} (h : IsSpaces gap) : Spelled (.array []) ('[' :: (gap ++ [']']))
  /-- A list with items. -/
  | array {items : List Written} {cs : List Char} (h : SpelledItems items cs) :
      Spelled (.array items) ('[' :: (cs ++ [']']))
  /-- An object without members. -/
  | noMembers {gap : List Char} (h : IsSpaces gap) :
      Spelled (.object []) ('\x7b' :: (gap ++ ['\x7d']))
  /-- An object with members. -/
  | object {members : List (List Nat × Written)} {cs : List Char}
      (h : SpelledMembers members cs) : Spelled (.object members) ('\x7b' :: (cs ++ ['\x7d']))

/-- How items are written. -/
inductive SpelledItems : List Written → List Char → Prop
  /-- One item, with spaces around it. -/
  | last {item : Written} {before cs after : List Char} (hbefore : IsSpaces before)
      (h : Spelled item cs) (hafter : IsSpaces after) :
      SpelledItems [item] (before ++ (cs ++ after))
  /-- One more item, and a comma. -/
  | cons {item : Written} {items : List Written} {before cs after more : List Char}
      (hbefore : IsSpaces before) (h : Spelled item cs) (hafter : IsSpaces after)
      (rest : SpelledItems items more) :
      SpelledItems (item :: items) (before ++ (cs ++ (after ++ ',' :: more)))

/-- How members are written. -/
inductive SpelledMembers : List (List Nat × Written) → List Char → Prop
  /-- One member, with spaces around its value. -/
  | last {codes : List Nat} {value : Written} {name before cs after : List Char}
      (hname : SpelledName codes name) (hbefore : IsSpaces before) (h : Spelled value cs)
      (hafter : IsSpaces after) :
      SpelledMembers [(codes, value)] (name ++ (before ++ (cs ++ after)))
  /-- One more member, and a comma. -/
  | cons {codes : List Nat} {value : Written} {members : List (List Nat × Written)}
      {name before cs after more : List Char} (hname : SpelledName codes name)
      (hbefore : IsSpaces before) (h : Spelled value cs) (hafter : IsSpaces after)
      (rest : SpelledMembers members more) :
      SpelledMembers ((codes, value) :: members)
        (name ++ (before ++ (cs ++ (after ++ ',' :: more))))

end

/-- A whole text of a value: nothing stands around the value but spaces. -/
def IsText (w : Written) (cs : List Char) : Prop :=
  ∃ before text after, IsSpaces before ∧ Spelled w text ∧ IsSpaces after ∧
    cs = before ++ (text ++ after)

/-! ### What the grammar has is read -/

section Complete

variable {w : Written} {items : List Written} {members : List (List Nat × Written)}
  {gap cs rest : List Char} {c : Char}

/-- Spaces in front of a value are passed over. -/
theorem Reads.behind_gap (h : Reads cs w rest) (hgap : IsSpaces gap) :
    Reads (gap ++ cs) w rest := by
  rw [Reads, found?_readValue?] at h ⊢
  rw [afterToken?_gap hgap, afterToken?_gap hgap, dropSpace_gap hgap]
  exact h

/-- A number begins with no other sign. -/
theorem ne_of_isPart {d : Char} (h : Number.isPart c = true) (hd : Number.isPart d = false) :
    c ≠ d := by
  rintro rfl
  rw [h] at hd
  cases hd

theorem isSpace_of_isPart (h : Number.isPart c = true) : isSpace c = false := by
  rw [← Bool.not_eq_true]
  intro hspace
  rw [isPart_of_isSpace hspace] at h
  cases h

/-- A number begins with a part of a number. -/
theorem exists_cons_of_number {literal : NumberLiteral} (h : literal.Spelled cs) :
    ∃ c more, cs = c :: more ∧ Number.isPart c = true := by
  have hne : cs ≠ [] := by
    cases h with
    | mk hwhole _ _ =>
      exact List.append_ne_nil_of_right_ne_nil _ (List.append_ne_nil_of_left_ne_nil hwhole.1.1 _)
  obtain ⟨c, more, rfl⟩ := List.exists_cons_of_ne_nil hne
  exact ⟨c, more, rfl, Number.isPart_of_mem_numeral (isNumeral_of_spelled h) List.mem_cons_self⟩

theorem reads_number {literal : NumberLiteral} (h : literal.Spelled cs)
    (hrest : Number.Closed rest) : Reads (cs ++ rest) (.number literal) rest := by
  have hnumber := numberLiteral?_append h hrest
  obtain ⟨c, more, rfl, hc⟩ := exists_cons_of_number h
  rw [List.cons_append] at hnumber ⊢
  refine reads_scalar (isSpace_of_isPart hc) (ne_of_isPart hc rfl) (ne_of_isPart hc rfl) ?_
  have hother : ∀ d, Number.isPart d = false → ∀ after, c :: (more ++ rest) = d :: after → False :=
    fun d hd after heq => ne_of_isPart hc hd (List.cons.inj heq).1
  rw [scalar?, hnumber]
  · rfl
  · exact hother 'n' rfl
  · exact hother 't' rfl
  · exact hother 'f' rfl
  · exact hother '"' rfl

/-- A value begins with no space and no closing bracket. -/
theorem Spelled.exists_cons (h : Spelled w cs) :
    ∃ c more, cs = c :: more ∧ isSpace c = false ∧ c ≠ ']' := by
  cases h with
  | number h =>
    obtain ⟨c, more, rfl, hc⟩ := exists_cons_of_number h
    exact ⟨c, more, rfl, isSpace_of_isPart hc, ne_of_isPart hc rfl⟩
  | _ => exact ⟨_, _, rfl, rfl, by decide⟩

/-- Items do not begin with the closing bracket. -/
theorem afterToken?_items (h : SpelledItems items cs) (rest : List Char) :
    afterToken? ']' (cs ++ rest) = none := by
  cases h with
  | last hbefore h _ =>
    obtain ⟨c, more, rfl, hc, hne⟩ := h.exists_cons
    rw [List.append_assoc]
    exact afterToken?_other hbefore hc hne _
  | cons hbefore h _ _ =>
    obtain ⟨c, more, rfl, hc, hne⟩ := h.exists_cons
    rw [List.append_assoc]
    exact afterToken?_other hbefore hc hne _

/-- Members do not begin with the closing brace. -/
theorem afterToken?_members (h : SpelledMembers members cs) (rest : List Char) :
    afterToken? '\x7d' (cs ++ rest) = none := by
  have hname : ∀ {codes name}, SpelledName codes name → ∀ rest,
      afterToken? '\x7d' (name ++ rest) = none := by
    rintro codes _ ⟨hbefore, _, _⟩ rest
    rw [List.append_assoc]
    exact afterToken?_other hbefore rfl (by decide) _
  cases h with
  | last h _ _ _ =>
    rw [List.append_assoc]
    exact hname h _
  | cons h _ _ _ _ =>
    rw [List.append_assoc]
    exact hname h _

mutual

/-- **A value is read** where no part of a number follows. -/
theorem Spelled.reads : ∀ {w : Written} {cs rest : List Char}, Spelled w cs →
    Number.Closed rest → Reads (cs ++ rest) w rest
  | _, _, _, .null, _ => reads_scalar rfl (by decide) (by decide) rfl
  | _, _, _, .yes, _ => reads_scalar rfl (by decide) (by decide) rfl
  | _, _, _, .no, _ => reads_scalar rfl (by decide) (by decide) rfl
  | _, _, _, .number h, hrest => reads_number h hrest
  | _, _, rest, .string h, _ => by
    rw [List.cons_append, List.append_assoc, List.singleton_append]
    refine reads_scalar rfl (by decide) (by decide) ?_
    rw [scalar?, stringBody?_append h]
    rfl
  | _, _, rest, .noItems h, _ => by
    have hclose := afterToken?_token h (show isSpace ']' = false from rfl) rest
    rw [List.cons_append, List.append_assoc, List.singleton_append, Reads, found?_readValue?,
      afterToken?_cons rfl]
    dsimp only
    rw [hclose]
  | _, _, rest, .array h, _ => by
    rw [List.cons_append, List.append_assoc, List.singleton_append]
    exact h.reads.reads (afterToken?_items h _)
  | _, _, rest, .noMembers h, _ => by
    have hclose := afterToken?_token h (show isSpace '\x7d' = false from rfl) rest
    rw [List.cons_append, List.append_assoc, List.singleton_append, Reads, found?_readValue?,
      afterToken?_cons_of_ne rfl (by decide), afterToken?_cons rfl]
    dsimp only
    rw [hclose]
  | _, _, rest, .object h, _ => by
    rw [List.cons_append, List.append_assoc, List.singleton_append]
    exact h.reads.reads (afterToken?_members h _)

/-- Items are read up to the closing bracket. -/
theorem SpelledItems.reads : ∀ {items : List Written} {cs rest : List Char},
    SpelledItems items cs → ReadsItems (cs ++ ']' :: rest) items rest
  | _, _, rest, @SpelledItems.last item before cs after hbefore h hafter => by
    have hclosed : Number.Closed (after ++ ']' :: rest) :=
      closed_gap hafter (Number.closed_cons rfl rest)
    simp only [List.append_assoc]
    exact ((h.reads hclosed).behind_gap hbefore).items_closed
      (afterToken?_other hafter rfl (by decide) rest) (afterToken?_token hafter rfl rest)
  | _, _, rest, @SpelledItems.cons item items before cs after more hbefore h hafter hmore => by
    have hclosed : Number.Closed (after ++ ',' :: (more ++ ']' :: rest)) :=
      closed_gap hafter (Number.closed_cons rfl _)
    simp only [List.append_assoc, List.cons_append]
    exact ((h.reads hclosed).behind_gap hbefore).items_comma (afterToken?_token hafter rfl _)
      hmore.reads

/-- Members are read up to the closing brace. -/
theorem SpelledMembers.reads : ∀ {members : List (List Nat × Written)} {cs rest : List Char},
    SpelledMembers members cs → ReadsMembers (cs ++ '\x7d' :: rest) members rest
  | _, _, rest, @SpelledMembers.last codes value name before cs after hname hbefore h hafter => by
    have hclosed : Number.Closed (after ++ '\x7d' :: rest) :=
      closed_gap hafter (Number.closed_cons rfl rest)
    simp only [List.append_assoc]
    exact ((h.reads hclosed).behind_gap hbefore).members_closed (memberName?_append hname _)
      (afterToken?_other hafter rfl (by decide) rest) (afterToken?_token hafter rfl rest)
  | _, _, rest,
      @SpelledMembers.cons codes value members name before cs after more hname hbefore h hafter
        hmore => by
    have hclosed : Number.Closed (after ++ ',' :: (more ++ '\x7d' :: rest)) :=
      closed_gap hafter (Number.closed_cons rfl _)
    simp only [List.append_assoc, List.cons_append]
    exact ((h.reads hclosed).behind_gap hbefore).members_comma (memberName?_append hname _)
      (afterToken?_token hafter rfl _) hmore.reads

end

end Complete

/-! ### What is read is in the grammar -/

section Sound

variable {w : Written} {items : List Written} {members : List (List Nat × Written)}
  {cs after rest : List Char}

theorem spelled_of_scalar? (h : scalar? cs = some (w, rest)) :
    ∃ text, Spelled w text ∧ cs = text ++ rest := by
  unfold scalar? at h
  split at h
  · next more =>
    obtain ⟨after, hafter, hpair⟩ := Option.map_eq_some_iff.1 h
    obtain ⟨rfl, rfl⟩ := Prod.mk.inj hpair
    exact ⟨_, .null, congrArg ('n' :: ·) (Text.after?_eq_some_iff.1 hafter)⟩
  · next more =>
    obtain ⟨after, hafter, hpair⟩ := Option.map_eq_some_iff.1 h
    obtain ⟨rfl, rfl⟩ := Prod.mk.inj hpair
    exact ⟨_, .yes, congrArg ('t' :: ·) (Text.after?_eq_some_iff.1 hafter)⟩
  · next more =>
    obtain ⟨after, hafter, hpair⟩ := Option.map_eq_some_iff.1 h
    obtain ⟨rfl, rfl⟩ := Prod.mk.inj hpair
    exact ⟨_, .no, congrArg ('f' :: ·) (Text.after?_eq_some_iff.1 hafter)⟩
  · next more =>
    obtain ⟨⟨codes, after⟩, hbody, hpair⟩ := Option.map_eq_some_iff.1 h
    obtain ⟨rfl, rfl⟩ := Prod.mk.inj hpair
    obtain ⟨text, htext, rfl⟩ := spelled_of_stringBody? hbody
    refine ⟨_, .string htext, ?_⟩
    rw [List.cons_append, List.append_assoc, List.singleton_append]
  · obtain ⟨⟨literal, after⟩, hliteral, hpair⟩ := Option.map_eq_some_iff.1 h
    obtain ⟨rfl, rfl⟩ := Prod.mk.inj hpair
    obtain ⟨text, htext, rfl⟩ := spelled_of_numberLiteral? hliteral
    exact ⟨text, .number htext, rfl⟩

/-- A reader of items has read a value, and behind it a comma and more items or the closing
bracket. -/
theorem ReadsItems.cases (h : ReadsItems cs items rest) :
    ∃ item after, Reads cs item after ∧
      ((∃ next more, afterToken? ',' after = some next ∧ ReadsItems next more rest ∧
          items = item :: more) ∨
        afterToken? ']' after = some rest ∧ items = [item]) := by
  rw [ReadsItems, found?_readItems?] at h
  obtain ⟨⟨item, after⟩, hitem, hbehind⟩ := Option.bind_eq_some_iff.1 h
  refine ⟨item, after, hitem, ?_⟩
  dsimp only at hbehind
  split at hbehind
  · next next hcomma =>
    obtain ⟨⟨more, _⟩, hmore, hpair⟩ := Option.map_eq_some_iff.1 hbehind
    obtain ⟨rfl, rfl⟩ := Prod.mk.inj hpair
    exact .inl ⟨next, more, hcomma, hmore, rfl⟩
  · obtain ⟨_, hclose, hpair⟩ := Option.map_eq_some_iff.1 hbehind
    obtain ⟨rfl, rfl⟩ := Prod.mk.inj hpair
    exact .inr ⟨hclose, rfl⟩

/-- A reader of members has read a name and a value, and behind them a comma and more members or
the closing brace. -/
theorem ReadsMembers.cases (h : ReadsMembers cs members rest) :
    ∃ codes value w after, memberName? cs = some (codes, value) ∧ Reads value w after ∧
      ((∃ next more, afterToken? ',' after = some next ∧ ReadsMembers next more rest ∧
          members = (codes, w) :: more) ∨
        afterToken? '\x7d' after = some rest ∧ members = [(codes, w)]) := by
  rw [ReadsMembers, found?_readMembers?] at h
  obtain ⟨⟨codes, value⟩, hname, hvalue⟩ := Option.bind_eq_some_iff.1 h
  obtain ⟨⟨w, after⟩, hw, hbehind⟩ := Option.bind_eq_some_iff.1 hvalue
  refine ⟨codes, value, w, after, hname, hw, ?_⟩
  dsimp only at hbehind
  split at hbehind
  · next next hcomma =>
    obtain ⟨⟨more, _⟩, hmore, hpair⟩ := Option.map_eq_some_iff.1 hbehind
    obtain ⟨rfl, rfl⟩ := Prod.mk.inj hpair
    exact .inl ⟨next, more, hcomma, hmore, rfl⟩
  · obtain ⟨_, hclose, hpair⟩ := Option.map_eq_some_iff.1 hbehind
    obtain ⟨rfl, rfl⟩ := Prod.mk.inj hpair
    exact .inr ⟨hclose, rfl⟩

mutual

/-- **What is read as a value is written as one**, perhaps behind spaces. -/
theorem Reads.spelled {cs : List Char} {w : Written} {rest : List Char} (h : Reads cs w rest) :
    ∃ gap text, IsSpaces gap ∧ Spelled w text ∧ cs = gap ++ (text ++ rest) := by
  -- by what stands first: a bracket, a brace, or a scalar; what is inside begins behind it
  rw [Reads, found?_readValue?] at h
  split at h
  · next inner hopen =>
    have hlength := length_of_afterToken? hopen
    obtain ⟨gap, hgap, rfl⟩ := exists_gap_of_afterToken? hopen
    split at h
    · next hclose =>
      cases h
      obtain ⟨inside, hinside, rfl⟩ := exists_gap_of_afterToken? hclose
      exact ⟨gap, _, hgap, .noItems hinside, by simp⟩
    · obtain ⟨⟨items, _⟩, hitems, hpair⟩ := Option.map_eq_some_iff.1 h
      obtain ⟨rfl, rfl⟩ := Prod.mk.inj hpair
      obtain ⟨body, hbody, rfl⟩ := ReadsItems.spelled hitems
      exact ⟨gap, _, hgap, .array hbody, by simp⟩
  · split at h
    · next inner hopen =>
      have hlength := length_of_afterToken? hopen
      obtain ⟨gap, hgap, rfl⟩ := exists_gap_of_afterToken? hopen
      split at h
      · next hclose =>
        cases h
        obtain ⟨inside, hinside, rfl⟩ := exists_gap_of_afterToken? hclose
        exact ⟨gap, _, hgap, .noMembers hinside, by simp⟩
      · obtain ⟨⟨members, _⟩, hmembers, hpair⟩ := Option.map_eq_some_iff.1 h
        obtain ⟨rfl, rfl⟩ := Prod.mk.inj hpair
        obtain ⟨body, hbody, rfl⟩ := ReadsMembers.spelled hmembers
        exact ⟨gap, _, hgap, .object hbody, by simp⟩
    · obtain ⟨gap, hgap, hcs⟩ := exists_gap cs
      obtain ⟨text, htext, hrest⟩ := spelled_of_scalar? h
      exact ⟨gap, text, hgap, htext, by rw [← hrest, ← hcs]⟩
termination_by (cs.length, 0)

theorem ReadsItems.spelled {cs : List Char} {items : List Written} {rest : List Char}
    (h : ReadsItems cs items rest) :
    ∃ body, SpelledItems items body ∧ cs = body ++ ']' :: rest := by
  obtain ⟨item, after, hitem, hbehind⟩ := h.cases
  have hshorter := hitem.length_lt
  obtain ⟨gap, text, hgap, htext, rfl⟩ := Reads.spelled hitem
  rcases hbehind with ⟨next, more, hcomma, hmore, rfl⟩ | ⟨hclose, rfl⟩
  · have hlength := length_of_afterToken? hcomma
    obtain ⟨between, hbetween, rfl⟩ := exists_gap_of_afterToken? hcomma
    obtain ⟨body, hbody, rfl⟩ := ReadsItems.spelled hmore
    exact ⟨_, .cons hgap htext hbetween hbody, by simp⟩
  · obtain ⟨between, hbetween, rfl⟩ := exists_gap_of_afterToken? hclose
    exact ⟨_, .last hgap htext hbetween, by simp⟩
termination_by (cs.length, 1)

theorem ReadsMembers.spelled {cs : List Char} {members : List (List Nat × Written)}
    {rest : List Char} (h : ReadsMembers cs members rest) :
    ∃ body, SpelledMembers members body ∧ cs = body ++ '\x7d' :: rest := by
  obtain ⟨codes, value, w, after, hname, hvalue, hbehind⟩ := h.cases
  have hshorter := hvalue.length_lt
  have hnamed := length_of_memberName? hname
  obtain ⟨name, hspelled, rfl⟩ := spelled_of_memberName? hname
  obtain ⟨gap, text, hgap, htext, rfl⟩ := Reads.spelled hvalue
  rcases hbehind with ⟨next, more, hcomma, hmore, rfl⟩ | ⟨hclose, rfl⟩
  · have hlength := length_of_afterToken? hcomma
    obtain ⟨between, hbetween, rfl⟩ := exists_gap_of_afterToken? hcomma
    obtain ⟨body, hbody, rfl⟩ := ReadsMembers.spelled hmore
    exact ⟨_, .cons hspelled hgap htext hbetween hbody, by simp⟩
  · obtain ⟨between, hbetween, rfl⟩ := exists_gap_of_afterToken? hclose
    exact ⟨_, .last hspelled hgap htext hbetween, by simp⟩
termination_by (cs.length, 1)

end

end Sound

/-! ### Whole texts -/

/-- **The reader reads the grammar**, and nothing else: a text is read as a value exactly if it is
a text of that value. -/
theorem read?_eq_some_iff {cs : List Char} {w : Written} : read? cs = some w ↔ IsText w cs := by
  rw [read?_eq_some_iff_reads]
  constructor
  · rintro ⟨rest, hreads, hspaces⟩
    obtain ⟨before, text, hbefore, htext, rfl⟩ := hreads.spelled
    obtain ⟨after, hafter, hrest⟩ := exists_gap rest
    rw [hspaces, List.append_nil] at hrest
    exact ⟨before, text, rest, hbefore, htext, hrest ▸ hafter, rfl⟩
  · rintro ⟨before, text, after, hbefore, htext, hafter, rfl⟩
    have hclosed := closed_gap hafter Number.closed_nil
    have hspaces := dropSpace_gap hafter []
    rw [List.append_nil] at hclosed hspaces
    exact ⟨after, (htext.reads hclosed).behind_gap hbefore, hspaces⟩

theorem read?_eq_none_iff {cs : List Char} : read? cs = none ↔ ∀ w, ¬IsText w cs := by
  rw [Option.eq_none_iff_forall_ne_some]
  exact forall_congr' fun w => not_congr read?_eq_some_iff

end Written

end GraphWalk
