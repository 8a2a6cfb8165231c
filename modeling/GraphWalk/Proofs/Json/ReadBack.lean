import GraphWalk.Json.Record
import GraphWalk.Proofs.Json.Reading
import GraphWalk.Proofs.Json.Texts

/-!
# Values are read back from their texts

The compact text of a value is read as it was written, member by member; as a value it holds
the members of every object in the order of their names.  What is said of a value is said of its
text with anything behind it that goes on with no part of a number, so lists and objects are put
together of what is said of their items and members.

## Main definitions

* `Json.ReadBack` — the text of a value is read as that value, nested at most so deep.

## Main results

* `Written.string?_codes` — the code points of a text tell the text.
* `Json.readBack_string` — **every text is read back**, whatever characters it is made of.
* `Json.readBack_array`, `Json.readBack_object` — lists and objects of values that are read back
  are read back.
* `Json.read?_text` — **what is read back is the value with its members collected.**
* `Written.exists_record?_of_content?` — what an object tells is told by its members.
-/

namespace GraphWalk

namespace Written

/-! ### Code points -/

/-- No character is half of a surrogate pair. -/
theorem not_surrogate (c : Char) :
    isHighSurrogate c.toNat = false ∧ isLowSurrogate c.toNat = false := by
  have hvalid : c.toNat < 0xd800 ∨ 0xdfff < c.toNat ∧ c.toNat < 0x110000 := c.valid
  constructor
  · rw [isHighSurrogate, Bool.and_eq_false_iff, decide_eq_false_iff_not, decide_eq_false_iff_not]
    omega
  · rw [isLowSurrogate, Bool.and_eq_false_iff, decide_eq_false_iff_not, decide_eq_false_iff_not]
    omega

theorem decode?_codes (cs : List Char) : decode? (cs.map Char.toNat) = some cs := by
  induction cs with
  | nil => rfl
  | cons c cs ih =>
    obtain ⟨hhigh, hlow⟩ := not_surrogate c
    rw [List.map_cons, decode?.eq_def]
    simp [hhigh, hlow, ih]

/-- The code points of a text tell the text. -/
theorem string?_codes (s : String) : string? (s.toList.map Char.toNat) = some s := by
  rw [string?, decode?_codes, Option.map_some, String.ofList_toList]

end Written

namespace Json

open Written

variable {depth : Nat} {v item : Json} {items : List Json} {name : String}
  {members : List (String × Json)} {cs rest : List Char}

/-! ### Quoted texts -/

theorem reads_quoted (s : String) (rest : List Char) :
    Reads (quoted s ++ rest) (.string (s.toList.map Char.toNat)) rest := by
  rw [quoted, List.cons_append, List.append_assoc, List.singleton_append]
  apply reads_scalar rfl (by decide) (by decide)
  rw [scalar?, stringBody?_escaped]
  rfl

theorem memberName?_quoted (name : String) (rest : List Char) :
    memberName? (quoted name ++ ':' :: rest) = some (name.toList.map Char.toNat, rest) := by
  have hcolon : afterToken? ':' (':' :: rest) = some rest := afterToken?_cons rfl rest
  rw [quoted, List.cons_append, List.append_assoc, List.singleton_append, memberName?,
    afterToken?_cons rfl, Option.bind_some, stringBody?_escaped]
  simp [hcolon]

/-! ### Values that are read back -/

/-- The text of the value, whatever follows it, is read as one that tells the value, and lists and
objects are nested in it at most so deep. -/
def ReadBack (depth : Nat) (v : Json) : Prop :=
  ∃ w : Written, w.height ≤ depth ∧ w.content? = some v ∧
    ∀ rest, Number.Closed rest → Reads (v.chars ++ rest) w rest

theorem ReadBack.of_le {deeper : Nat} (h : v.ReadBack depth) (hle : depth ≤ deeper) :
    v.ReadBack deeper := by
  obtain ⟨w, hheight, hvalue, hreads⟩ := h
  exact ⟨w, Nat.le_trans hheight hle, hvalue, hreads⟩

theorem readBack_bool (b : Bool) : (bool b).ReadBack 0 := by
  refine ⟨.bool b, Nat.le_refl 0, rfl, ?_⟩
  intro rest _
  cases b with
  | true => exact reads_scalar rfl (by decide) (by decide) rfl
  | false => exact reads_scalar rfl (by decide) (by decide) rfl

/-- **Every text is read back**, whatever characters it is made of. -/
theorem readBack_string (s : String) : (string s).ReadBack 0 := by
  refine ⟨.string (s.toList.map Char.toNat), Nat.le_refl 0, ?_, ?_⟩
  · rw [content?, string?_codes]
    rfl
  · intro rest _
    exact reads_quoted s rest

/-- No value begins with a space. -/
theorem opened?_of_isSpace {c : Char} (h : isSpace c = true) : Kind.opened? c = none := by
  simp only [isSpace, Bool.or_eq_true, beq_iff_eq] at h
  rcases h with ((rfl | rfl) | rfl) | rfl
  · rfl
  · rfl
  · rfl
  · rfl

/-- A value does not begin with a closing bracket. -/
theorem afterToken?_chars {token : Char} (h : Kind.opened? token = none) (v : Json)
    (rest : List Char) : afterToken? token (v.chars ++ rest) = none := by
  obtain ⟨c, cs, hv, hkind⟩ := v.exists_chars_eq_cons
  rw [hv, List.cons_append]
  apply afterToken?_cons_of_ne
  · cases hc : isSpace c with
    | false => rfl
    | true =>
      rw [opened?_of_isSpace hc] at hkind
      cases hkind
  · rintro rfl
    rw [h] at hkind
    cases hkind

/-! ### Lists -/

/-- Items that are read back are read one after the other. -/
theorem exists_reads_items (hitem : item.ReadBack depth)
    (h : ∀ item ∈ items, item.ReadBack depth) :
    ∃ ws, itemsHeight ws ≤ depth ∧ itemContents? ws = some (item :: items) ∧
      ∀ rest, ReadsItems (item.chars ++ itemChars items ++ rest) ws rest := by
  induction items generalizing item with
  | nil =>
    obtain ⟨w, hheight, hvalue, hreads⟩ := hitem
    refine ⟨[w], ?_, ?_, ?_⟩
    · simpa [itemsHeight] using hheight
    · simp [itemContents?, hvalue]
    · intro rest
      rw [List.append_assoc]
      exact (hreads _ (closed_itemChars [] rest)).items_last
  | cons next items ih =>
    obtain ⟨w, hheight, hvalue, hreads⟩ := hitem
    obtain ⟨ws, hheights, hvalues, hitems⟩ :=
      ih (h next List.mem_cons_self) fun item hmem => h item (List.mem_cons_of_mem next hmem)
    refine ⟨w :: ws, ?_, ?_, ?_⟩
    · exact Nat.max_le.2 ⟨hheight, hheights⟩
    · simp [itemContents?, hvalue, hvalues]
    · intro rest
      have hfirst := hreads _ (closed_itemChars (next :: items) rest)
      rw [itemChars, List.cons_append] at hfirst
      rw [itemChars, List.append_assoc, List.cons_append]
      exact hfirst.items_cons (hitems rest)

/-- A list of values that are read back is read back. -/
theorem readBack_array (h : ∀ item ∈ items, item.ReadBack depth) :
    (array items).ReadBack (depth + 1) := by
  cases items with
  | nil =>
    refine ⟨.array [], Nat.succ_le_succ (Nat.zero_le depth), rfl, ?_⟩
    intro rest _
    exact reads_array_nil rest
  | cons item items =>
    obtain ⟨hitem, hrest⟩ := List.forall_mem_cons.1 h
    obtain ⟨ws, hheight, hvalue, hreads⟩ := exists_reads_items hitem hrest
    refine ⟨.array ws, Nat.succ_le_succ hheight, ?_, ?_⟩
    · rw [content?, hvalue]
      rfl
    · intro rest _
      refine (hreads rest).reads ?_
      rw [List.append_assoc]
      exact afterToken?_chars rfl item _

/-! ### Objects -/

/-- Members that are read back are read one after the other. -/
theorem exists_reads_members (hv : v.ReadBack depth)
    (h : ∀ entry ∈ members, entry.2.ReadBack depth) :
    ∃ written, membersHeight written ≤ depth ∧
      memberContents? written = some ((name, v) :: members) ∧
      ∀ rest, ReadsMembers (quoted name ++ ':' :: (v.chars ++ memberChars members) ++ rest)
        written rest := by
  induction members generalizing name v with
  | nil =>
    obtain ⟨w, hheight, hvalue, hreads⟩ := hv
    refine ⟨[(name.toList.map Char.toNat, w)], ?_, ?_, ?_⟩
    · simpa [membersHeight] using hheight
    · simp [memberContents?, hvalue, string?_codes]
    · intro rest
      have hvalue := hreads _ (closed_memberChars [] rest)
      rw [List.append_assoc, List.cons_append, List.append_assoc]
      exact Reads.members_last (memberName?_quoted name _) hvalue
  | cons entry members ih =>
    obtain ⟨other, next⟩ := entry
    obtain ⟨w, hheight, hvalue, hreads⟩ := hv
    obtain ⟨written, hheights, hvalues, hmembers⟩ :=
      @ih next other (h _ List.mem_cons_self) fun entry hmem =>
        h entry (List.mem_cons_of_mem _ hmem)
    refine ⟨(name.toList.map Char.toNat, w) :: written, ?_, ?_, ?_⟩
    · exact Nat.max_le.2 ⟨hheight, hheights⟩
    · simp [memberContents?, hvalue, hvalues, string?_codes]
    · intro rest
      have hfirst := hreads _ (closed_memberChars ((other, next) :: members) rest)
      rw [memberChars, List.cons_append] at hfirst
      rw [memberChars, List.append_assoc, List.cons_append, List.append_assoc, List.cons_append]
      exact Reads.members_cons (memberName?_quoted name _) hfirst (hmembers rest)

/-- An object of values that are read back is read back. -/
theorem readBack_object (h : ∀ entry ∈ members, entry.2.ReadBack depth) :
    (object members).ReadBack (depth + 1) := by
  rcases members with _ | ⟨⟨name, v⟩, members⟩
  · refine ⟨.object [], Nat.succ_le_succ (Nat.zero_le depth), rfl, ?_⟩
    intro rest _
    exact reads_object_nil rest
  · obtain ⟨hv, hrest⟩ := List.forall_mem_cons.1 h
    obtain ⟨written, hheight, hvalue, hreads⟩ := exists_reads_members hv hrest
    refine ⟨.object written, Nat.succ_le_succ hheight, ?_, ?_⟩
    · rw [content?, hvalue]
      rfl
    · intro rest _
      refine (hreads rest).reads ?_
      rw [quoted, List.cons_append, List.cons_append]
      exact afterToken?_cons_of_ne rfl (by decide) _

/-! ### Whole texts -/

/-- What is read back is told by its text. -/
theorem exists_written_of_readBack (h : v.ReadBack depth) :
    ∃ w : Written, w.height ≤ depth ∧ w.content? = some v ∧
      Written.read? v.text.toList = some w := by
  obtain ⟨w, hheight, hvalue, hreads⟩ := h
  have hwhole := hreads [] Number.closed_nil
  rw [List.append_nil] at hwhole
  refine ⟨w, hheight, hvalue, ?_⟩
  rw [text, String.toList_ofList, read?_of_reads hwhole]

/-- **What is read back is the value with its members collected.** -/
theorem read?_text (h : v.ReadBack maxHeight) : read? v.text = some v.collected := by
  obtain ⟨w, hheight, hvalue, hread⟩ := exists_written_of_readBack h
  rw [read?, hread, Option.bind_some, valueWithin?, contentWithin?, Nat.add_zero, if_pos hheight,
    hvalue, Option.map_some]

end Json

/-! ### Records as they are written -/

namespace Written

/-- A field as it is written tells the value under the name. -/
def Tells (height : Nat) (field : String × Written) (entry : String × Json) : Prop :=
  field.1 = entry.1 ∧ field.2.content? = some entry.2 ∧ field.2.height < height

theorem exists_named?_of_memberContents? {members : List (List Nat × Written)}
    {entries : List (String × Json)} (h : memberContents? members = some entries) :
    ∃ fields, named? members = some fields ∧
      List.Forall₂ (Tells (membersHeight members + 1)) fields entries := by
  induction members generalizing entries with
  | nil =>
    obtain rfl : [] = entries := Option.some.inj h
    exact ⟨[], rfl, .nil⟩
  | cons member members ih =>
    obtain ⟨codes, value⟩ := member
    simp only [memberContents?, Option.bind_eq_some_iff, Option.map_eq_some_iff] at h
    obtain ⟨name, hname, v, hv, rest, hrest, rfl⟩ := h
    obtain ⟨fields, hfields, htells⟩ := ih hrest
    refine ⟨(name, value) :: fields, ?_, .cons ⟨rfl, hv, ?_⟩ (htells.imp ?_)⟩
    · rw [named?, List.mapM_cons, hname, ← named?, hfields]
      rfl
    · exact Nat.lt_succ_of_le (Nat.le_max_left _ _)
    · rintro field entry ⟨hsame, htold, hheight⟩
      exact ⟨hsame, htold, Nat.lt_of_lt_of_le hheight (Nat.succ_le_succ (Nat.le_max_right _ _))⟩

/-- What tells an object is a record, and its members tell those of the object. -/
theorem exists_record?_of_content? {w : Written} {entries : List (String × Json)}
    (h : w.content? = some (.object entries)) :
    ∃ fields, w.record? = some (.named fields) ∧
      List.Forall₂ (Tells w.height) fields entries := by
  cases w with
  | object members =>
    simp only [content?, Option.map_eq_some_iff, Json.object.injEq] at h
    obtain ⟨_, hcontents, rfl⟩ := h
    obtain ⟨fields, hfields, htells⟩ := exists_named?_of_memberContents? hcontents
    refine ⟨fields, ?_, htells⟩
    rw [record?, hfields, Option.map_some]
  | _ => simp [content?] at h

/-- What tells a text is the text. -/
theorem quoted?_of_content? {w : Written} {s : String} (h : w.content? = some (.string s)) :
    w.quoted? = some s := by
  cases w with
  | string codes =>
    simp only [content?, Option.map_eq_some_iff, Json.string.injEq] at h
    obtain ⟨_, hcodes, rfl⟩ := h
    exact hcodes
  | _ => simp [content?] at h

end Written

end GraphWalk
