import GraphWalk.Event.Basic
import GraphWalk.Proofs.Json.Collected
import GraphWalk.Proofs.Json.ReadBack
import GraphWalk.Proofs.Time.ReadBack

/-!
# Events are read back from their texts

An event is written as an object, and read as a record of three fields: the text of its
identifier, the text of its moment and what is reported.  Each of these is told by its text
alone and stands there once, so the event is told.

## Main results

* `Uuid.read?_text` — **every identifier is read back.**
* `EventKind.ofJson?_json` — what is reported is read back.
* `BatchEvent.told_by_text` — **an event is told by its text**, if its moment is in range.
-/

namespace GraphWalk

/-! ### Identifiers -/

namespace Uuid

variable {cs : List Char}

/-- A hyphen is no digit. -/
theorem ofHex?_eq_none (h : '-' ∈ cs) : ofHex? cs = none := by
  have hnone : cs.mapM Text.hexDigit? = none := by
    induction cs with
    | nil => cases h
    | cons c cs ih =>
      rw [List.mapM_cons]
      rcases List.mem_cons.1 h with rfl | h
      · rfl
      · rw [ih h]
        cases Text.hexDigit? c <;> rfl
  rw [ofHex?, hnone]
  rfl

/-- What begins with a digit stands neither in braces nor behind the words that begin a name. -/
theorem unwrapped_cons_hexDigit (d : Fin 16) (cs : List Char) :
    unwrapped (Text.hexDigit d :: cs) = Text.hexDigit d :: cs := by
  have hbrace : ∀ d, Text.hexDigit d ≠ '\x7b' := by decide
  have hname : ∀ d, (Text.hexDigit d).toLower ≠ 'u' := by decide
  rw [unwrapped]
  · rw [if_neg]
    intro heq
    exact hname d (List.cons.inj heq).1
  · intro rest heq
    exact hbrace d (List.cons.inj heq).1

/-- **Every identifier is read back.** -/
theorem read?_text (u : Uuid) : read? u.text = some u := by
  obtain ⟨d, ds, hds⟩ : ∃ d ds, u.digits = d :: ds := by
    apply List.exists_cons_of_ne_nil
    intro hnil
    have hlength := u.length_digits
    rw [hnil] at hlength
    cases hlength
  obtain ⟨cs, hcs⟩ : ∃ cs, u.chars = Text.hexDigit d :: cs := by
    rw [chars, hexChars, hds]
    exact ⟨_, rfl⟩
  have hhyphen : '-' ∈ u.chars := by
    rw [chars, groups, hyphenate]
    exact List.mem_append_right _ List.mem_cons_self
  have hlength : groups.foldr (· + ·) 0 ≤ u.hexChars.length := by
    rw [hexChars, List.length_map, u.length_digits]
    decide
  have hwrapped : unwrapped u.chars = u.chars := by
    rw [hcs]
    exact unwrapped_cons_hexDigit d cs
  rw [read?, text, String.toList_ofList, ofChars?, ofHex?_eq_none hhyphen, Option.none_or,
    hwrapped, chars, dropHyphens?_hyphenate hlength, Option.bind_some, ofHex?_hexChars]

end Uuid

/-! ### Records -/

namespace Dict

variable {α : Type} {d : Dict α} {key name : String}

theorem only?_cons_self (h : name ∉ keys d) (value : α) :
    only? ((name, value) :: d) name = some value := by
  have hnone : d.filter (fun entry => entry.1 == name) = [] := by
    rw [List.filter_eq_nil_iff]
    intro entry hmem hname
    exact h (List.mem_map.2 ⟨entry, hmem, beq_iff_eq.1 hname⟩)
  simp [only?, hnone]

theorem only?_cons_of_ne (h : key ≠ name) (value : α) :
    only? ((name, value) :: d) key = only? d key := by
  simp [only?, h.symm]

/-- Among entries of different names no name stands twice. -/
theorem only?_eq_get? (hnodup : (keys d).Nodup) (key : String) : only? d key = get? d key := by
  induction d with
  | nil => rfl
  | cons entry d ih =>
    obtain ⟨name, value⟩ := entry
    obtain ⟨hfresh, hrest⟩ := List.nodup_cons.1 hnodup
    rw [get?_cons]
    split
    · next hkey => rw [hkey, only?_cons_self hfresh]
    · next hkey => rw [only?_cons_of_ne hkey, ih hrest]

end Dict

namespace Json

variable {members : Dict Json}

/-- Collected members hold under each name what they held. -/
theorem only?_collected (hnodup : (Dict.keys members).Nodup) (name : String) :
    Dict.only? (Dict.ofList (collectedMembers members)) name
      = (Dict.get? members name).map collected := by
  rw [Dict.only?_eq_get? (Dict.nodup_keys_of_ascending (Dict.ascending_ofList _)),
    get?_collected hnodup]

theorem strings?_ofStrings (items : List String) : (ofStrings items).strings? = some items := by
  rw [ofStrings, strings?]
  induction items with
  | nil => rfl
  | cons item items ih =>
    rw [List.map_cons, List.mapM_cons, ih]
    rfl

theorem collected_ofStrings (items : List String) :
    (ofStrings items).collected = ofStrings items := by
  rw [ofStrings, collected, collectedItems_eq_map, List.map_map]
  rfl

theorem readBack_ofStrings (items : List String) : (ofStrings items).ReadBack 1 := by
  apply readBack_array
  intro item hitem
  obtain ⟨s, -, rfl⟩ := List.mem_map.1 hitem
  exact readBack_string s

end Json

/-! ### What is reported -/

namespace EventKind

open Json

variable {members : Dict Json} {paths : List String}

/-- Three fields tell an answer. -/
theorem ofJson?_flushed {changed : Bool}
    (htag : Dict.only? members "type" = some (.string "flushed"))
    (hpaths : Dict.only? members "paths" = some (ofStrings paths))
    (hchanged : Dict.only? members "changed" = some (.bool changed)) :
    ofJson? (.object members) = some (.flushed paths changed) := by
  simp [ofJson?, record?, Record.tagged?, htag, string?, Record.fields?, hpaths, hchanged, outcome?,
    strings?_ofStrings, bool?]

/-- Three fields tell a failure. -/
theorem ofJson?_failed {error : String}
    (htag : Dict.only? members "type" = some (.string "failed"))
    (hpaths : Dict.only? members "paths" = some (ofStrings paths))
    (herror : Dict.only? members "error" = some (.string error)) :
    ofJson? (.object members) = some (.failed paths error) := by
  simp [ofJson?, record?, Record.tagged?, htag, string?, Record.fields?, hpaths, herror, outcome?,
    strings?_ofStrings]

/-- What is reported is read back, from its members as they are written and as they are
collected. -/
theorem ofJson?_json (k : EventKind) :
    ofJson? k.json = some k ∧ ofJson? k.json.collected = some k := by
  cases k with
  | scheduled => exact ⟨rfl, rfl⟩
  | flushed paths changed =>
    refine ⟨ofJson?_flushed rfl rfl rfl, ofJson?_flushed ?_ ?_ ?_⟩
    · exact only?_collected (by simp) "type"
    · refine (only?_collected (by simp) "paths").trans ?_
      exact congrArg some (collected_ofStrings paths)
    · exact only?_collected (by simp) "changed"
  | failed paths error =>
    refine ⟨ofJson?_failed rfl rfl rfl, ofJson?_failed ?_ ?_ ?_⟩
    · exact only?_collected (by simp) "type"
    · refine (only?_collected (by simp) "paths").trans ?_
      exact congrArg some (collected_ofStrings paths)
    · exact only?_collected (by simp) "error"

theorem readBack_json (k : EventKind) : k.json.ReadBack 2 := by
  cases k with
  | scheduled =>
    apply readBack_object
    simp [(readBack_string _).of_le]
  | flushed paths changed =>
    apply readBack_object
    simp [(readBack_string _).of_le, readBack_ofStrings, (readBack_bool _).of_le]
  | failed paths error =>
    apply readBack_object
    simp [(readBack_string _).of_le, readBack_ofStrings]

end EventKind

/-! ### Events -/

namespace BatchEvent

open Json

theorem readBack_json (e : BatchEvent) : e.json.ReadBack 3 := by
  apply readBack_object
  simp [(readBack_string _).of_le, EventKind.readBack_json]

/-- Three fields tell an event if they tell its identifier, its moment and what is reported. -/
theorem ofRecord?_of_fields? {α : Type} {text? : α → Option String}
    {kind? : α → Option EventKind} {record : Record α} {e : BatchEvent} {batch time kind : α}
    (hfields : record.fields? ["batch", "at", "kind"] = some [batch, time, kind])
    (hbatch : text? batch = some e.batch.text) (htime : text? time = some e.time.text)
    (hkind : kind? kind = some e.kind) (h : e.time.inRange = true) :
    ofRecord? text? kind? record = some e := by
  rw [ofRecord?, hfields, Option.bind_some, ofFields?, hbatch, htime, hkind, Option.bind_some,
    Option.bind_some, Uuid.read?_text, Timestamp.read?_text h]
  rfl

/-- An event is read back from the value that its text denotes. -/
theorem ofJson?_collected {e : BatchEvent} (h : e.time.inRange = true) :
    ofJson? e.json.collected = some e := by
  have hfields : (Record.named (Dict.ofList (collectedMembers [("batch", .string e.batch.text),
        ("at", .string e.time.text), ("kind", e.kind.json)]))).fields? ["batch", "at", "kind"]
      = some [.string e.batch.text, .string e.time.text, e.kind.json.collected] := by
    -- collecting puts the members in order, and each of the three names stands there once
    rw [Record.fields?, funext (only?_collected (by simp))]
    rfl
  exact ofRecord?_of_fields? hfields rfl rfl (EventKind.ofJson?_json e.kind).2 h

/-- An event is read back from what tells it, unless it is nested too deep. -/
theorem ofWritten?_of_content? {e : BatchEvent} {w : Written} (h : e.time.inRange = true)
    (hcontent : w.content? = some e.json) (hheight : w.height ≤ Written.maxHeight) :
    ofWritten? w = some e := by
  obtain ⟨fields, hrecord, htells⟩ := Written.exists_record?_of_content? hcontent
  -- exactly three members are met, each with what it tells
  simp only [List.forall₂_cons_right_iff, List.forall₂_nil_right_iff] at htells
  obtain ⟨⟨_, batch⟩, _, ⟨rfl, hbatch, -⟩, htells, rfl⟩ := htells
  obtain ⟨⟨_, time⟩, _, ⟨rfl, htime, -⟩, htells, rfl⟩ := htells
  obtain ⟨⟨_, kind⟩, _, ⟨rfl, hkind, hlower⟩, rfl, rfl⟩ := htells
  have hwithin : kind.contentWithin? 1 = some e.kind.json := by
    rw [Written.contentWithin?, if_pos (Nat.le_trans hlower hheight)]
    exact hkind
  rw [ofWritten?, hrecord, Option.bind_some]
  refine ofRecord?_of_fields? rfl (Written.quoted?_of_content? hbatch)
    (Written.quoted?_of_content? htime) ?_ h
  rw [hwithin, Option.bind_some, (EventKind.ofJson?_json e.kind).1]

/-- **An event is told by its text**, if its moment is in range.

It is read back as it was, from its text and from the value that its text denotes, so two events
that have the same text are the same event.  The range holds all years of four digits and many more,
and every moment of these years, leap seconds and single nanoseconds included. -/
theorem told_by_text (e : BatchEvent) (h : e.time.inRange = true) :
    read? e.text = some e ∧ (Json.read? e.text).bind ofJson? = some e ∧
      ∀ other : BatchEvent, other.time.inRange = true → other.text = e.text → other = e := by
  have hread : ∀ e : BatchEvent, e.time.inRange = true → read? e.text = some e := by
    intro e h
    obtain ⟨w, hheight, hcontent, hread⟩ := exists_written_of_readBack e.readBack_json
    rw [read?, text, hread, Option.bind_some]
    exact ofWritten?_of_content? h hcontent (Nat.le_trans hheight (by decide))
  have hvalue : (Json.read? e.text).bind ofJson? = some e := by
    rw [text, Json.read?_text (e.readBack_json.of_le (by decide)), Option.bind_some,
      ofJson?_collected h]
  refine ⟨hread e h, hvalue, ?_⟩
  intro other hother hsame
  have htwice := hread other hother
  rw [hsame, hread e h] at htwice
  exact (Option.some.inj htwice).symm

/-- A failure on the last leap day of the years of four digits, a nanosecond after the second
began, told with quotes, controls and characters beyond the first plane. -/
def leapDayFailure : BatchEvent where
  batch := ⟨List.replicate 32 (Fin.last 15), rfl⟩
  time := ⟨⟨9996, 2, 29, by decide, by decide, by decide, by decide⟩, 23, 58, 57, 1,
    by decide, by decide, by decide, by decide⟩
  kind := .failed ["item(id:\"a\\b\").name", ""] "\x00\x1f\n\t\u2028😀"

/-- It is told by its text. -/
theorem told_by_text_leapDay :
    leapDayFailure.time.inRange = true ∧ read? leapDayFailure.text = some leapDayFailure ∧
      (Json.read? leapDayFailure.text).bind ofJson? = some leapDayFailure ∧
      ∀ other : BatchEvent, other.time.inRange = true → other.text = leapDayFailure.text →
        other = leapDayFailure :=
  ⟨by decide, told_by_text leapDayFailure (by decide)⟩

end BatchEvent

end GraphWalk
