import GraphWalk.Path

/-!
# Keys of paths

A key tells the fields of a path as long as no field has the separator in its name.  One
key then lies at or below another one exactly when the fields do.

## Main definitions

* `Path.IsPlain`, `Path.IsKeyName` — the separator is not in a name, which may not be empty either.
* `Path.Within` — one key is another one, or continues it.

## Main results

* `Path.key_ofFields_inj` — paths of different fields have different keys.
* `Path.isAtOrBelow_key_iff` — what lies at or below a path is told from the keys.
-/

namespace GraphWalk

namespace Path

/-- The name has no separator in it. -/
def IsPlain (name : String) : Prop := separator ∉ name.toList

/-- The name stands for itself in a key: it is not empty, and no separator is in it. -/
def IsKeyName (name : String) : Prop := name ≠ "" ∧ IsPlain name

instance (name : String) : Decidable (IsPlain name) :=
  inferInstanceAs (Decidable (separator ∉ name.toList))

instance (name : String) : Decidable (IsKeyName name) :=
  inferInstanceAs (Decidable (name ≠ "" ∧ IsPlain name))

variable {p q : List String}

/-! ### The text of a path -/

/-- Names that follow another one, each behind a separator. -/
def behind (names : List String) : List Char :=
  names.flatMap fun name => separator :: name.toList

/-- The text of a name is over: nothing follows, or a separator does. -/
def NameEnds (rest : List Char) : Prop := ∀ c ∈ rest.head?, c = separator

theorem joined_cons (name : String) (names : List String) :
    joined (name :: names) = name.toList ++ behind names := by
  induction names generalizing name with
  | nil => simp [behind]
  | cons next names ih =>
    rw [joined_cons_cons, ih next]
    rfl

theorem NameEnds.behind_append {rest : List Char} (h : NameEnds rest) (names : List String) :
    NameEnds (behind names ++ rest) := by
  cases names with
  | nil => exact h
  | cons name names => simp [behind, NameEnds]

theorem nameEnds_nil : NameEnds [] := nofun

theorem nameEnds_separator (rest : List Char) : NameEnds (separator :: rest) :=
  fun _ hc => (Option.some.inj hc).symm

theorem nameEnds_behind (names : List String) : NameEnds (behind names) := by
  cases names with
  | nil => exact nameEnds_nil
  | cons name names => simp [behind, NameEnds]

/-- A text is cut where its first name ends in one way only. -/
theorem cut_unique {a b x y : List Char} (ha : separator ∉ a) (hb : separator ∉ b)
    (hx : NameEnds x) (hy : NameEnds y) (h : a ++ x = b ++ y) : a = b ∧ x = y := by
  induction a generalizing b with
  | nil =>
    cases b with
    | nil => exact ⟨rfl, h⟩
    | cons c b =>
      rw [List.nil_append] at h
      have hc : c = separator := hx c (by rw [h]; rfl)
      exact absurd (hc ▸ List.mem_cons_self) hb
  | cons c a ih =>
    cases b with
    | nil =>
      rw [List.nil_append] at h
      have hc : c = separator := hy c (by rw [← h]; rfl)
      exact absurd (hc ▸ List.mem_cons_self) ha
    | cons d b =>
      obtain ⟨rfl, hrest⟩ := List.cons.inj h
      obtain ⟨rfl, hxy⟩ := ih (fun hmem => ha (List.mem_cons_of_mem _ hmem))
        (fun hmem => hb (List.mem_cons_of_mem _ hmem)) hrest
      exact ⟨rfl, hxy⟩

theorem isPrefix_of_behind (hp : ∀ name ∈ p, IsPlain name) (hq : ∀ name ∈ q, IsPlain name)
    {rest : List Char} (hrest : NameEnds rest) (h : behind q = behind p ++ rest) : p <+: q := by
  induction p generalizing q with
  | nil => exact List.nil_prefix
  | cons name names ih =>
    cases q with
    | nil => cases h
    | cons other others =>
      have hcut : other.toList ++ behind others = name.toList ++ (behind names ++ rest) := by
        simpa [behind] using h
      obtain ⟨hfirst, hothers⟩ := cut_unique (hq other List.mem_cons_self)
        (hp name List.mem_cons_self) (nameEnds_behind others) (hrest.behind_append names) hcut
      have hnames := ih (fun n hn => hp n (List.mem_cons_of_mem _ hn))
        (fun n hn => hq n (List.mem_cons_of_mem _ hn)) hothers
      exact List.cons_prefix_cons.2 ⟨(String.toList_inj.1 hfirst).symm, hnames⟩

theorem behind_injective (hp : ∀ name ∈ p, IsPlain name) (hq : ∀ name ∈ q, IsPlain name)
    (h : behind p = behind q) : p = q := by
  have hpq : p <+: q := isPrefix_of_behind hp hq nameEnds_nil (by rw [h, List.append_nil])
  have hqp : q <+: p := isPrefix_of_behind hq hp nameEnds_nil (by rw [h, List.append_nil])
  exact hpq.eq_of_length (Nat.le_antisymm hpq.length_le hqp.length_le)

/-! ### Keys of different fields -/

theorem joined_injective (hp : ∀ name ∈ p, IsPlain name) (hq : ∀ name ∈ q, IsPlain name)
    (hpne : p ≠ []) (hqne : q ≠ []) (h : joined p = joined q) : p = q := by
  obtain ⟨name, names, rfl⟩ := List.exists_cons_of_ne_nil hpne
  obtain ⟨other, others, rfl⟩ := List.exists_cons_of_ne_nil hqne
  rw [joined_cons, joined_cons] at h
  obtain ⟨hfirst, hrest⟩ := cut_unique (hp name List.mem_cons_self) (hq other List.mem_cons_self)
    (nameEnds_behind names) (nameEnds_behind others) h
  have hnames : names = others := behind_injective (fun n hn => hp n (List.mem_cons_of_mem _ hn))
    (fun n hn => hq n (List.mem_cons_of_mem _ hn)) hrest
  rw [String.toList_inj.1 hfirst, hnames]

/-- Paths of different fields have different keys. -/
theorem key_ofFields_inj (hp : ∀ name ∈ p, IsPlain name) (hq : ∀ name ∈ q, IsPlain name)
    (hpne : p ≠ []) (hqne : q ≠ []) (h : (ofFields p).key = (ofFields q).key) : p = q := by
  rw [key, key, String.ofList_inj, fields_ofFields, fields_ofFields] at h
  exact joined_injective hp hq hpne hqne h

/-! ### Keys below other keys -/

/-- A key is another one, or continues it behind a separator.  Every key lies within the empty
one. -/
def Within (key candidate : String) : Prop :=
  key = "" ∨ candidate = key ∨ ∃ rest, candidate.toList = key.toList ++ separator :: rest

theorem isAtOrBelow_iff_within {candidate key : String} :
    isAtOrBelow candidate key = true ↔ Within key candidate := by
  rw [isAtOrBelow, Within, Bool.or_eq_true, String.isEmpty_iff]
  refine or_congr_right ?_
  constructor
  · intro h
    split at h
    · next rest hrest =>
      have htext := Text.after?_eq_some_iff.1 hrest
      cases rest with
      | nil => exact .inl (String.toList_inj.1 (htext.trans (List.append_nil _)))
      | cons c rest =>
        have hc : c = separator := by simpa using h
        exact .inr ⟨rest, hc ▸ htext⟩
    · cases h
  · rintro (rfl | ⟨rest, htext⟩)
    · rw [Text.after?_eq_some_iff.2 (List.append_nil _).symm]
      rfl
    · rw [Text.after?_eq_some_iff.2 htext]
      exact beq_self_eq_true _

instance (key candidate : String) : Decidable (Within key candidate) :=
  decidable_of_iff _ isAtOrBelow_iff_within

/-- A text of fields that continues the text of others with a separator, or not at all, is the text
of fields that continue the others. -/
theorem isPrefix_of_joined (hp : ∀ name ∈ p, name ≠ "" ∧ IsPlain name)
    (hq : ∀ name ∈ q, IsPlain name) {rest : List Char} (hrest : NameEnds rest)
    (h : joined q = joined p ++ rest) : p <+: q := by
  cases p with
  | nil => exact List.nil_prefix
  | cons name names =>
    obtain ⟨hne, hname⟩ := hp name List.mem_cons_self
    rw [joined_cons, List.append_assoc] at h
    cases q with
    | nil =>
      -- the empty text continues no name
      have hempty := (List.append_eq_nil_iff.1 h.symm).1
      exact absurd (String.toList_eq_nil_iff.1 hempty) hne
    | cons other others =>
      rw [joined_cons] at h
      obtain ⟨hfirst, hothers⟩ := cut_unique (hq other List.mem_cons_self) hname
        (nameEnds_behind others) (hrest.behind_append names) h
      have hnames := isPrefix_of_behind (fun n hn => (hp n (List.mem_cons_of_mem _ hn)).2)
        (fun n hn => hq n (List.mem_cons_of_mem _ hn)) hrest hothers
      exact List.cons_prefix_cons.2 ⟨(String.toList_inj.1 hfirst).symm, hnames⟩

/-- The text of fields that continue others continues their text with a separator, or not at
all. -/
theorem joined_append (hpne : p ≠ []) (more : List String) :
    joined (p ++ more) = joined p ++ behind more := by
  cases p with
  | nil => exact absurd rfl hpne
  | cons name names =>
    rw [List.cons_append, joined_cons, joined_cons, List.append_assoc, behind, List.flatMap_append]
    rfl

/-- What lies at or below a path is told from the keys, as long as the names have no separator in
them. -/
theorem isAtOrBelow_key_iff {p q : Path} (hp : ∀ name ∈ p.fields, name ≠ "" ∧ IsPlain name)
    (hq : ∀ name ∈ q.fields, IsPlain name) (hpne : p.fields ≠ []) :
    isAtOrBelow q.key p.key = true ↔ p.fields <+: q.fields := by
  have hkey : p.key ≠ "" := by
    rw [key, ne_eq, ← String.toList_eq_nil_iff, String.toList_ofList]
    intro hnil
    have htext : joined [] = joined p.fields ++ [] := by rw [hnil, joined_nil, List.append_nil]
    have hbegins : p.fields <+: [] :=
      isPrefix_of_joined hp (fun name hname => absurd hname List.not_mem_nil) nameEnds_nil htext
    exact hpne (List.prefix_nil.1 hbegins)
  rw [isAtOrBelow_iff_within, Within, or_iff_right hkey, key, key, String.ofList_inj,
    String.toList_ofList, String.toList_ofList]
  constructor
  · rintro (h | ⟨rest, h⟩)
    · exact isPrefix_of_joined hp hq nameEnds_nil (h.trans (List.append_nil _).symm)
    · exact isPrefix_of_joined hp hq (nameEnds_separator rest) h
  · rintro ⟨more, hmore⟩
    rw [← hmore, joined_append hpne]
    cases more with
    | nil => exact .inl (List.append_nil _)
    | cons name more => exact .inr ⟨_, rfl⟩

end Path

end GraphWalk
