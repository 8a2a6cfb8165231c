import GraphWalk.Proofs.Schema.FieldNames
import GraphWalk.Proofs.Schema.Scanner

/-!
# The fields that a scanner declares

Whatever a text is, the fields that are read from it are in order: no name twice on one level,
each where it is declared first and as it is declared last, and every name as it stands in the
text, from its first character to its last.  This holds on every level, since the arguments of a
field are the fields of a part of the text, and the parentheses around the part cut no name.

## Main definitions

* `IsRun` — a name stands in a text, and does not go on before or behind.
* `IsSlice` — a part of a text that stands between parentheses.
* `Level` — some fields, the arguments of one of them, and so on.

## Main results

* `names_collect`, `last_of_mem_collect` — where a name is kept, and as what.
* `Scan.standsIn` — the names of a declared field stand in the text.
* `read_scanned` — **the scanner ends on every text and declares each field once per level.**
-/

namespace GraphWalk

namespace FieldDecl

open Text

/-! ### Names and parts of a text -/

/-- A name stands in a text: it has a character, all its characters belong to names, and those
before and behind it do not. -/
def IsRun (text : List Char) (name : String) : Prop :=
  ∃ before after, text = before ++ (name.toList ++ after) ∧ name ≠ "" ∧
    (∀ c ∈ name.toList, isName c = true) ∧ (∀ c ∈ before.getLast?, isName c = false) ∧
    ∀ c ∈ after.head?, isName c = false

/-- A part of a text that stands between parentheses, of which the closing one may be missing. -/
def IsSlice (text slice : List Char) : Prop :=
  ∃ before after, text = before ++ '(' :: (slice ++ after) ∧
    (after = [] ∨ ∃ more, after = ')' :: more)

section Parts

variable {cs rest text slice inner after : List Char} {name : String}

theorem isRun_of_spanName (hspan : spanName cs = (name.toList, after)) (hname : name ≠ "") :
    IsRun cs name := by
  obtain ⟨htake, hdrop⟩ := Prod.mk.inj hspan
  refine ⟨[], after, ?_, hname, fun c hc => ?_, nofun, ?_⟩
  · rw [← htake, ← hdrop, List.nil_append, List.takeWhile_append_dropWhile]
  · rw [← htake] at hc
    exact List.mem_takeWhile_imp hc
  · rw [← hdrop]
    exact head?_dropWhile isName cs

/-- A name stands in a text if it stands in what the scanner leaves of it. -/
theorem IsRun.of_reaches (h : IsRun rest name) (hreaches : Reaches cs rest) : IsRun cs name := by
  obtain ⟨before, after, rfl, hname, hall, hbefore, hafter⟩ := h
  obtain ⟨passed, rfl, hpassed⟩ := hreaches
  refine ⟨passed ++ before, after, (List.append_assoc ..).symm, hname, hall, ?_, hafter⟩
  intro c hc
  cases hlast : before.getLast? with
  | some last =>
    rw [List.getLast?_append, hlast, Option.some_or] at hc
    cases hc
    exact hbefore c hlast
  | none =>
    -- the name is at the front of what is left, so it does not go on in what is passed
    rw [List.getLast?_append, hlast, Option.none_or] at hc
    cases List.getLast?_eq_none_iff.1 hlast
    obtain ⟨d, more, hd⟩ := List.exists_cons_of_ne_nil (String.toList_eq_nil_iff.not.2 hname)
    rw [hd] at hpassed hall
    refine (hpassed c hc d rfl).resolve_right ?_
    rw [hall d List.mem_cons_self]
    exact Bool.noConfusion

/-- A name that stands in a part of a text stands in the text. -/
theorem IsRun.of_slice (h : IsRun slice name) (hslice : IsSlice text slice) : IsRun text name := by
  obtain ⟨before, after, rfl, hname, hall, hbefore, hafter⟩ := h
  obtain ⟨front, back, rfl, hback⟩ := hslice
  -- at its ends the part meets parentheses or the end of the text, and these belong to no name
  refine ⟨front ++ '(' :: before, after ++ back, ?_, hname, hall, fun c hc => ?_, fun c hc => ?_⟩
  · simp only [List.append_assoc, List.cons_append]
  · rw [List.getLast?_append, List.getLast?_cons, Option.some_or, Option.mem_some_iff] at hc
    cases hlast : before.getLast? with
    | some last =>
      rw [hlast, Option.getD_some] at hc
      exact hc ▸ hbefore last hlast
    | none =>
      rw [hlast, Option.getD_none] at hc
      rw [← hc]
      decide
  · rw [List.head?_append] at hc
    cases hhead : after.head? with
    | some first =>
      rw [hhead, Option.some_or, Option.mem_some_iff] at hc
      exact hc ▸ hafter first hhead
    | none =>
      rw [hhead, Option.none_or] at hc
      rcases hback with rfl | ⟨more, rfl⟩
      · cases hc
      · cases hc
        decide

theorem IsSlice.of_suffix (h : IsSlice rest slice) (hsuffix : rest <:+ cs) : IsSlice cs slice := by
  obtain ⟨before, after, rfl, hafter⟩ := h
  obtain ⟨passed, rfl⟩ := hsuffix
  exact ⟨passed ++ before, after, (List.append_assoc ..).symm, hafter⟩

theorem IsSlice.trans (h : IsSlice text slice) (hinner : IsSlice slice inner) :
    IsSlice text inner := by
  obtain ⟨front, back, rfl, hback⟩ := h
  obtain ⟨before, after, rfl, hafter⟩ := hinner
  refine ⟨front ++ '(' :: before, after ++ back, ?_, ?_⟩
  · simp only [List.append_assoc, List.cons_append]
  · rcases hafter with rfl | ⟨more, rfl⟩
    · exact hback
    · exact .inr ⟨more ++ back, rfl⟩

theorem isSlice_spanBalanced (cs : List Char) :
    IsSlice ('(' :: cs) (spanBalanced '(' ')' 0 cs).1 := by
  rcases spanBalanced_cases '(' ')' 0 cs with hclosed | ⟨hinner, -⟩
  · exact ⟨[], _, congrArg ('(' :: ·) hclosed, .inr ⟨_, rfl⟩⟩
  · refine ⟨[], [], ?_, .inl rfl⟩
    rw [hinner, List.append_nil]
    rfl

end Parts

/-! ### Repeated names -/

section Repeated

variable {decls declared : List FieldDecl} {decl added : FieldDecl}

theorem collect_concat (declared : List FieldDecl) (decl : FieldDecl) :
    collect (declared ++ [decl]) = put (collect declared) decl := by
  rw [collect, List.foldl_append]
  rfl

theorem any_name_iff :
    (decls.any fun old => old.name == added.name) = true ↔ added.name ∈ decls.map name := by
  simp only [List.any_eq_true, beq_iff_eq, List.mem_map]

/-- A name that is there stays where it is, and a new one comes last. -/
theorem names_put (decls : List FieldDecl) (added : FieldDecl) :
    (put decls added).map name =
      if added.name ∈ decls.map name then decls.map name else decls.map name ++ [added.name] := by
  rw [put]
  split
  · next hany =>
    rw [if_pos (any_name_iff.1 hany), List.map_map]
    refine List.map_congr_left fun old _ => ?_
    dsimp only [Function.comp_apply]
    split
    · next heq => exact (beq_iff_eq.1 heq).symm
    · rfl
  · next hany =>
    rw [if_neg (mt any_name_iff.2 hany), List.map_append]
    rfl

/-- **Each name is kept once, where it is declared first.** -/
theorem names_collect (declared : List FieldDecl) :
    (collect declared).map name = (declared.map name).eraseDups := by
  induction declared using List.reverseRecOn with
  | nil => rfl
  | append_singleton declared decl ih =>
    rw [collect_concat, names_put, List.map_append, List.map_singleton, List.eraseDups_append, ih]
    generalize declared.map name = names
    by_cases hmem : decl.name ∈ names
    · have hold : [decl.name].removeAll names = [] := by simp [List.removeAll, hmem]
      rw [if_pos (List.mem_eraseDups.2 hmem), hold]
      exact (List.append_nil _).symm
    · have hnew : [decl.name].removeAll names = [decl.name] := by simp [List.removeAll, hmem]
      rw [if_neg (mt List.mem_eraseDups.1 hmem), hnew]
      rfl

theorem nodup_names_collect (declared : List FieldDecl) :
    ((collect declared).map name).Nodup := by
  induction declared using List.reverseRecOn with
  | nil => exact List.nodup_nil
  | append_singleton declared decl ih =>
    rw [collect_concat, names_put]
    split
    · exact ih
    · next hnew => exact List.nodup_append_comm.1 (List.nodup_cons.2 ⟨hnew, ih⟩)

/-- What is kept is what is added, or it was kept before and has another name. -/
theorem of_mem_put (h : decl ∈ put decls added) :
    decl = added ∨ decl ∈ decls ∧ decl.name ≠ added.name := by
  rw [put] at h
  split at h
  · obtain ⟨old, hold, rfl⟩ := List.mem_map.1 h
    split
    · exact .inl rfl
    · next hne => exact .inr ⟨hold, mt beq_iff_eq.2 hne⟩
  · next hany =>
    rcases List.mem_append.1 h with h | h
    · refine .inr ⟨h, fun heq => hany (any_name_iff.2 ?_)⟩
      exact heq ▸ List.mem_map_of_mem h
    · exact .inl (List.mem_singleton.1 h)

/-- **What is kept is the last declaration of its name.** -/
theorem last_of_mem_collect (h : decl ∈ collect declared) :
    ∃ before after, declared = before ++ decl :: after ∧
      ∀ later ∈ after, later.name ≠ decl.name := by
  induction declared using List.reverseRecOn with
  | nil => cases h
  | append_singleton declared added ih =>
    rw [collect_concat] at h
    rcases of_mem_put h with rfl | ⟨h, hne⟩
    · exact ⟨declared, [], rfl, nofun⟩
    · obtain ⟨before, after, rfl, hafter⟩ := ih h
      refine ⟨before, after ++ [added], List.append_assoc .., fun later hlater => ?_⟩
      rcases List.mem_append.1 hlater with hlater | hlater
      · exact hafter later hlater
      · rw [List.mem_singleton.1 hlater]
        exact hne.symm

end Repeated

/-! ### Declared fields -/

/-- A declared field as it stands in a text: its name and the name of its type stand there, and
its arguments are declared in a part of the text. -/
structure StandsIn (text : List Char) (decl : FieldDecl) : Prop where
  /-- The name of the field stands in the text. -/
  name : IsRun text decl.name
  /-- The name of its type stands in the text. -/
  type : IsRun text decl.type.name
  /-- Its arguments are declared between parentheses. -/
  arguments : ∀ arguments ∈ decl.arguments, ∃ slice places inner,
    IsSlice text slice ∧ Scan slice places inner ∧ arguments = collect inner

section Declared

variable {cs rest stop : List Char} {places : List (List Char)} {declared : List FieldDecl}
  {decl : FieldDecl} {name : String} {slice : Option (List Char)} {type : TypeUse}

theorem StandsIn.of_reaches (h : StandsIn rest decl) (hreaches : Reaches cs rest) :
    StandsIn cs decl := by
  refine ⟨h.name.of_reaches hreaches, h.type.of_reaches hreaches, fun arguments harguments => ?_⟩
  obtain ⟨slice, places, inner, hslice, hscan⟩ := h.arguments arguments harguments
  exact ⟨slice, places, inner, hslice.of_suffix hreaches.suffix, hscan⟩

theorem TypeScan.isRun (h : TypeScan cs places (some type) rest) : IsRun cs type.name := by
  generalize hfound : some type = found at h
  induction h generalizing type with
  | list hopen _ ih =>
    cases hfound
    exact (ih rfl).of_reaches ((reaches_bracket hopen).trans (reaches_tail (by decide) _))
  | unlisted _ _ _ => cases hfound
  | named _ hspan hname =>
    cases hfound
    exact (isRun_of_spanName hspan hname).of_reaches (reaches_dropBlanks _)
  | nameless _ _ => cases hfound

theorem Behind.isRun (h : Behind rest places (some type) stop) : IsRun rest type.name := by
  cases h with
  | typed htype => exact htype.isRun.of_reaches (reaches_tail (by decide) _)

theorem Heading.isRun (h : Heading cs places name slice rest) : IsRun cs name := by
  obtain ⟨after, -, hspan, hname, -, -⟩ := h.spans
  exact (isRun_of_spanName hspan hname).of_reaches (reaches_dropTrivia cs)

theorem Heading.isSlice {inner : List Char} (h : Heading cs places name (some inner) rest) :
    IsSlice cs inner := by
  cases h with
  | @called after text _ hspan _ hopen =>
    have hparenthesis : Reaches after ('(' :: text) := hopen ▸ reaches_dropBlanks after
    have hreaches := (reaches_dropTrivia cs).trans ((reaches_name hspan).trans hparenthesis)
    exact (isSlice_spanBalanced text).of_suffix hreaches.suffix

/-- **The names of a declared field stand in the text.** -/
theorem Scan.standsIn (h : Scan cs places declared) : ∀ decl ∈ declared, StandsIn cs decl := by
  induction h with
  | done _ => exact nofun
  | @character cs rest c _ _ h hc _ ih =>
    have hreaches : Reaches cs (c :: rest) := h ▸ reaches_dropTrivia cs
    exact fun decl hdecl => (ih decl hdecl).of_reaches (hreaches.trans (reaches_tail hc rest))
  | dropped heading _ behind _ _ ih =>
    exact fun decl hdecl =>
      (ih decl hdecl).of_reaches (heading.trail.reaches.trans behind.trail.reaches)
  | @field _ _ _ _ slice _ _ _ _ _ _ _ heading hslice behind _ _ ih =>
    -- the new field stands at the front, and the others in what is left behind it
    intro decl hdecl
    rcases List.mem_cons.1 hdecl with rfl | hdecl
    · refine ⟨heading.isRun, behind.isRun.of_reaches heading.trail.reaches, ?_⟩
      intro arguments harguments
      obtain ⟨text, htext, rfl⟩ := Option.map_eq_some_iff.1 harguments
      cases htext
      exact ⟨text, _, _, heading.isSlice, hslice text rfl, rfl⟩
    · exact (ih decl hdecl).of_reaches (heading.trail.reaches.trans behind.trail.reaches)

/-- So do the names of a field that is kept. -/
theorem Scan.standsIn_of_mem_collect (h : Scan cs places declared)
    (hdecl : decl ∈ collect declared) : StandsIn cs decl := by
  obtain ⟨before, after, rfl, -⟩ := last_of_mem_collect hdecl
  exact h.standsIn decl (List.mem_append_right before List.mem_cons_self)

end Declared

/-! ### Levels -/

/-- Some fields, the arguments of one of them, the arguments of one of these, and so on. -/
inductive Level (fields : List FieldDecl) : List FieldDecl → Prop
  /-- The fields themselves. -/
  | top : Level fields fields
  /-- The arguments of a field of a level. -/
  | arguments {level arguments : List FieldDecl} {decl : FieldDecl} (h : Level fields level)
      (hdecl : decl ∈ level) (harguments : decl.arguments = some arguments) :
      Level fields arguments

section Levels

variable {text : List Char} {level : List FieldDecl}

/-- Each level is declared in a part of the text. -/
theorem Level.exists_scan (h : Level (read text) level) :
    ∃ slice places declared, (slice = text ∨ IsSlice text slice) ∧ Scan slice places declared ∧
      level = collect declared := by
  induction h with
  | top =>
    obtain ⟨places, declared, hscan⟩ := FieldDecl.exists_scan text
    refine ⟨text, places, declared, .inl rfl, hscan, ?_⟩
    rw [read, hscan.declared_eq]
  | arguments _ hdecl harguments ih =>
    obtain ⟨slice, places, declared, hslice, hscan, rfl⟩ := ih
    obtain ⟨part, others, inner, hpart, hinner, rfl⟩ :=
      (hscan.standsIn_of_mem_collect hdecl).arguments _ harguments
    refine ⟨part, others, inner, .inr ?_, hinner, rfl⟩
    rcases hslice with rfl | hslice
    · exact hpart
    · exact hslice.trans hpart

end Levels

/-- **The scanner ends on every text and declares each field once per level.**  On every text it
has exactly one run, and what is read is what the run declares.  A run leads from the text to its
end, and what is left at one place is the end of what was left at the place before, so it never
goes back.  Each level of the fields that are
read is declared by the run on some part of the text: its names are the declared ones in the order
in which they come first, none of them twice, each field is the last of its name, and its name and
the name of its type stand in the text as they are. -/
theorem read_scanned (text : List Char) :
    (∃! run : List (List Char) × List FieldDecl, Scan text run.1 run.2) ∧
    (∀ places declared, Scan text places declared → read text = collect declared ∧
      (text :: places).IsChain (fun before after => after <:+ before) ∧
        (text :: places).getLast? = some []) ∧
    ∀ level, Level (read text) level →
      ∃ slice places declared, (slice = text ∨ IsSlice text slice) ∧ Scan slice places declared ∧
        level.map name = (declared.map name).eraseDups ∧ (level.map name).Nodup ∧
        (∀ decl ∈ level, ∃ before after, declared = before ++ decl :: after ∧
          ∀ later ∈ after, later.name ≠ decl.name) ∧
        ∀ decl ∈ level, IsRun text decl.name ∧ IsRun text decl.type.name := by
  refine ⟨?_, fun places declared hscan => ⟨?_, hscan.trail.isChain, hscan.trail.getLast?⟩,
    fun level hlevel => ?_⟩
  · obtain ⟨places, declared, hscan⟩ := exists_scan text
    refine ⟨(places, declared), hscan, fun run hrun => ?_⟩
    obtain ⟨hplaces, hdeclared⟩ := hrun.unique hscan
    exact Prod.ext hplaces hdeclared
  · rw [read, hscan.declared_eq]
  · obtain ⟨slice, places, declared, hslice, hscan, rfl⟩ := hlevel.exists_scan
    refine ⟨slice, places, declared, hslice, hscan, names_collect declared,
      nodup_names_collect declared, fun decl hdecl => last_of_mem_collect hdecl, ?_⟩
    intro decl hdecl
    have hstands := hscan.standsIn_of_mem_collect hdecl
    rcases hslice with rfl | hslice
    · exact ⟨hstands.name, hstands.type⟩
    · exact ⟨hstands.name.of_slice hslice, hstands.type.of_slice hslice⟩

/-- Two fields, of which the first is declared again, and one that is cut short.  Brackets,
parentheses and a quoted text are not closed. -/
def unclosed : List Char :=
  "a: Int f(x: [B y: C x: [[D) : E! ?? a: [F f(z: \"\\".toList

/-- The arguments of the second field, of which one is declared twice. -/
theorem read_scanned_unclosed :
    ∃ level, Level (read unclosed) level ∧
      level.map (fun decl => (decl.name, decl.type)) = [("x", ⟨"D", true⟩), ("y", ⟨"C", false⟩)] ∧
      (level.map name).Nodup ∧
      ∀ decl ∈ level, IsRun unclosed decl.name ∧ IsRun unclosed decl.type.name := by
  have hsecond : ((read unclosed)[1]?.bind arguments).map
      (List.map fun decl => (decl.name, decl.type))
        = some [("x", ⟨"D", true⟩), ("y", ⟨"C", false⟩)] := by
    decide +kernel
  obtain ⟨level, harguments, hnames⟩ := Option.map_eq_some_iff.1 hsecond
  obtain ⟨decl, hdecl, harguments⟩ := Option.bind_eq_some_iff.1 harguments
  have hlevel : Level (read unclosed) level :=
    .arguments .top (List.mem_of_getElem? hdecl) harguments
  obtain ⟨-, -, hlevels⟩ := read_scanned unclosed
  obtain ⟨slice, places, declared, -, -, -, hnodup, -, hruns⟩ := hlevels level hlevel
  exact ⟨level, hlevel, hnames, hnodup, hruns⟩

end FieldDecl

end GraphWalk
