import GraphWalk.Proofs.Schema.Cutting
import GraphWalk.Proofs.Schema.Moves

/-!
# Runs of the scanner of fields

The scanner of fields goes round a loop: it passes over what stands between two fields, takes a
name, the arguments behind it and a type, and starts again wherever it has come to.  It also does
so where something is missing, be it a name, a colon or a type, and in the last case it has gone
through the brackets in front of the missing name.  The text between parentheses is given to a
scanner of its own, even if the name before it turns out to be no field.

A run records every place to which the scanner comes, so that what is said of a run is said of the
way as well as of the result.

## Main definitions

* `TypeScan` — a type is looked for, and found or not.
* `Heading` — a name with the text of its arguments.
* `Behind` — what stands behind a heading: a type or not.
* `Scan` — the run of a scanner on a text, and the fields that it declares in their order.

## Main results

* `Scan.unique`, `exists_scan` — **on every text there is exactly one run.**
* `Scan.declared_eq` — it declares the fields that are read.
* `Scan.trail` — it leads from the text to its end, and never back.
-/

namespace GraphWalk

namespace FieldDecl

open Text
open SchemaSyntax (readAll_nil readAll_field readAll_skipped append_dropBlanks dropTrivia_gap
  dropBlanks_gap)

/-! ### Types -/

/-- Behind a name or a bracket: the places before and behind an exclamation mark. -/
def markPlaces (rest : List Char) : List (List Char) :=
  [dropBlanks rest, dropChar '!' (dropBlanks rest)]

/-- Behind the type in brackets: the places before and behind the closing bracket, and those of
the exclamation mark. -/
def bracketPlaces (rest : List Char) : List (List Char) :=
  dropBlanks rest :: dropChar ']' (dropBlanks rest) :: markPlaces (dropChar ']' (dropBlanks rest))

/-- A scanner looks for a type: the places to which it comes, the type if it finds one, and where
it stands then.  Without a name it stands before what is no name, behind all brackets. -/
inductive TypeScan : List Char → List (List Char) → Option TypeUse → List Char → Prop
  /-- There is a type in brackets.  The closing bracket may be missing. -/
  | list {cs inner rest : List Char} {places : List (List Char)} {type : TypeUse}
      (hopen : dropBlanks cs = '[' :: inner) (h : TypeScan inner places (some type) rest) :
      TypeScan cs (('[' :: inner) :: inner :: (places ++ bracketPlaces rest))
        (some { type with isList := true })
        (dropChar '!' (dropBlanks (dropChar ']' (dropBlanks rest))))
  /-- There is none in brackets. -/
  | unlisted {cs inner rest : List Char} {places : List (List Char)}
      (hopen : dropBlanks cs = '[' :: inner) (h : TypeScan inner places none rest) :
      TypeScan cs (('[' :: inner) :: inner :: places) none rest
  /-- There is a name. -/
  | named {cs rest : List Char} {name : String} (hopen : ∀ inner, dropBlanks cs ≠ '[' :: inner)
      (h : spanName (dropBlanks cs) = (name.toList, rest)) (hname : name ≠ "") :
      TypeScan cs (dropBlanks cs :: rest :: markPlaces rest) (some { name := name })
        (dropChar '!' (dropBlanks rest))
  /-- There is neither a bracket nor a name. -/
  | nameless {cs : List Char} (hopen : ∀ inner, dropBlanks cs ≠ '[' :: inner)
      (h : (spanName (dropBlanks cs)).1 = []) : TypeScan cs [dropBlanks cs] none (dropBlanks cs)

section Types

variable {cs rest after text : List Char} {places others : List (List Char)}
  {found other : Option TypeUse}

theorem trail_markPlaces (rest : List Char) :
    Trail rest (markPlaces rest) (dropChar '!' (dropBlanks rest)) :=
  .move (reaches_dropBlanks rest) (reaches_dropChar (by decide) _).trail

theorem trail_bracketPlaces (rest : List Char) :
    Trail rest (bracketPlaces rest) (dropChar '!' (dropBlanks (dropChar ']' (dropBlanks rest)))) :=
  .move (reaches_dropBlanks rest) (.move (reaches_dropChar (by decide) _) (trail_markPlaces _))

theorem reaches_bracket {inner : List Char} (hopen : dropBlanks cs = '[' :: inner) :
    Reaches cs ('[' :: inner) := hopen ▸ reaches_dropBlanks cs

/-- Looking for a type leads forwards, also without success. -/
theorem TypeScan.trail (h : TypeScan cs places found rest) : Trail cs places rest := by
  induction h with
  | list hopen _ ih =>
    exact .move (reaches_bracket hopen) (.move (reaches_tail (by decide) _)
      (ih.append (trail_bracketPlaces _)))
  | unlisted hopen _ ih =>
    exact .move (reaches_bracket hopen) (.move (reaches_tail (by decide) _) ih)
  | @named cs rest name hopen h hname =>
    have hspan := reaches_spanName (dropBlanks cs)
    rw [h] at hspan
    exact .move (reaches_dropBlanks cs) (.move hspan (trail_markPlaces rest))
  | nameless hopen h => exact (reaches_dropBlanks _).trail

theorem typeUse?_open {inner : List Char} (hopen : dropBlanks cs = '[' :: inner) :
    typeUse? cs = (typeUse? inner).map fun read =>
      ({ read.1 with isList := true },
        dropChar '!' (dropBlanks (dropChar ']' (dropBlanks read.2)))) := by
  rw [typeUse?]
  split
  · next inner' hinner =>
    rw [hopen] at hinner
    cases hinner
    cases typeUse? inner with
    | none => rfl
    | some read => rfl
  · next hnot => exact absurd hopen (hnot _)

theorem typeUse?_other (hopen : ∀ inner, dropBlanks cs ≠ '[' :: inner) :
    typeUse? cs =
      if (spanName (dropBlanks cs)).1.isEmpty then none
      else some ({ name := String.ofList (spanName (dropBlanks cs)).1 },
        dropChar '!' (dropBlanks (spanName (dropBlanks cs)).2)) := by
  rw [typeUse?]
  split
  · next inner hinner => exact absurd hinner (hopen inner)
  · rfl

/-- What is found is the type that is read. -/
theorem TypeScan.typeUse?_eq (h : TypeScan cs places found rest) :
    typeUse? cs = found.map fun type => (type, rest) := by
  induction h with
  | list hopen _ ih =>
    rw [typeUse?_open hopen, ih]
    rfl
  | unlisted hopen _ ih =>
    rw [typeUse?_open hopen, ih]
    rfl
  | named hopen h hname =>
    rw [typeUse?_other hopen, h, if_neg (by simpa using hname), String.ofList_toList]
    rfl
  | nameless hopen h =>
    rw [typeUse?_other hopen, h]
    rfl

/-- A scanner looks for a type in one way. -/
theorem TypeScan.unique (h : TypeScan cs places found rest)
    (h' : TypeScan cs others other after) : places = others ∧ found = other ∧ rest = after := by
  induction h generalizing others other after with
  | list hopen _ ih =>
    cases h' with
    | list hopen' h' =>
      cases hopen.symm.trans hopen'
      obtain ⟨rfl, heq, rfl⟩ := ih h'
      cases heq
      exact ⟨rfl, rfl, rfl⟩
    | unlisted hopen' h' =>
      cases hopen.symm.trans hopen'
      cases (ih h').2.1
    | named hopen' _ _ => exact absurd hopen (hopen' _)
    | nameless hopen' _ => exact absurd hopen (hopen' _)
  | unlisted hopen _ ih =>
    cases h' with
    | list hopen' h' =>
      cases hopen.symm.trans hopen'
      cases (ih h').2.1
    | unlisted hopen' h' =>
      cases hopen.symm.trans hopen'
      obtain ⟨rfl, -, rfl⟩ := ih h'
      exact ⟨rfl, rfl, rfl⟩
    | named hopen' _ _ => exact absurd hopen (hopen' _)
    | nameless hopen' _ => exact absurd hopen (hopen' _)
  | named hopen h hname =>
    cases h' with
    | list hopen' _ => exact absurd hopen' (hopen _)
    | unlisted hopen' _ => exact absurd hopen' (hopen _)
    | named _ h' _ =>
      obtain ⟨hnames, rfl⟩ := Prod.mk.inj (h.symm.trans h')
      rw [String.toList_inj] at hnames
      rw [hnames]
      exact ⟨rfl, rfl, rfl⟩
    | nameless _ h' =>
      rw [h, String.toList_eq_nil_iff] at h'
      exact absurd h' hname
  | nameless hopen h =>
    cases h' with
    | list hopen' _ => exact absurd hopen' (hopen _)
    | unlisted hopen' _ => exact absurd hopen' (hopen _)
    | named _ h' hname =>
      rw [h', String.toList_eq_nil_iff] at h
      exact absurd h hname
    | nameless _ _ => exact ⟨rfl, rfl, rfl⟩

theorem exists_name (h : (spanName cs).1 ≠ []) :
    ∃ name rest, spanName cs = (String.toList name, rest) ∧ name ≠ "" := by
  refine ⟨String.ofList (spanName cs).1, (spanName cs).2, ?_, ?_⟩
  · rw [String.toList_ofList]
  · rwa [ne_eq, ← String.toList_eq_nil_iff, String.toList_ofList]

/-- **Looking for a type ends**, however many brackets are opened. -/
theorem exists_typeScan (cs : List Char) : ∃ places found rest, TypeScan cs places found rest := by
  -- every bracket leaves less of the text
  induction hlength : cs.length using Nat.strong_induction_on generalizing cs with
  | _ n ih =>
    by_cases hopen : ∃ inner, dropBlanks cs = '[' :: inner
    · obtain ⟨inner, hopen⟩ := hopen
      have hshorter : inner.length < n := by
        have hblanks := length_dropBlanks_le cs
        rw [hopen, List.length_cons] at hblanks
        omega
      obtain ⟨places, found, rest, h⟩ := ih _ hshorter inner rfl
      cases found with
      | some type => exact ⟨_, _, _, .list hopen h⟩
      | none => exact ⟨_, _, _, .unlisted hopen h⟩
    · rw [not_exists] at hopen
      by_cases hname : (spanName (dropBlanks cs)).1 = []
      · exact ⟨_, _, _, .nameless hopen hname⟩
      · obtain ⟨name, rest, hspan, hne⟩ := exists_name hname
        exact ⟨_, _, _, .named hopen hspan hne⟩

end Types

/-! ### Headings -/

/-- A name with the text of its arguments, if there are parentheses: the places to which the
scanner comes, and where it stands before what should be a colon. -/
inductive Heading : List Char → List (List Char) → String → Option (List Char) → List Char → Prop
  /-- There are no parentheses. -/
  | plain {cs after : List Char} {name : String}
      (hspan : spanName (dropTrivia cs) = (name.toList, after)) (hname : name ≠ "")
      (hopen : ∀ text, dropBlanks after ≠ '(' :: text) :
      Heading cs [dropTrivia cs, after, dropBlanks after] name none (dropBlanks after)
  /-- There are parentheses, of which the closing one may be missing. -/
  | called {cs after text : List Char} {name : String}
      (hspan : spanName (dropTrivia cs) = (name.toList, after)) (hname : name ≠ "")
      (hopen : dropBlanks after = '(' :: text) :
      Heading cs
        [dropTrivia cs, after, '(' :: text, text, (spanBalanced '(' ')' 0 text).2,
          dropBlanks (spanBalanced '(' ')' 0 text).2]
        name (some (spanBalanced '(' ')' 0 text).1) (dropBlanks (spanBalanced '(' ')' 0 text).2)

/-- What stands behind a heading: the places to which the scanner comes, the type if there is one,
and where it starts again. -/
inductive Behind : List Char → List (List Char) → Option TypeUse → List Char → Prop
  /-- There is no colon. -/
  | bare {rest : List Char} (h : ∀ text, rest ≠ ':' :: text) : Behind rest [] none rest
  /-- There is no type behind the colon. -/
  | untyped {text stop : List Char} {places : List (List Char)}
      (h : TypeScan text places none stop) : Behind (':' :: text) (text :: places) none stop
  /-- There is a type, and perhaps a default value. -/
  | typed {text stop : List Char} {places : List (List Char)} {type : TypeUse}
      (h : TypeScan text places (some type) stop) :
      Behind (':' :: text) (text :: (places ++ [afterDefault stop])) (some type)
        (afterDefault stop)

section Headings

variable {cs rest after stop : List Char} {places others : List (List Char)}
  {name other : String} {slice slice' : Option (List Char)} {found found' : Option TypeUse}

/-- The scanner takes a name and the text of its arguments in one way. -/
theorem Heading.unique (h : Heading cs places name slice rest)
    (h' : Heading cs others other slice' after) :
    places = others ∧ name = other ∧ slice = slice' ∧ rest = after := by
  cases h with
  | plain hspan _ hopen =>
    cases h' with
    | plain hspan' _ _ =>
      obtain ⟨hnames, rfl⟩ := Prod.mk.inj (hspan.symm.trans hspan')
      exact ⟨rfl, String.toList_inj.1 hnames, rfl, rfl⟩
    | called hspan' _ hopen' =>
      obtain ⟨-, rfl⟩ := Prod.mk.inj (hspan.symm.trans hspan')
      exact absurd hopen' (hopen _)
  | called hspan _ hopen =>
    cases h' with
    | plain hspan' _ hopen' =>
      obtain ⟨-, rfl⟩ := Prod.mk.inj (hspan.symm.trans hspan')
      exact absurd hopen (hopen' _)
    | called hspan' _ hopen' =>
      obtain ⟨hnames, rfl⟩ := Prod.mk.inj (hspan.symm.trans hspan')
      cases hopen.symm.trans hopen'
      exact ⟨rfl, String.toList_inj.1 hnames, rfl, rfl⟩

theorem Behind.unique (h : Behind rest places found stop) (h' : Behind rest others found' after) :
    places = others ∧ found = found' ∧ stop = after := by
  cases h with
  | bare h =>
    cases h' with
    | bare _ => exact ⟨rfl, rfl, rfl⟩
    | untyped _ => exact absurd rfl (h _)
    | typed _ => exact absurd rfl (h _)
  | untyped h =>
    cases h' with
    | bare h' => exact absurd rfl (h' _)
    | untyped h' =>
      obtain ⟨rfl, -, rfl⟩ := h.unique h'
      exact ⟨rfl, rfl, rfl⟩
    | typed h' => cases (h.unique h').2.1
  | typed h =>
    cases h' with
    | bare h' => exact absurd rfl (h' _)
    | untyped h' => cases (h.unique h').2.1
    | typed h' =>
      obtain ⟨rfl, heq, rfl⟩ := h.unique h'
      exact ⟨rfl, heq, rfl⟩

theorem reaches_name (hspan : spanName (dropTrivia cs) = (name.toList, after)) :
    Reaches (dropTrivia cs) after := by
  have hreaches := reaches_spanName (dropTrivia cs)
  rwa [hspan] at hreaches

theorem Heading.trail (h : Heading cs places name slice rest) : Trail cs places rest := by
  cases h with
  | @plain after _ hspan _ _ =>
    exact .move (reaches_dropTrivia cs)
      (.move (reaches_name hspan) (reaches_dropBlanks after).trail)
  | @called after text _ hspan _ hopen =>
    have hparenthesis : Reaches after ('(' :: text) := hopen ▸ reaches_dropBlanks after
    exact .move (reaches_dropTrivia cs) (.move (reaches_name hspan) (.move hparenthesis
      (.move (reaches_tail (by decide) text) (.move (reaches_spanBalanced (by decide) text)
        (reaches_dropBlanks _).trail))))

theorem Behind.trail (h : Behind rest places found stop) : Trail rest places stop := by
  cases h with
  | bare _ => exact .stay
  | untyped h => exact .move (reaches_tail (by decide) _) h.trail
  | typed h =>
    exact .move (reaches_tail (by decide) _) (h.trail.append (reaches_afterDefault _).trail)

/-- A heading is cut into its name, its arguments and what is left. -/
theorem Heading.spans (h : Heading cs places name slice rest) :
    ∃ after mid, spanName (dropTrivia cs) = (name.toList, after) ∧ name ≠ "" ∧
      spanArguments after = (slice, mid) ∧ dropBlanks mid = rest := by
  cases h with
  | @plain after _ hspan hname hopen =>
    refine ⟨after, dropBlanks after, hspan, hname, ?_, dropBlanks_dropBlanks after⟩
    rw [spanArguments]
    split
    · next text htext => exact absurd htext (hopen text)
    · rfl
  | @called after text _ hspan hname hopen =>
    refine ⟨after, _, hspan, hname, ?_, rfl⟩
    rw [spanArguments, hopen]
    rfl

theorem length_name_lt (hspan : spanName (dropTrivia cs) = (name.toList, after))
    (hname : name ≠ "") : after.length < cs.length := by
  have htrivia := length_dropTrivia_le cs
  have hshorter := @length_spanName_lt (dropTrivia cs)
    (by rw [hspan, ne_eq, String.toList_eq_nil_iff]; exact hname)
  rw [hspan] at hshorter
  exact Nat.lt_of_lt_of_le hshorter htrivia

/-- Behind a heading less is left than before it. -/
theorem Heading.length_lt (h : Heading cs places name slice rest) : rest.length < cs.length := by
  obtain ⟨after, mid, hspan, hname, harguments, rfl⟩ := h.spans
  have hafter := length_name_lt hspan hname
  have hmid := length_spanArguments_le after
  have hblanks := length_dropBlanks_le mid
  rw [harguments] at hmid
  dsimp only at hmid
  omega

/-- There is less between the parentheses than from the name on. -/
theorem Heading.length_slice_lt {inner : List Char}
    (h : Heading cs places name (some inner) rest) : inner.length < cs.length := by
  obtain ⟨after, mid, hspan, hname, harguments, -⟩ := h.spans
  have hafter := length_name_lt hspan hname
  have hinner := length_of_spanArguments (congrArg Prod.fst harguments)
  omega

theorem exists_heading {c : Char} {more : List Char} (h : dropTrivia cs = c :: more)
    (hc : isName c = true) : ∃ places name slice rest, Heading cs places name slice rest := by
  have hspan : (spanName (dropTrivia cs)).1 ≠ [] := by
    rw [h, spanName, List.takeWhile_cons_of_pos hc]
    exact List.cons_ne_nil _ _
  obtain ⟨name, after, hspan, hname⟩ := exists_name hspan
  by_cases hopen : ∃ text, dropBlanks after = '(' :: text
  · obtain ⟨text, hopen⟩ := hopen
    exact ⟨_, _, _, _, .called hspan hname hopen⟩
  · exact ⟨_, _, _, _, .plain hspan hname (not_exists.1 hopen)⟩

theorem exists_behind (rest : List Char) : ∃ places found stop, Behind rest places found stop := by
  by_cases hcolon : ∃ text, rest = ':' :: text
  · obtain ⟨text, rfl⟩ := hcolon
    obtain ⟨places, found, stop, h⟩ := exists_typeScan text
    cases found with
    | none => exact ⟨_, _, _, .untyped h⟩
    | some type => exact ⟨_, _, _, .typed h⟩
  · exact ⟨_, _, _, .bare (not_exists.1 hcolon)⟩

end Headings

/-! ### Runs -/

/-- The run of a scanner on a text: the places to which it comes, and the fields it declares, in
their order and with all repetitions. -/
inductive Scan : List Char → List (List Char) → List FieldDecl → Prop
  /-- Nothing is left but what stands between fields. -/
  | done {cs : List Char} (h : dropTrivia cs = []) : Scan cs [[]] []
  /-- A character that belongs to no name is passed over. -/
  | character {cs rest : List Char} {c : Char} {places : List (List Char)}
      {declared : List FieldDecl} (h : dropTrivia cs = c :: rest) (hc : isName c = false)
      (more : Scan rest places declared) : Scan cs ((c :: rest) :: rest :: places) declared
  /-- A name without a type is dropped, but a scanner of its own has gone through the text of its
  arguments. -/
  | dropped {cs rest stop : List Char} {name : String} {slice : Option (List Char)}
      {way further places others : List (List Char)} {inner declared : List FieldDecl}
      (heading : Heading cs way name slice rest) (hslice : ∀ text ∈ slice, Scan text others inner)
      (behind : Behind rest further none stop) (more : Scan stop places declared) :
      Scan cs (way ++ (further ++ places)) declared
  /-- A name with a type is a field, with the arguments that the scanner of its own declares. -/
  | field {cs rest stop : List Char} {name : String} {slice : Option (List Char)} {type : TypeUse}
      {way further places others : List (List Char)} {inner declared : List FieldDecl}
      (heading : Heading cs way name slice rest) (hslice : ∀ text ∈ slice, Scan text others inner)
      (behind : Behind rest further (some type) stop) (more : Scan stop places declared) :
      Scan cs (way ++ (further ++ places))
        (.mk name type (slice.map fun _ => collect inner) :: declared)

section Runs

variable {cs rest text : List Char} {places others way : List (List Char)}
  {declared other : List FieldDecl} {name : String} {slice : Option (List Char)} {c : Char}

/-- **A run leads from the text to its end**, and never back. -/
theorem Scan.trail (h : Scan cs places declared) : Trail cs places [] := by
  induction h with
  | @done cs h =>
    have hreaches := reaches_dropTrivia cs
    rw [h] at hreaches
    exact hreaches.trail
  | @character cs rest c places declared h hc _ ih =>
    have hreaches := reaches_dropTrivia cs
    rw [h] at hreaches
    exact .move hreaches (.move (reaches_tail hc rest) ih)
  | dropped heading _ behind _ _ ih => exact heading.trail.append (behind.trail.append ih)
  | field heading _ behind _ _ ih => exact heading.trail.append (behind.trail.append ih)

/-- A heading begins with a character of a name. -/
theorem Heading.exists_cons (h : Heading cs places name slice rest) :
    ∃ c more, dropTrivia cs = c :: more ∧ isName c = true := by
  obtain ⟨after, -, hspan, hname, -, -⟩ := h.spans
  have hnonempty : (spanName (dropTrivia cs)).1 ≠ [] := by
    rw [hspan, ne_eq, String.toList_eq_nil_iff]
    exact hname
  cases hnext : dropTrivia cs with
  | nil =>
    rw [hnext] at hnonempty
    exact absurd rfl hnonempty
  | cons c more =>
    refine ⟨c, more, rfl, ?_⟩
    by_contra hc
    rw [hnext, spanName, List.takeWhile_cons_of_neg hc] at hnonempty
    exact hnonempty rfl

theorem Heading.not_done (h : Heading cs places name slice rest) : dropTrivia cs ≠ [] := by
  obtain ⟨c, more, hnext, -⟩ := h.exists_cons
  rw [hnext]
  exact List.cons_ne_nil c more

theorem Heading.isName_of_cons (h : Heading cs places name slice rest)
    (hnext : dropTrivia cs = c :: text) : isName c = true := by
  obtain ⟨d, more, hnext', hd⟩ := h.exists_cons
  cases hnext.symm.trans hnext'
  exact hd

theorem collect_slice_eq {inner inner' : List FieldDecl} (h : ∀ text ∈ slice, inner = inner') :
    (slice.map fun _ => collect inner) = slice.map fun _ => collect inner' := by
  cases slice with
  | none => rfl
  | some text =>
    rw [h text rfl]

/-- **There is no other run** on a text. -/
theorem Scan.unique (h : Scan cs places declared) (h' : Scan cs others other) :
    places = others ∧ declared = other := by
  -- what stands next tells the exit of a round, so no two of them meet
  induction h generalizing others other with
  | done h =>
    cases h' with
    | done _ => exact ⟨rfl, rfl⟩
    | character h' _ _ => cases h.symm.trans h'
    | dropped heading _ _ _ => exact absurd h heading.not_done
    | field heading _ _ _ => exact absurd h heading.not_done
  | character h hc _ ih =>
    cases h' with
    | done h' => cases h.symm.trans h'
    | character h' _ more =>
      cases h.symm.trans h'
      obtain ⟨rfl, rfl⟩ := ih more
      exact ⟨rfl, rfl⟩
    | dropped heading _ _ _ => cases hc.symm.trans (heading.isName_of_cons h)
    | field heading _ _ _ => cases hc.symm.trans (heading.isName_of_cons h)
  | dropped heading _ behind _ _ ih =>
    cases h' with
    | done h' => exact absurd h' heading.not_done
    | character h' hc _ => cases hc.symm.trans (heading.isName_of_cons h')
    | dropped heading' _ behind' more =>
      obtain ⟨rfl, rfl, rfl, rfl⟩ := heading.unique heading'
      obtain ⟨rfl, -, rfl⟩ := behind.unique behind'
      obtain ⟨rfl, rfl⟩ := ih more
      exact ⟨rfl, rfl⟩
    | field heading' _ behind' _ =>
      obtain ⟨-, -, -, rfl⟩ := heading.unique heading'
      cases (behind.unique behind').2.1
  | field heading _ behind _ ihslice ih =>
    cases h' with
    | done h' => exact absurd h' heading.not_done
    | character h' hc _ => cases hc.symm.trans (heading.isName_of_cons h')
    | dropped heading' _ behind' _ =>
      obtain ⟨-, -, -, rfl⟩ := heading.unique heading'
      cases (behind.unique behind').2.1
    | field heading' hslice behind' more =>
      obtain ⟨rfl, rfl, rfl, rfl⟩ := heading.unique heading'
      obtain ⟨rfl, htype, rfl⟩ := behind.unique behind'
      obtain ⟨rfl, rfl⟩ := ih more
      cases htype
      refine ⟨rfl, ?_⟩
      rw [collect_slice_eq fun text htext => (ihslice text htext (hslice text htext)).2]

/-- **Every run ends**: however a text goes on, the scanner comes to its end. -/
theorem exists_scan (cs : List Char) : ∃ places declared, Scan cs places declared := by
  -- every round leaves less of the text, and a scanner of arguments has less to begin with
  induction hlength : cs.length using Nat.strong_induction_on generalizing cs with
  | _ n ih =>
    cases hnext : dropTrivia cs with
    | nil => exact ⟨_, _, .done hnext⟩
    | cons c more =>
      cases hc : isName c with
      | false =>
        have hshorter : more.length < n := by
          have htrivia := length_dropTrivia_le cs
          rw [hnext, List.length_cons] at htrivia
          omega
        obtain ⟨places, declared, h⟩ := ih _ hshorter more rfl
        exact ⟨_, _, .character hnext hc h⟩
      | true =>
        obtain ⟨way, name, slice, rest, heading⟩ := exists_heading hnext hc
        obtain ⟨further, found, stop, behind⟩ := exists_behind rest
        have hslice : ∃ others inner, ∀ text ∈ slice, Scan text others inner := by
          cases slice with
          | none => exact ⟨[], [], nofun⟩
          | some text =>
            obtain ⟨others, inner, h⟩ := ih _ (hlength ▸ heading.length_slice_lt) text rfl
            refine ⟨others, inner, fun text' htext' => ?_⟩
            cases htext'
            exact h
        obtain ⟨others, inner, hslice⟩ := hslice
        have hshorter : stop.length < n := by
          have hheading := heading.length_lt
          have hbehind := behind.trail.reaches.length_le
          omega
        obtain ⟨places, declared, h⟩ := ih _ hshorter stop rfl
        cases found with
        | none => exact ⟨_, _, .dropped heading hslice behind h⟩
        | some type => exact ⟨_, _, .field heading hslice behind h⟩

/-! ### The fields that are read -/

/-- What is read depends on the text from its next field on. -/
theorem readAll_congr {cs' : List Char} (h : dropTrivia cs = dropTrivia cs') :
    readAll cs = readAll cs' := by
  cases hnext : dropTrivia cs with
  | nil => rw [readAll_nil hnext, readAll_nil (h.symm.trans hnext)]
  | cons c more =>
    have hnext' := h.symm.trans hnext
    cases hitem : (item c more).1 with
    | skipped => rw [readAll_skipped hnext hitem, readAll_skipped hnext' hitem]
    | field name slice type => rw [readAll_field hnext hitem, readAll_field hnext' hitem]

theorem readAll_dropBlanks (cs : List Char) : readAll (dropBlanks cs) = readAll cs := by
  obtain ⟨gap, hgap, hcs⟩ := append_dropBlanks cs
  refine readAll_congr ?_
  rw [hcs, dropTrivia_gap hgap, dropBlanks_gap hgap, dropBlanks_dropBlanks]

/-- A character that belongs to no name makes no difference. -/
theorem readAll_character (h : dropTrivia cs = c :: rest) (hc : isName c = false) :
    readAll cs = readAll rest := by
  have hspan : (spanName (c :: rest)).1.isEmpty = true := by
    rw [spanName, List.takeWhile_cons_of_neg (by rw [hc]; exact Bool.false_ne_true)]
    rfl
  have hitem : item c rest = (.skipped, rest) := by
    rw [item, if_pos hspan]
  rw [readAll_skipped h (congrArg Prod.fst hitem), hitem]

/-- It makes no difference whether the scanner goes back from where it has missed a type to the
colon. -/
theorem TypeScan.readAll_eq (h : TypeScan cs places none rest) : readAll rest = readAll cs := by
  generalize hfound : (none : Option TypeUse) = found at h
  induction h with
  | list _ _ _ => cases hfound
  | @unlisted cs inner rest places hopen _ ih =>
    have hbracket : dropTrivia ('[' :: inner) = '[' :: inner := by
      rw [dropTrivia, if_neg (by decide), if_neg (by decide)]
    calc readAll rest = readAll inner := ih hfound
      _ = readAll ('[' :: inner) := (readAll_character hbracket (by decide)).symm
      _ = readAll (dropBlanks cs) := by rw [hopen]
      _ = readAll cs := readAll_dropBlanks cs
  | named _ _ _ => cases hfound
  | nameless _ _ => exact readAll_dropBlanks _

/-- What the reader makes of a heading with what stands behind it. -/
def itemBehind (name : String) (slice : Option (List Char)) : List Char → Item × List Char
  | ':' :: text =>
    match typeUse? text with
    | some (type, left) => (.field name slice type, afterDefault left)
    | none => (.skipped, text)
  | rest => (.skipped, rest)

theorem Heading.item_eq (h : Heading cs places name slice rest) :
    ∃ c more, dropTrivia cs = c :: more ∧ item c more = itemBehind name slice rest := by
  obtain ⟨c, more, hnext, -⟩ := h.exists_cons
  obtain ⟨after, mid, hspan, hname, harguments, hblanks⟩ := h.spans
  rw [hnext] at hspan
  refine ⟨c, more, hnext, ?_⟩
  rw [item, hspan]
  dsimp only
  rw [if_neg (by simpa using hname), harguments]
  dsimp only
  rw [hblanks, String.ofList_toList]
  rfl

theorem Behind.item_skipped {stop : List Char} (h : Behind rest places none stop) (name : String)
    (slice : Option (List Char)) :
    ∃ left, itemBehind name slice rest = (.skipped, left) ∧ readAll left = readAll stop := by
  cases h with
  | bare hcolon =>
    refine ⟨rest, ?_, rfl⟩
    rw [itemBehind]
    exact hcolon
  | @untyped text _ _ htype =>
    refine ⟨text, ?_, htype.readAll_eq.symm⟩
    rw [itemBehind, htype.typeUse?_eq]
    rfl

theorem Behind.item_field {stop : List Char} {type : TypeUse}
    (h : Behind rest places (some type) stop) (name : String) (slice : Option (List Char)) :
    itemBehind name slice rest = (.field name slice type, stop) := by
  cases h with
  | typed htype =>
    rw [itemBehind, htype.typeUse?_eq]
    rfl

/-- **A run declares the fields that are read.** -/
theorem Scan.declared_eq (h : Scan cs places declared) : declared = readAll cs := by
  induction h with
  | done h => exact (readAll_nil h).symm
  | character h hc _ ih => rw [ih, readAll_character h hc]
  | @dropped _ _ _ name slice _ _ _ _ _ _ heading _ behind _ _ ih =>
    obtain ⟨c, more, hnext, hitem⟩ := heading.item_eq
    -- the reader goes on behind the colon, the scanner where it has missed the type
    obtain ⟨left, hskipped, hleft⟩ := behind.item_skipped name slice
    rw [hskipped] at hitem
    rw [readAll_skipped hnext (congrArg Prod.fst hitem), hitem, hleft, ih]
  | @field _ _ _ name slice _ _ _ _ _ _ _ heading _ behind _ ihslice ih =>
    obtain ⟨c, more, hnext, hitem⟩ := heading.item_eq
    rw [behind.item_field] at hitem
    rw [readAll_field hnext (congrArg Prod.fst hitem), hitem, ih]
    cases slice with
    | none => rfl
    | some text => rw [Option.map_some, Option.map_some, ihslice text rfl]

end Runs

end FieldDecl

end GraphWalk
