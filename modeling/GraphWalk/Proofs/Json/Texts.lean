import GraphWalk.Proofs.Dict.Entries
import GraphWalk.Proofs.Document.Numerals
import GraphWalk.Proofs.Json.Escapes
import GraphWalk.Proofs.Json.Merging
import GraphWalk.Proofs.Text.Runs

/-!
# What a compact text tells

A compact text can be read from its front: the first character tells the kind of the value,
a quoted text ends at its closing quote, and a number ends where no part of a number comes.
So the text of a value tells the value, except that of its numbers it tells no more than
their own texts.

## Main definitions

* `Json.Agree` — values of one kind that have the same names and the same lengths all the way
  down, and whose numbers have the same texts.
* `Json.kind` — the kind of a value.
* `Number.isPart`, `Number.Closed` — the characters of numbers; a text that begins with none.

## Main results

* `Number.chars_append_inj` — a number is told from what follows.
* `Json.agree_of_chars_append` — **a value is told from what follows.**
* `Json.text_eq_iff` — **two values have the same compact text exactly if they agree.**
-/

namespace GraphWalk

/-! ### Numbers -/

namespace Number

/-- The character may stand in the text of a number. -/
def isPart (c : Char) : Bool :=
  c.isDigit || c ∈ ['-', '+', '.', 'e', 'E']

/-- The text does not begin with a part of a number. -/
def Closed (rest : List Char) : Prop := ∀ c ∈ rest.head?, isPart c = false

theorem closed_nil : Closed [] := nofun

theorem closed_cons {c : Char} (h : isPart c = false) (rest : List Char) : Closed (c :: rest) := by
  intro d hd
  rw [← Option.some.inj hd]
  exact h

theorem isPart_of_isDigit {c : Char} (h : c.isDigit = true) : isPart c = true := by
  rw [isPart, h, Bool.true_or]

open QuerySyntax in
/-- Nothing but parts of a number stands in a numeral. -/
theorem isPart_of_mem_numeral {cs : List Char} (h : IsNumeral cs) {c : Char} (hc : c ∈ cs) :
    isPart c = true := by
  have hminus : ∀ sign ∈ [[], ['-']], ∀ c ∈ sign, isPart c = true := by simp [isPart]
  have hsigned : ∀ sign ∈ [[], ['+'], ['-']], ∀ c ∈ sign, isPart c = true := by simp [isPart]
  have hletter : ∀ letter ∈ ['e', 'E'], isPart letter = true := by simp [isPart]
  have hdigits : ∀ {cs : List Char}, IsDigits cs → c ∈ cs → isPart c = true := by
    intro cs hcs hc
    exact isPart_of_isDigit (hcs.2 c hc)
  cases h with
  | @mk sign whole fraction exponent hsign hwhole hfraction hexponent =>
    simp only [List.mem_append] at hc
    rcases hc with hc | hc | hc | hc
    · exact hminus sign hsign c hc
    · exact hdigits hwhole.1 hc
    · cases hfraction with
      | none => cases hc
      | point hall =>
        rcases List.mem_cons.1 hc with rfl | hc
        · rfl
        · exact hdigits hall hc
    · cases hexponent with
      | none => cases hc
      | power hl hsign hall =>
        rcases List.mem_cons.1 hc with rfl | hc
        · exact hletter c hl
        rcases List.mem_append.1 hc with hc | hc
        · exact hsigned _ hsign c hc
        · exact hdigits hall hc

theorem isPart_of_mem_chars {n : Number} {c : Char} (hc : c ∈ n.chars) : isPart c = true :=
  isPart_of_mem_numeral n.isNumeral_chars hc

/-- **A number is told from what follows.** -/
theorem chars_append_inj {m n : Number} {rest after : List Char} (hrest : Closed rest)
    (hafter : Closed after) (h : m.chars ++ rest = n.chars ++ after) :
    m.chars = n.chars ∧ rest = after :=
  Text.run_append_inj (fun _ => isPart_of_mem_chars) hrest (fun _ => isPart_of_mem_chars) hafter h

end Number

namespace Json

/-! ### The kind of a value -/

/-- The kinds of values. -/
inductive Kind
  /-- The value `null`. -/
  | null
  /-- A truth value. -/
  | bool
  /-- A number. -/
  | number
  /-- A text. -/
  | string
  /-- A list. -/
  | array
  /-- An object. -/
  | object
  deriving DecidableEq, Repr

/-- The kind of a value. -/
def kind : Json → Kind
  | .null => .null
  | .bool _ => .bool
  | .number _ => .number
  | .string _ => .string
  | .array _ => .array
  | .object _ => .object

/-- The kind of the values whose texts begin with a character. -/
def Kind.opened? (c : Char) : Option Kind :=
  if c = 'n' then some .null
  else if c = 't' ∨ c = 'f' then some .bool
  else if c = '"' then some .string
  else if c = '[' then some .array
  else if c = '\x7b' then some .object
  else if c.isDigit ∨ c = '-' then some .number
  else none

variable {v w : Json} {xs ys : List Json} {c : Char} {rest after : List Char}

theorem opened?_of_isDigit (h : c.isDigit = true) : Kind.opened? c = some .number := by
  have hne : ∀ d, d.isDigit = false → c ≠ d := by
    rintro d hd rfl
    rw [h] at hd
    cases hd
  rw [Kind.opened?, if_neg (hne 'n' rfl), if_neg (not_or.2 ⟨hne 't' rfl, hne 'f' rfl⟩),
    if_neg (hne '"' rfl), if_neg (hne '[' rfl), if_neg (hne '\x7b' rfl), if_pos (.inl h)]

/-- The first character of a text tells the kind of the value. -/
theorem exists_chars_eq_cons (v : Json) :
    ∃ c cs, v.chars = c :: cs ∧ Kind.opened? c = some v.kind := by
  cases v with
  | null => exact ⟨'n', _, rfl, rfl⟩
  | bool b => cases b <;> exact ⟨_, _, rfl, rfl⟩
  | number n =>
    rw [chars, kind]
    have hnumeral := n.isNumeral_chars
    generalize n.chars = cs at hnumeral
    cases hnumeral with
    | @mk sign whole fraction exponent hsign hwhole hfraction hexponent =>
      obtain ⟨d, ds, rfl⟩ := List.exists_cons_of_ne_nil hwhole.1.1
      simp only [List.mem_cons, List.not_mem_nil, or_false] at hsign
      rcases hsign with rfl | rfl
      · exact ⟨d, _, rfl, opened?_of_isDigit (hwhole.1.2 d List.mem_cons_self)⟩
      · exact ⟨'-', _, rfl, rfl⟩
  | string s => exact ⟨'"', _, rfl, rfl⟩
  | array xs => cases xs <;> exact ⟨'[', _, by rw [chars], rfl⟩
  | object members =>
    rcases members with _ | ⟨⟨name, x⟩, members⟩ <;> exact ⟨'\x7b', _, by rw [chars], rfl⟩

/-- Values whose texts begin alike are of one kind. -/
theorem kind_eq_of_chars_append (h : v.chars ++ rest = w.chars ++ after) : v.kind = w.kind := by
  obtain ⟨c, cs, hv, hkind⟩ := v.exists_chars_eq_cons
  obtain ⟨d, ds, hw, hkind'⟩ := w.exists_chars_eq_cons
  rw [hv, hw, List.cons_append, List.cons_append] at h
  rw [(List.cons.inj h).1, hkind'] at hkind
  exact (Option.some.inj hkind).symm

/-- No value begins with a closing bracket. -/
theorem cons_ne_chars_append (hc : Kind.opened? c = none) : c :: rest ≠ v.chars ++ after := by
  obtain ⟨d, ds, hv, hkind⟩ := v.exists_chars_eq_cons
  rw [hv, List.cons_append]
  intro h
  rw [(List.cons.inj h).1, hkind] at hc
  cases hc

/-! ### Values that agree -/

/-- Two values agree: they are of one kind, lists have agreeing items and the same length, objects
agreeing members and the same names, and numbers have the same texts. -/
inductive Agree : Json → Json → Prop
  /-- `null` agrees with itself. -/
  | null : Agree .null .null
  /-- A truth value agrees with itself. -/
  | bool (value : Bool) : Agree (.bool value) (.bool value)
  /-- Numbers agree when their texts are the same. -/
  | number {m n : Number} (h : m.chars = n.chars) : Agree (.number m) (.number n)
  /-- A text agrees with itself. -/
  | string (value : String) : Agree (.string value) (.string value)
  /-- Lists agree when they have the same length and agreeing items. -/
  | array {xs ys : List Json} (hlength : xs.length = ys.length)
      (h : ∀ (index : Nat) x y, xs[index]? = some x → ys[index]? = some y → Agree x y) :
      Agree (.array xs) (.array ys)
  /-- Objects agree when they have the same names, and agreeing values under each. -/
  | object {xs ys : Dict Json}
      (hnames : ∀ name, Dict.get? xs name = none ↔ Dict.get? ys name = none)
      (h : ∀ name x y, Dict.get? xs name = some x → Dict.get? ys name = some y → Agree x y) :
      Agree (.object xs) (.object ys)

theorem agree_array_of_forall₂ (h : List.Forall₂ Agree xs ys) : (array xs).Agree (.array ys) := by
  refine .array h.length_eq fun index x y hx hy => ?_
  obtain ⟨hindex, rfl⟩ := List.getElem?_eq_some_iff.1 hx
  obtain ⟨hindex', rfl⟩ := List.getElem?_eq_some_iff.1 hy
  exact h.get hindex hindex'

/-- Members that agree one by one are found under the same names. -/
theorem agree_object_of_forall₂ {xs ys : Dict Json}
    (h : List.Forall₂ (fun x y => x.1 = y.1 ∧ x.2.Agree y.2) xs ys) :
    (object xs).Agree (.object ys) := by
  have hget : ∀ name, Option.Rel Agree (Dict.get? xs name) (Dict.get? ys name) := by
    intro name
    induction h with
    | nil => exact .none
    | @cons x y xs ys hxy hrest ih =>
      rw [Dict.get?_cons, Dict.get?_cons, hxy.1]
      split
      · exact .some hxy.2
      · exact ih
  refine .object (fun name => ?_) fun name x y hx hy => ?_
  · have hrel := hget name
    generalize Dict.get? xs name = x at hrel
    generalize Dict.get? ys name = y at hrel
    cases hrel <;> simp
  · have hrel := hget name
    rw [hx, hy] at hrel
    cases hrel with
    | some hxy => exact hxy

/-! ### Texts tell values -/

theorem closed_itemChars (xs : List Json) (rest : List Char) :
    Number.Closed (itemChars xs ++ rest) := by
  cases xs <;> exact Number.closed_cons rfl _

theorem closed_memberChars (members : Dict Json) (rest : List Char) :
    Number.Closed (memberChars members ++ rest) := by
  cases members <;> exact Number.closed_cons rfl _

mutual

/-- **A value is told from what follows**, up to the texts of its numbers. -/
theorem agree_of_chars_append : ∀ {v w : Json} {rest after : List Char},
    Number.Closed rest → Number.Closed after → v.chars ++ rest = w.chars ++ after →
      v.Agree w ∧ rest = after
  | .null, w, rest, after, _, _, h => by
    have hkind := kind_eq_of_chars_append h
    cases w with
    | null => exact ⟨.null, List.append_cancel_left h⟩
    | _ => cases hkind
  | .bool a, w, rest, after, _, _, h => by
    have hkind := kind_eq_of_chars_append h
    cases w with
    | bool b =>
      cases a with
      | true =>
        cases b with
        | true => exact ⟨.bool true, List.append_cancel_left h⟩
        | false => cases h
      | false =>
        cases b with
        | true => cases h
        | false => exact ⟨.bool false, List.append_cancel_left h⟩
    | _ => cases hkind
  | .number m, w, rest, after, hrest, hafter, h => by
    have hkind := kind_eq_of_chars_append h
    cases w with
    | number n =>
      obtain ⟨hchars, heq⟩ := Number.chars_append_inj hrest hafter h
      exact ⟨.number hchars, heq⟩
    | _ => cases hkind
  | .string s, w, rest, after, _, _, h => by
    have hkind := kind_eq_of_chars_append h
    cases w with
    | string t =>
      obtain ⟨rfl, heq⟩ := quoted_append_inj h
      exact ⟨.string s, heq⟩
    | _ => cases hkind
  | .array [], w, rest, after, _, _, h => by
    have hkind := kind_eq_of_chars_append h
    cases w with
    | array ys =>
      cases ys with
      | nil => exact ⟨agree_array_of_forall₂ .nil, List.append_cancel_left h⟩
      | cons y ys =>
        have hclosed : ']' :: rest = y.chars ++ (itemChars ys ++ after) := by
          rw [← List.append_assoc]
          exact (List.cons.inj h).2
        exact absurd hclosed (cons_ne_chars_append rfl)
    | _ => cases hkind
  | .array (x :: xs), w, rest, after, _, _, h => by
    have hkind := kind_eq_of_chars_append h
    cases w with
    | array ys =>
      cases ys with
      | nil =>
        have hclosed : ']' :: after = x.chars ++ (itemChars xs ++ rest) := by
          rw [← List.append_assoc]
          exact (List.cons.inj h).2.symm
        exact absurd hclosed (cons_ne_chars_append rfl)
      | cons y ys =>
        -- but for the opening bracket this is the text of items behind others
        have hitems : itemChars (x :: xs) ++ rest = itemChars (y :: ys) ++ after :=
          congrArg (',' :: ·) (List.cons.inj h).2
        obtain ⟨hall, heq⟩ := forall₂_of_itemChars_append hitems
        exact ⟨agree_array_of_forall₂ hall, heq⟩
    | _ => cases hkind
  | .object [], w, rest, after, _, _, h => by
    have hkind := kind_eq_of_chars_append h
    cases w with
    | object ys =>
      rcases ys with _ | ⟨⟨name, y⟩, ys⟩
      · exact ⟨agree_object_of_forall₂ .nil, List.append_cancel_left h⟩
      · cases h
    | _ => cases hkind
  | .object ((name, x) :: xs), w, rest, after, _, _, h => by
    have hkind := kind_eq_of_chars_append h
    cases w with
    | object ys =>
      rcases ys with _ | ⟨⟨other, y⟩, ys⟩
      · cases h
      · have hmembers : memberChars ((name, x) :: xs) ++ rest
            = memberChars ((other, y) :: ys) ++ after :=
          congrArg (',' :: ·) (List.cons.inj h).2
        obtain ⟨hall, heq⟩ := forall₂_of_memberChars_append hmembers
        exact ⟨agree_object_of_forall₂ hall, heq⟩
    | _ => cases hkind

theorem forall₂_of_itemChars_append : ∀ {xs ys : List Json} {rest after : List Char},
    itemChars xs ++ rest = itemChars ys ++ after → List.Forall₂ Agree xs ys ∧ rest = after
  | [], ys, rest, after, h => by
    cases ys with
    | nil => exact ⟨.nil, (List.cons.inj h).2⟩
    | cons y ys => cases h
  | x :: xs, ys, rest, after, h => by
    cases ys with
    | nil => cases h
    | cons y ys =>
      rw [itemChars, itemChars, List.cons_append, List.cons_append, List.append_assoc,
        List.append_assoc] at h
      obtain ⟨hxy, hitems⟩ := agree_of_chars_append (closed_itemChars xs rest)
        (closed_itemChars ys after) (List.cons.inj h).2
      obtain ⟨hall, heq⟩ := forall₂_of_itemChars_append hitems
      exact ⟨.cons hxy hall, heq⟩

theorem forall₂_of_memberChars_append : ∀ {xs ys : List (String × Json)} {rest after : List Char},
    memberChars xs ++ rest = memberChars ys ++ after →
      List.Forall₂ (fun x y => x.1 = y.1 ∧ x.2.Agree y.2) xs ys ∧ rest = after
  | [], ys, rest, after, h => by
    cases ys with
    | nil => exact ⟨.nil, (List.cons.inj h).2⟩
    | cons y ys => cases h
  | (name, x) :: xs, ys, rest, after, h => by
    rcases ys with _ | ⟨⟨other, y⟩, ys⟩
    · cases h
    · rw [memberChars, memberChars] at h
      simp only [List.cons_append, List.append_assoc, List.cons.injEq, true_and] at h
      obtain ⟨rfl, hcolon⟩ := quoted_append_inj h
      obtain ⟨hxy, hmembers⟩ := agree_of_chars_append (closed_memberChars xs rest)
        (closed_memberChars ys after) (List.cons.inj hcolon).2
      obtain ⟨hall, heq⟩ := forall₂_of_memberChars_append hmembers
      exact ⟨.cons ⟨rfl, hxy⟩ hall, heq⟩

end

/-! ### Values that agree have the same text -/

theorem itemChars_congr (h : xs.map chars = ys.map chars) : itemChars xs = itemChars ys := by
  induction xs generalizing ys with
  | nil => rw [List.map_eq_nil_iff.1 h.symm]
  | cons x xs ih =>
    obtain ⟨y, ys, rfl, hxy, hrest⟩ := List.map_eq_cons_iff.1 h.symm
    rw [itemChars, itemChars, hxy, ih hrest.symm]

/-- The text of a list is made of the texts of its items. -/
theorem chars_array_congr (h : xs.map chars = ys.map chars) :
    (array xs).chars = (array ys).chars := by
  cases xs with
  | nil => rw [List.map_eq_nil_iff.1 h.symm]
  | cons x xs =>
    obtain ⟨y, ys, rfl, -⟩ := List.map_eq_cons_iff.1 h.symm
    exact congrArg (fun cs => '[' :: cs.tail) (itemChars_congr h)

theorem memberChars_congr {xs ys : Dict Json}
    (h : Dict.mapValues chars xs = Dict.mapValues chars ys) : memberChars xs = memberChars ys := by
  induction xs generalizing ys with
  | nil => rw [List.map_eq_nil_iff.1 h.symm]
  | cons x xs ih =>
    obtain ⟨y, ys, rfl, hxy, hrest⟩ := List.map_eq_cons_iff.1 h.symm
    obtain ⟨hname, hvalue⟩ := Prod.mk.inj hxy
    rw [memberChars, memberChars, hname, hvalue, ih hrest.symm]

/-- The text of an object is made of its names and the texts of its values. -/
theorem chars_object_congr {xs ys : Dict Json}
    (h : Dict.mapValues chars xs = Dict.mapValues chars ys) :
    (object xs).chars = (object ys).chars := by
  cases xs with
  | nil => rw [List.map_eq_nil_iff.1 h.symm]
  | cons x xs =>
    obtain ⟨y, ys, rfl, -⟩ := List.map_eq_cons_iff.1 h.symm
    exact congrArg (fun cs => '\x7b' :: cs.tail) (memberChars_congr h)

theorem chars_eq_of_agree (h : v.Agree w) (hv : v.Ordered) (hw : w.Ordered) :
    v.chars = w.chars := by
  induction h with
  | null => rfl
  | bool b => rfl
  | number h => rw [chars, chars, h]
  | string s => rfl
  | @array xs ys hlength h ih =>
    rw [Ordered] at hv hw
    apply chars_array_congr
    apply List.ext_getElem?
    intro index
    rw [List.getElem?_map, List.getElem?_map]
    cases hx : xs[index]? with
    | none =>
      have hy : ys[index]? = none := by
        rw [List.getElem?_eq_none_iff, ← hlength]
        exact List.getElem?_eq_none_iff.1 hx
      rw [hy]
    | some x =>
      obtain ⟨hindex, -⟩ := List.getElem?_eq_some_iff.1 hx
      obtain ⟨y, hy⟩ : ∃ y, ys[index]? = some y :=
        ⟨_, List.getElem?_eq_getElem (hlength ▸ hindex)⟩
      rw [hy, Option.map_some, Option.map_some]
      exact congrArg some (ih index x y hx hy (orderedItems_iff.1 hv x (List.mem_of_getElem? hx))
        (orderedItems_iff.1 hw y (List.mem_of_getElem? hy)))
  | @object xs ys hnames h ih =>
    rw [Ordered] at hv hw
    apply chars_object_congr
    apply Dict.ext_of_get? (Dict.ascending_mapValues hv.1 _) (Dict.ascending_mapValues hw.1 _)
    intro name
    rw [Dict.get?_mapValues, Dict.get?_mapValues]
    cases hx : Dict.get? xs name with
    | none => rw [(hnames name).1 hx]
    | some x =>
      cases hy : Dict.get? ys name with
      | none =>
        rw [(hnames name).2 hy] at hx
        cases hx
      | some y =>
        exact congrArg some (ih name x y hx hy
          (orderedMembers_iff.1 hv.2 _ (Dict.mem_of_get?_eq_some hx))
          (orderedMembers_iff.1 hw.2 _ (Dict.mem_of_get?_eq_some hy)))

/-- **Two values have the same compact text exactly if they agree.** -/
theorem text_eq_iff (hv : v.Ordered) (hw : w.Ordered) : v.text = w.text ↔ v.Agree w := by
  rw [text, text, String.ofList_inj]
  constructor
  · intro h
    have hsame : v.chars ++ [] = w.chars ++ [] := by rw [h]
    exact (agree_of_chars_append Number.closed_nil Number.closed_nil hsame).1
  · intro h
    exact chars_eq_of_agree h hv hw

end Json

end GraphWalk
