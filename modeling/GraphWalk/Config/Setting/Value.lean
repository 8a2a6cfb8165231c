import GraphWalk.Config.Setting.Basic
import GraphWalk.Text.Word

/-!
# The value of a setting

A value is written as it is, unless it holds blanks, quotes, backslashes or dollar signs:
double quotes keep blanks, single quotes keep everything, a backslash keeps the character
behind it, and a dollar sign stands before the name of a variable whose value is put in.

## Main definitions

* `Setting.Mode` — where in a value a character is read.
* `Setting.Mode.step?` — what one character adds to the value.
* `Setting.read?` — the value that a text tells.
* `Setting.value?` — the value of a setting.

## Main results

* `Setting.read?_of_isOrdinary` — a value without signs is read as it is written.
* `Setting.read?_verbatim` — between single quotes everything is read as it is written.
-/

namespace GraphWalk

namespace Setting

open Text

/-- A space or a tab. -/
def isGap (c : Char) : Bool :=
  c == ' ' || c == '\t'

/-- Where in a value a character is read. -/
inductive Mode
  /-- Between double quotes, or outside of quotes. -/
  | text (quoted : Bool)
  /-- Behind a backslash. -/
  | escape (quoted : Bool)
  /-- Behind a dollar sign and the beginning of a name. -/
  | reference (quoted : Bool) (name : List Char)
  /-- Behind a dollar sign, an opening brace and the beginning of a name. -/
  | braced (quoted : Bool) (name : List Char)
  /-- Between single quotes. -/
  | verbatim
  /-- Behind the gap that ends a value. -/
  | gap
  /-- In the comment behind a value. -/
  | comment
  deriving DecidableEq, Repr

/-- The character that a character behind a backslash stands for. -/
def unescape? (c : Char) : Option Char :=
  if c = '\\' ∨ c = '\x27' ∨ c = '"' ∨ c = '$' ∨ c = ' ' then some c
  else if c = 'n' then some '\n'
  else none

namespace Mode

variable (lookup : List Char → List Char)

/-- What a character adds to the value, and where the next one is read; none when the character
may not stand there. -/
def step? : Mode → Char → Option (List Char × Mode)
  | .text quoted, c =>
    if c = '$' then some ([], .reference quoted [])
    else if c = '\\' then some ([], .escape quoted)
    else if c = '"' then some ([], .text !quoted)
    else if quoted then some ([c], .text true)
    else if c = '\x27' then some ([], .verbatim)
    else if isGap c then some ([], .gap)
    else some ([c], .text false)
  | .escape quoted, c => (unescape? c).map fun d => ([d], .text quoted)
  | .reference quoted name, c =>
    if isAlphanumeric c then some ([], .reference quoted (name ++ [c]))
    else if c = '\x7b' ∧ name = [] then some ([], .braced quoted [])
    else if c = '$' then some (lookup name, .reference quoted [])
    else some (lookup name ++ [c], .text quoted)
  | .braced quoted name, c =>
    if c = '\x7d' then some (lookup name, .text quoted)
    else some ([], .braced quoted (name ++ [c]))
  | .verbatim, c => if c = '\x27' then some ([], .text false) else some ([c], .verbatim)
  | .gap, c =>
    if isGap c then some ([], .gap) else if c = '#' then some ([], .comment) else none
  | .comment, _ => some ([], .comment)

/-- What the end of a value adds to it; none when a quote or a brace is open. -/
def finish? : Mode → Option (List Char)
  | .text false | .escape false | .gap | .comment => some []
  | .reference false name => some (lookup name)
  | .text true | .escape true | .reference true _ | .braced _ _ | .verbatim => none

end Mode

/-- The value that the rest of a text tells. -/
def read? (lookup : List Char → List Char) : Mode → List Char → Option (List Char)
  | mode, [] => mode.finish? lookup
  | mode, c :: cs =>
    match mode.step? lookup c with
    | some (added, mode) => (read? lookup mode cs).map (added ++ ·)
    | none => none

/-- The value of a setting, given the values of variables. -/
def value? (lookup : List Char → List Char) (setting : Setting) : Option String :=
  if isIdle setting.written then some ""
  else (read? lookup (.text false) setting.written).map String.ofList

/-! ### What is read as it is written -/

/-- A character that stands for itself in a value outside of quotes. -/
def isOrdinary (c : Char) : Bool :=
  !(c == '$' || c == '\\' || c == '"' || c == '\x27' || isGap c)

theorem step?_of_isOrdinary (lookup : List Char → List Char) {c : Char} (h : isOrdinary c) :
    Mode.step? lookup (.text false) c = some ([c], .text false) := by
  simp only [isOrdinary, Bool.not_eq_true', Bool.or_eq_false_iff, beq_eq_false_iff_ne] at h
  simp [Mode.step?, h]

/-- A value without signs is read as it is written. -/
theorem read?_of_isOrdinary (lookup : List Char → List Char) {cs : List Char}
    (h : ∀ c ∈ cs, isOrdinary c) : read? lookup (.text false) cs = some cs := by
  induction cs with
  | nil => rfl
  | cons c cs ih =>
    rw [read?, step?_of_isOrdinary lookup (h c List.mem_cons_self)]
    simp [ih fun d hd => h d (List.mem_cons_of_mem c hd)]

/-- Between single quotes everything is read as it is written. -/
theorem read?_verbatim (lookup : List Char → List Char) {cs : List Char} (h : '\x27' ∉ cs)
    (rest : List Char) :
    read? lookup .verbatim (cs ++ '\x27' :: rest)
      = (read? lookup (.text false) rest).map (cs ++ ·) := by
  induction cs with
  | nil => simp [read?, Mode.step?]
  | cons c cs ih =>
    have hc : c ≠ '\x27' := fun hc => h (hc ▸ List.mem_cons_self)
    have hcs : '\x27' ∉ cs := fun hm => h (List.mem_cons_of_mem c hm)
    simp [read?, Mode.step?, hc, ih hcs, Function.comp_def]

end Setting

end GraphWalk
