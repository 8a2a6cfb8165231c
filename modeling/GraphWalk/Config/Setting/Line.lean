import GraphWalk.Text.Blank

/-!
# The lines of a settings file

A file is cut into rows behind its line feeds.  A row is a line, unless a quote is open
at its end: then the line goes on in the next row.  A comment that stands behind a blank
is left out.

## Main definitions

* `Setting.byteRows`, `Setting.rows` — the rows of a file, as far as they are text.
* `Setting.Quoting` — what is open at a place of a line.
* `Setting.scan` — the part of a row that counts, and what is open at its end.
* `Setting.lines` — the lines of a file.

## Main results

* `Setting.flatten_byteRows` — the rows are the whole file.
* `Setting.scan_fst_prefix_row` — a part of a row counts that it begins with.
-/

namespace GraphWalk

namespace Setting

open Text

/-! ### Rows -/

/-- One byte before some rows. -/
def pushByte (byte : UInt8) (rows : List (List UInt8)) : List (List UInt8) :=
  if byte = 10 then [byte] :: rows
  else
    match rows with
    | [] => [[byte]]
    | row :: rows => (byte :: row) :: rows

/-- The rows of a file: each ends with its line feed, which the last one may lack. -/
def byteRows (bytes : List UInt8) : List (List UInt8) :=
  bytes.foldr pushByte []

theorem flatten_pushByte (byte : UInt8) (rows : List (List UInt8)) :
    (pushByte byte rows).flatten = byte :: rows.flatten := by
  unfold pushByte
  split
  · rfl
  · cases rows <;> rfl

/-- No byte is lost or added. -/
theorem flatten_byteRows (bytes : List UInt8) : (byteRows bytes).flatten = bytes := by
  induction bytes with
  | nil => rfl
  | cons byte bytes ih => rw [byteRows, List.foldr_cons, flatten_pushByte, ← byteRows, ih]

/-- The characters of some rows, up to the first row that is no text. -/
def textRows : List (List UInt8) → List (List Char)
  | [] => []
  | row :: rows =>
    match String.fromUTF8? row.toByteArray with
    | some text => text.toList :: textRows rows
    | none => []

/-- The mark that may stand at the front of a file to say that it is text. -/
def byteOrderMark : List UInt8 := [0xef, 0xbb, 0xbf]

/-- A file without the mark at its front. -/
def dropMark (bytes : List UInt8) : List UInt8 :=
  if byteOrderMark.isPrefixOf bytes then bytes.drop byteOrderMark.length else bytes

/-- The rows of a file, up to the first one that is no text. -/
def rows (bytes : ByteArray) : List (List Char) :=
  textRows (byteRows (dropMark bytes.toList))

/-! ### Quoting -/

/-- What is open at a place of a line. -/
inductive Quoting
  /-- Nothing. -/
  | plain
  /-- A blank stands before, and nothing else is open. -/
  | blank
  /-- A backslash outside of quotes. -/
  | escape
  /-- A single quote. -/
  | single
  /-- A backslash behind a single quote. -/
  | singleEscape
  /-- A double quote. -/
  | double
  /-- A backslash behind a double quote. -/
  | doubleEscape
  deriving DecidableEq, Repr, Inhabited

/-- What a character opens where nothing is open. -/
def Quoting.opened (c : Char) : Quoting :=
  if c = '\\' then .escape
  else if c = '"' then .double
  else if c = '\x27' then .single
  else .plain

/-- What is open behind a character.  A blank is told only when no other blank stands before
it. -/
def Quoting.next : Quoting → Char → Quoting
  | .plain, c => if isBlank c ∧ c ≠ '\n' ∧ c ≠ '\r' then .blank else opened c
  | .blank, c => opened c
  | .escape, _ => .plain
  | .single, c => if c = '\\' then .singleEscape else if c = '\x27' then .plain else .single
  | .singleEscape, _ => .single
  | .double, c => if c = '\\' then .doubleEscape else if c = '"' then .plain else .double
  | .doubleEscape, _ => .double

/-- The part of a row that counts, and what is open at its end.  A comment behind a blank does
not count and leaves nothing open. -/
def scan : Quoting → List Char → List Char × Quoting
  | quoting, [] => ([], quoting)
  | quoting, c :: cs =>
    if quoting = .blank ∧ c = '#' then ([], .plain)
    else
      let (kept, last) := scan (quoting.next c) cs
      (c :: kept, last)

/-- What counts of a row is its beginning. -/
theorem scan_fst_prefix_row (quoting : Quoting) (cs : List Char) : (scan quoting cs).1 <+: cs := by
  induction cs generalizing quoting with
  | nil => exact List.prefix_rfl
  | cons c cs ih =>
    unfold scan
    split
    · exact ⟨c :: cs, rfl⟩
    · exact (List.prefix_cons_inj c).2 (ih _)

/-! ### Lines -/

/-- A text that is a comment from its first character on that is no blank. -/
def isComment (cs : List Char) : Bool :=
  (dropBlanks cs).head? == some '#'

/-- The lines that some rows make, behind the rows of a line at whose end something is open.  A
comment is no line, and neither is what is still open behind the last row. -/
def join (quoting : Quoting) (before : List Char) : List (List Char) → List (List Char)
  | [] => []
  | row :: rows =>
    if isComment (before ++ row) then join .plain [] rows
    else
      match scan quoting row with
      | (kept, .plain) => (before ++ kept) :: join .plain [] rows
      | (kept, quoting) => join quoting (before ++ kept) rows

/-- The lines of a file, up to the first row that is no text. -/
def lines (bytes : ByteArray) : List (List Char) :=
  join .plain [] (rows bytes)

end Setting

end GraphWalk
