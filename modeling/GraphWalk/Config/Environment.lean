import GraphWalk.Config.Directory
import GraphWalk.Config.Setting.Line
import GraphWalk.Config.Setting.Value
import GraphWalk.Dict

/-!
# The environment

Settings come from variables, and from the lines of a file that fill in the
variables which are not set.

## Main definitions

* `Environment` — the variables.
* `Environment.fill` — the variables, filled in from some lines up to the first that is wrong.
* `Environment.load` — the variables, filled in from a directory's file.

## Main results

* `Environment.get?_fill` — a variable that is set keeps its value.
-/

namespace GraphWalk

/-- The variables that are set. -/
abbrev Environment := Dict String

namespace Environment

open Text

/-- The file that fills in variables. -/
def fileName : String := ".env"

/-- The characters of a variable's value; none when it is not set. -/
def valueChars (env : Environment) (name : List Char) : List Char :=
  ((Dict.get? env (String.ofList name)).getD "").toList

/-- The variables with a value for one that is not set. -/
def setDefault (env : Environment) (name value : String) : Environment :=
  if Dict.contains env name then env else Dict.insert env name value

/-- The name and the value that a line without blanks at its ends tells. -/
def assignment? (env : Environment) (line : List Char) : Option (String × String) :=
  (Setting.ofLine? line).bind fun setting =>
    (setting.value? env.valueChars).map (setting.name, ·)

/-- The variables, filled in line by line up to the first line that is neither a setting nor
idle.  A value may refer to the variables that are set by then. -/
def fill (env : Environment) : List (List Char) → Environment
  | [] => env
  | line :: lines =>
    let line := trim line
    if Setting.isIdle line then fill env lines
    else
      match env.assignment? line with
      | some (name, value) => fill (env.setDefault name value) lines
      | none => env

/-- The variables, filled in from the directory's file if it has one. -/
def load (env : Environment) (directory : Directory) : Environment :=
  match directory.readBytes fileName with
  | .ok bytes => env.fill (Setting.lines bytes)
  | .error _ => env

/-! ### Variables that are set -/

theorem get?_setDefault {env : Environment} {name value : String}
    (h : Dict.get? env name = some value) (other otherValue : String) :
    Dict.get? (env.setDefault other otherValue) name = some value := by
  unfold setDefault
  split
  · exact h
  · rename_i hother
    have hne : name ≠ other := by
      rintro rfl
      exact hother (by simp [Dict.contains, h])
    rw [Dict.get?_insert_of_ne env hne, h]

/-- A variable that is set keeps its value. -/
theorem get?_fill {env : Environment} {name value : String}
    (h : Dict.get? env name = some value) (lines : List (List Char)) :
    Dict.get? (env.fill lines) name = some value := by
  induction lines generalizing env with
  | nil => exact h
  | cons line lines ih =>
    simp only [fill]
    split
    · exact ih h
    · split
      · exact ih (get?_setDefault h _ _)
      · exact h

end Environment

end GraphWalk
