/-!
# What follows a beginning

Taking a known beginning off a text.

## Main definitions

* `after? word cs` — the text after `word`, when it begins with that word.
-/

namespace GraphWalk.Text

/-- What follows a word at the front of a text; none when the text does not begin with it. -/
def after? : (word cs : List Char) → Option (List Char)
  | [], cs => some cs
  | _ :: _, [] => none
  | w :: word, c :: cs => if w = c then after? word cs else none

@[simp] theorem after?_nil (cs : List Char) : after? [] cs = some cs := by cases cs <;> rfl

@[simp] theorem after?_append (word cs : List Char) : after? word (word ++ cs) = some cs := by
  induction word with
  | nil => simp
  | cons w word ih => simp [after?, ih]

/-- A text begins with a word exactly when it is that word and something after it. -/
theorem after?_eq_some_iff {word cs rest : List Char} :
    after? word cs = some rest ↔ cs = word ++ rest := by
  constructor
  · intro h
    induction word generalizing cs with
    | nil => simpa using h
    | cons w word ih =>
      cases cs with
      | nil => simp [after?] at h
      | cons c cs =>
        simp only [after?, Option.ite_none_right_eq_some] at h
        rw [h.1, ih h.2, List.cons_append]
  · rintro rfl
    exact after?_append word rest

end GraphWalk.Text
