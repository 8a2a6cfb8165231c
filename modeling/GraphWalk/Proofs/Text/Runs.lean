import Mathlib.Data.List.TakeWhile

/-!
# Runs of characters

A run of characters of one kind ends where a character of another kind follows, or nothing.  So
it can be taken off the front of a text, and the text tells both the run and what follows.

## Main results

* `Text.span_eq` — a run is taken off the front of a text.
* `Text.run_append_inj` — **a run is told from what follows.**
-/

namespace GraphWalk

namespace Text

variable {p : Char → Bool} {run other rest after : List Char}

/-- Nothing is taken off a text that begins with no character of the kind. -/
theorem span_of_head? (hrest : ∀ c ∈ rest.head?, p c = false) :
    rest.takeWhile p = [] ∧ rest.dropWhile p = rest := by
  cases rest with
  | nil => exact ⟨rfl, rfl⟩
  | cons c rest =>
    have hc := hrest c rfl
    exact ⟨List.takeWhile_cons_of_neg (by simp [hc]), List.dropWhile_cons_of_neg (by simp [hc])⟩

/-- A run of characters that ends where a text goes on differently. -/
theorem span_eq (hrun : ∀ c ∈ run, p c = true) (hrest : ∀ c ∈ rest.head?, p c = false) :
    (run ++ rest).takeWhile p = run ∧ (run ++ rest).dropWhile p = rest := by
  obtain ⟨htake, hdrop⟩ := span_of_head? hrest
  rw [List.takeWhile_append_of_pos hrun, List.dropWhile_append_of_pos hrun, htake, hdrop,
    List.append_nil]
  exact ⟨rfl, rfl⟩

/-- **A run is told from what follows.** -/
theorem run_append_inj (hrun : ∀ c ∈ run, p c = true) (hrest : ∀ c ∈ rest.head?, p c = false)
    (hother : ∀ c ∈ other, p c = true) (hafter : ∀ c ∈ after.head?, p c = false)
    (h : run ++ rest = other ++ after) : run = other ∧ rest = after := by
  obtain ⟨htake, hdrop⟩ := span_eq hrun hrest
  obtain ⟨htake', hdrop'⟩ := span_eq hother hafter
  rw [h, htake'] at htake
  rw [h, hdrop'] at hdrop
  exact ⟨htake.symm, hdrop.symm⟩

end Text

end GraphWalk
