import GraphWalk.Proofs.Json.Marking
import GraphWalk.Proofs.Traversal.Following

/-!
# Fields that change their kind

Without a schema a leaf is looked up under its marked name and then under its bare one,
and a branch under its bare name.  A field owns both names, but a later result fills only
the one of its own kind.  So where a field changes between a scalar and a list or object,
what was known earlier stays under the other name, and a traversal still finds it there.

## Main results

* `Traversal.step_marked_of_known`, `Traversal.step_bare` — a leaf and a branch that are looked up.
* `Traversal.marked_image_iff_same_kinds` — **what a state of marked results is the image of.**
* `Traversal.earlier_scalar_stays` — a scalar that became an object is still found.
-/

namespace GraphWalk

namespace Traversal

open Json

variable {marker : Char} {policy : ListPolicy} {known new : Json} {c : Client} {t : Traversal}
  {field : String}

/-- Whatever has a member is no list. -/
theorem not_list_of_member? {name : String} {w : Json} (h : t.bound.member? name = some w) :
    ∀ items, t.bound ≠ .array items := by
  intro items hitems
  rw [hitems] at h
  cases h

/-- A leaf that is known under its marked name answers with what is there. -/
theorem step_marked_of_known (hschema : c.schema = none) {w : Json}
    (h : t.bound.member? (marked c.marker field) = some w) :
    t.step (marked c.marker field) c = (.leaf (some w), c) := by
  rw [step_of_marker hschema (not_list_of_member? h), markerStep, unmarked?_marked]
  dsimp only
  rw [leaf, List.findSome?_cons, h]
  rfl

/-- A branch is bound to what is there under its bare name. -/
theorem step_bare (hschema : c.schema = none) (hfield : unmarked? c.marker field = none) {w : Json}
    (h : t.bound.member? field = some w) :
    t.step field c = (.branch ⟨t.path.withField field, w⟩, c) := by
  rw [step_of_marker hschema (not_list_of_member? h), markerStep, hfield]
  dsimp only
  rw [branch, boundMember, h]
  rfl

/-- **What a state of marked results is the image of.**

Take two values without the marker in any name.  Merging them marked is marking them merged exactly
if no field changes its kind between them.  A field of the new value has under its other name what
the known value has for it, if the kinds differ, and nothing otherwise.  So where an object or list
takes the place of a scalar the leaf is still answered with the scalar, and where a scalar takes the
place of an object or list the branch still leads to that. -/
theorem marked_image_iff_same_kinds (policy : ListPolicy) (hknown : known.Plain marker)
    (hnew : new.Plain marker) :
    ((known.mark marker).merge policy (new.mark marker) = (known.merge policy new).mark marker
      ↔ known.SameKinds new) ∧
    (∀ names field fresh, new.at? (names ++ [field]) = some fresh →
      ((known.mark marker).merge policy (new.mark marker)).at?
          (names ++ [kindName marker (!fresh.isContainer) field])
        = ((known.at? (names ++ [field])).filter fun old =>
            old.isContainer == !fresh.isContainer).map (mark marker)) ∧
    ∀ (c : Client) (t : Traversal) names field old fresh, c.schema = none → c.marker = marker →
      ((known.mark marker).merge policy (new.mark marker)).at? names = some t.bound →
      known.at? (names ++ [field]) = some old → new.at? (names ++ [field]) = some fresh →
      (old.isContainer = false → fresh.isContainer = true →
        t.step (marked marker field) c = (.leaf (some old), c)) ∧
      (old.isContainer = true → fresh.isContainer = false →
        t.step field c = (.branch ⟨t.path.withField field, old.mark marker⟩, c)) := by
  refine ⟨merge_mark_iff hknown hnew, fun names field fresh hfresh =>
    at?_merge_mark_other policy hknown hnew hfresh, ?_⟩
  rintro c t names field old fresh hschema rfl hbound hold hfresh
  -- the traversal finds what the merged value has under the other name
  have hother := at?_merge_mark_other policy hknown hnew hfresh
  rw [hold, at?_append, hbound, Option.bind_some, at?_cons, Option.filter_some] at hother
  have hmember : ∀ name w, ((t.bound.member? name).bind fun child => child.at? []) = some w →
      t.bound.member? name = some w := by
    intro name w h
    obtain ⟨child, hchild, hsame⟩ := Option.bind_eq_some_iff.1 h
    rw [at?_nil] at hsame
    exact hsame ▸ hchild
  constructor
  · intro hscalar hcontainer
    have hkinds : (old.isContainer == !fresh.isContainer) = true := by
      rw [hscalar, hcontainer]
      rfl
    rw [if_pos hkinds, Option.map_some, mark_of_scalar c.marker hscalar, hcontainer] at hother
    exact step_marked_of_known hschema (hmember _ _ hother)
  · intro hcontainer hscalar
    have hkinds : (old.isContainer == !fresh.isContainer) = true := by
      rw [hscalar, hcontainer]
      rfl
    rw [if_pos hkinds, Option.map_some, hscalar] at hother
    have hfield : unmarked? c.marker field = none :=
      hnew.names_unmarked hfresh field (List.mem_append_right _ (List.mem_singleton_self field))
    exact step_bare hschema hfield (hmember _ _ hother)

/-! ### A scalar that becomes an object -/

/-- The field is a scalar. -/
def scalarAnswer : Json := .object [("a", .number (.int 1))]

/-- The field is an object. -/
def objectAnswer : Json := .object [("a", .object [("x", .number (.int 2))])]

theorem scalarAnswer_plain : scalarAnswer.Plain '$' :=
  ⟨⟨List.pairwise_singleton _ _, trivial, trivial⟩, rfl, trivial, trivial⟩

theorem objectAnswer_plain : objectAnswer.Plain '$' :=
  ⟨⟨List.pairwise_singleton _ _, ⟨List.pairwise_singleton _ _, trivial, trivial⟩, trivial⟩,
    rfl, ⟨rfl, trivial, trivial⟩, trivial⟩

/-- The leaf is answered with the scalar although an object has come for it. -/
theorem marked_image_iff_same_kinds_scalar :
    let merged := (scalarAnswer.mark '$').merge .concat (objectAnswer.mark '$')
    let t : Traversal := ⟨.root, merged⟩
    t.step "$a" {} = (.leaf (some (.number (.int 1))), {}) := by
  intro merged t
  obtain ⟨-, -, hsteps⟩ := marked_image_iff_same_kinds .concat scalarAnswer_plain objectAnswer_plain
  exact (hsteps {} t [] "a" _ _ rfl rfl (at?_nil merged) rfl rfl).1 rfl rfl

/-- A scalar that became an object is still there under its marked name. -/
theorem earlier_scalar_stays :
    ¬∀ (marker : Char) (policy : ListPolicy) (known new : Json),
      known.isObject = true → new.isObject = true → known.Plain marker → new.Plain marker →
      (known.mark marker).merge policy (new.mark marker)
        = (known.merge policy new).mark marker := by
  intro hcommutes
  have hsame := hcommutes '$' .concat scalarAnswer objectAnswer rfl rfl scalarAnswer_plain
    objectAnswer_plain
  have hkinds := (merge_mark_iff scalarAnswer_plain objectAnswer_plain).1 hsame ["a"]
    (List.cons_ne_nil _ _) _ _ rfl rfl
  cases hkinds

end Traversal

end GraphWalk
