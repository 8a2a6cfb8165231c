import GraphWalk.Batch.Pending
import GraphWalk.Proofs.Path.Keys
import GraphWalk.Proofs.Schema.TableNames

/-!
# Keys stand for fields

Paths are compared by their fields, but what waits is told apart and dropped by the text of
the keys.  The two agree for all fields whose names stand for themselves in a key: no matter how
one name begins with another one, and no matter where arguments are given.

A name that is empty or holds the separator breaks this: the fields `a.b` and `a`, `b` have one
key.  The names in the tables of a schema are neither.

## Main results

* `Path.key_eq_iff` — keys are equal when the fields are.
* `PendingSet.mem_discardUnder_iff` — a path is dropped when it goes on from the fields of another.
* `keys_stand_for_fields` — **keys tell the fields of all paths over the names of a schema.**
-/

namespace GraphWalk

/-! ### Equal keys -/

namespace Path

variable {p q : Path}

/-- **Keys are equal when the fields are.** -/
theorem key_eq_iff (hp : ∀ name ∈ p.fields, IsKeyName name)
    (hq : ∀ name ∈ q.fields, IsKeyName name) : p.key = q.key ↔ p.fields = q.fields := by
  refine ⟨fun h => ?_, key_eq_of_fields_eq⟩
  rw [key, key, String.ofList_inj] at h
  have hpq : p.fields <+: q.fields := isPrefix_of_joined hp (fun name hname => (hq name hname).2)
    nameEnds_nil (h.symm.trans (List.append_nil _).symm)
  have hqp : q.fields <+: p.fields := isPrefix_of_joined hq (fun name hname => (hp name hname).2)
    nameEnds_nil (h.trans (List.append_nil _).symm)
  exact hpq.eq_of_length (Nat.le_antisymm hpq.length_le hqp.length_le)

/-- What lies at or below a path goes on from its fields, even if it has none. -/
theorem isAtOrBelow_iff_isPrefix (hp : ∀ name ∈ p.fields, IsKeyName name)
    (hq : ∀ name ∈ q.fields, IsKeyName name) :
    isAtOrBelow p.key q.key = true ↔ q.fields <+: p.fields := by
  by_cases hroot : q.fields = []
  · -- every key is at or below the empty one
    rw [key_eq_of_fields_eq (hroot.trans fields_root.symm), hroot]
    exact iff_of_true rfl List.nil_prefix
  · exact isAtOrBelow_key_iff hq (fun name hname => (hp name hname).2) hroot

end Path

/-! ### What is dropped -/

namespace PendingSet

variable {s : PendingSet} {p q : Path}

/-- **A waiting path is dropped when it goes on from the fields of the other one.** -/
theorem mem_discardUnder_iff (hp : ∀ name ∈ p.fields, Path.IsKeyName name)
    (hq : ∀ name ∈ q.fields, Path.IsKeyName name) (hmem : p ∈ s.paths) :
    p ∈ (s.discardUnder q.key).2.paths ↔ ¬q.fields <+: p.fields := by
  rw [paths_discardUnder, List.mem_filter, ← Path.isAtOrBelow_iff_isPrefix hp hq,
    Bool.not_eq_true', Bool.not_eq_true]
  exact and_iff_right hmem

/-- Under a path without fields everything is dropped, whatever the names. -/
theorem discardUnder_of_fields_nil (s : PendingSet) (hq : q.fields = []) :
    (s.discardUnder q.key).2.paths = [] ∧ (s.discardUnder q.key).1 = s.size := by
  have hall : (s.discardUnder q.key).2.paths = [] := by
    rw [Path.key_eq_of_fields_eq (hq.trans Path.fields_root.symm), paths_discardUnder,
      List.filter_eq_nil_iff]
    exact fun _ _ => Bool.false_ne_true
  refine ⟨hall, ?_⟩
  show s.paths.length - (s.discardUnder q.key).2.paths.length = s.paths.length
  rw [hall]
  rfl

end PendingSet

/-- **Keys tell the fields of all paths over the names of a schema**, and of all others whose names
are not empty and hold no separator: paths are the same when their keys are, and that is when their
fields are; what waits is dropped under a key when its fields go on from those of the key. -/
theorem keys_stand_for_fields {p q : Path} (hp : ∀ name ∈ p.fields, Path.IsKeyName name)
    (hq : ∀ name ∈ q.fields, Path.IsKeyName name) :
    (p.same q = true ↔ p.key = q.key) ∧
      (p.key = q.key ↔ p.fields = q.fields) ∧
      (∀ s : PendingSet, p ∈ s.paths →
        (p ∉ (s.discardUnder q.key).2.paths ↔ q.fields <+: p.fields)) ∧
      (q.fields = [] → ∀ s : PendingSet,
        (s.discardUnder q.key).2.paths = [] ∧ (s.discardUnder q.key).1 = s.size) ∧
      ∀ text name, (Schema.ofText text).HasName name → Path.IsKeyName name := by
  have hkey := Path.key_eq_iff hp hq
  refine ⟨?same, hkey, ?dropped, fun hnil s => s.discardUnder_of_fields_nil hnil,
    fun _ _ => Schema.isKeyName_of_hasName⟩
  case same => rw [hkey, Path.same, beq_iff_eq]
  case dropped =>
    intro s hmem
    rw [PendingSet.mem_discardUnder_iff hp hq hmem, not_not]

/-- The names of items are no part of the name of an item, whatever arguments and letters stand
there. -/
theorem keys_stand_for_fields_items :
    let items : Path := ⟨[.field "items", .arguments [("first", .null)], .field "größe"]⟩
    let item : Path := ⟨[.field "item", .arguments []]⟩
    (∀ name ∈ items.fields, Path.IsKeyName name) ∧ (∀ name ∈ item.fields, Path.IsKeyName name) ∧
      ¬items.same item = true ∧ items.key ≠ item.key ∧
      let waiting : PendingSet := { paths := [items], keys := [items.key] }
      items ∈ (waiting.discardUnder item.key).2.paths := by
  intro items item
  have hitems : ∀ name ∈ items.fields, Path.IsKeyName name := by decide
  have hitem : ∀ name ∈ item.fields, Path.IsKeyName name := by decide
  have hfields : items.fields ≠ item.fields := by decide
  have hprefix : ¬item.fields <+: items.fields := by decide
  obtain ⟨hsame, hkey, hdropped, -, -⟩ := keys_stand_for_fields hitems hitem
  refine ⟨hitems, hitem, fun h => hfields (hkey.1 (hsame.1 h)), mt hkey.1 hfields, ?_⟩
  by_contra hgone
  exact hprefix ((hdropped _ List.mem_cons_self).1 hgone)

end GraphWalk
