import GraphWalk.Proofs.Client.Journal
import GraphWalk.Proofs.Path.Keys

/-!
# No request with a marker

Without a schema the marker tells the leaves, and it is no part of the paths that are
asked for.  A step takes the marker of its own key off.  It stays where a field is
followed behind the key of a leaf, and where such a key is taken for an operation on a
list: then every request and all arguments from there on have it in their paths, and
the server is asked for a field whose name begins with it.

Nothing else brings a marker into a path, as long as the keys have it nowhere but in
front.

## Main definitions

* `Path.IsBare` — no field of a path begins with the marker.

## Main results

* `Path.isSome_unmarked?_key_iff` — when the key of such a path begins with the marker all the same.
* `Journal.requests_are_bare` — **requests and arguments have no marker unless a leaf was
  passed.**
-/

namespace GraphWalk

/-! ### Bare paths -/

theorem isSome_unmarked?_iff {marker : Char} {name : String} :
    (unmarked? marker name).isSome = true ↔ name.toList.head? = some marker := by
  rw [Option.isSome_iff_exists]
  constructor
  · rintro ⟨bare, hbare⟩
    rw [unmarked?_eq_some_iff.1 hbare, marked, String.toList_ofList]
    rfl
  · intro h
    refine ⟨String.ofList name.toList.tail, unmarked?_eq_some_iff.2 ?_⟩
    rw [marked, String.toList_ofList, ← String.toList_inj, String.toList_ofList]
    exact (List.cons_head?_tail h).symm

/-- What stands behind the marker has no marker in front, if the key has none there. -/
theorem unmarked?_of_unmarked? {marker : Char} {key name : String}
    (hkey : marker ∉ key.toList.tail) (h : unmarked? marker key = some name) :
    unmarked? marker name = none := by
  rw [unmarked?_eq_some_iff.1 h, marked, String.toList_ofList, List.tail_cons] at hkey
  rw [← Option.not_isSome_iff_eq_none, isSome_unmarked?_iff]
  exact fun hhead => hkey (List.mem_of_mem_head? hhead)

namespace Path

variable {marker : Char} {path : Path}

/-- No field of the path begins with the marker. -/
def IsBare (marker : Char) (path : Path) : Prop :=
  ∀ name ∈ path.fields, unmarked? marker name = none

instance (marker : Char) (path : Path) : Decidable (path.IsBare marker) :=
  inferInstanceAs (Decidable (∀ name ∈ path.fields, _))

theorem isBare_withField_iff {name : String} :
    (path.withField name).IsBare marker ↔ path.IsBare marker ∧ unmarked? marker name = none := by
  rw [IsBare, fields_withField, List.forall_mem_append, List.forall_mem_singleton]
  rfl

/-- **The key of a bare path begins with the marker only if this is the separator**, and the path
begins with a field without a name. -/
theorem isSome_unmarked?_key_iff (h : path.IsBare marker) :
    (unmarked? marker path.key).isSome = true ↔
      marker = separator ∧ ∃ next names, path.fields = "" :: next :: names := by
  rw [isSome_unmarked?_iff, key, String.toList_ofList]
  rw [IsBare] at h
  cases hfields : path.fields with
  | nil => exact iff_of_false (by rintro ⟨⟩) (by rintro ⟨-, next, names, ⟨⟩⟩)
  | cons name names =>
    rw [hfields] at h
    have hname : name.toList.head? ≠ some marker := by
      rw [ne_eq, ← isSome_unmarked?_iff, Option.not_isSome_iff_eq_none]
      exact h name List.mem_cons_self
    rw [joined_cons]
    by_cases hempty : name = ""
    · -- the first field has no character, so the text begins with what separates it from the next
      subst hempty
      cases names with
      | nil => exact iff_of_false (by rintro ⟨⟩) (by rintro ⟨-, next, names, ⟨⟩⟩)
      | cons next names =>
        show some separator = some marker ↔ _
        rw [Option.some.injEq, eq_comm]
        exact (and_iff_left ⟨next, names, rfl⟩).symm
    · rw [List.head?_append_of_ne_nil _ (mt String.toList_eq_nil_iff.1 hempty)]
      refine iff_of_false hname ?_
      rintro ⟨-, next, names, heq⟩
      exact hempty (List.cons.inj heq).1

end Path

/-! ### Traversals and their requests -/

variable {c₀ c : Client} {uses : List Use} {history : History} {held : List Traversal}

/-- Without a schema only the key of a leaf brings the marker into a path. -/
theorem Path.isBare_lostAtLeaves (hschema : c.schema = none) :
    Journal.LostAtLeaves c (Path.IsBare c.marker) where
  root := List.forall_mem_nil _
  withArguments {path} args h := by
    rw [IsBare, fields_withArguments]
    exact h
  parent {path} h := by
    obtain ⟨more, hmore⟩ := path.exists_fields_eq_parent_append
    rw [IsBare, hmore] at h
    exact fun name hname => h name (List.mem_append_left _ hname)
  withField_iff {t key} hpath := by
    rw [isBare_withField_iff, and_iff_right hpath, Traversal.leadsToLeaf, hschema]
    exact Option.isSome_eq_false_iff.trans Option.isNone_iff_eq_none |>.symm

namespace Journal

/-- A request takes the marker off its own key: it is bare if its traversal is. -/
theorem isBare_of_register (hschema : c₀.schema = none)
    (journal : Journal c₀ uses history held c)
    (hkeys : ∀ use ∈ uses, ∀ key ∈ use.key?, c₀.marker ∉ key.toList.tail)
    {path : Path} {added : Bool} (h : .register path added ∈ history) :
    ∃ t ∈ held, path.parent = t.path ∧ (path.IsBare c₀.marker ↔ t.path.IsBare c₀.marker) := by
  obtain ⟨t, ht, use, huse, key, hkey, hrequest⟩ := journal.exists_of_register h
  obtain ⟨name, hname, rfl⟩ := Traversal.request?_of_marker hschema hrequest
  refine ⟨t, ht, Path.parent_withField t.path name, ?_⟩
  rw [Path.isBare_withField_iff]
  exact and_iff_left (unmarked?_of_unmarked? (hkeys use huse key hkey) hname)

/-- **Requests and arguments have no marker unless a leaf was passed.**

Where keys have the marker nowhere but in front, a path that is asked for has it exactly if the
traversal that asked for it stands at a path that has.  The traversals that were handed out stand at
none exactly if no use went on behind a key that leads to a leaf.  If so, no field of a path that is
asked for, or at which arguments are given, begins with the marker; nor does the key under which the
arguments are kept, unless the marker is the separator and the path begins with a field without a
name. -/
theorem requests_are_bare (hschema : c₀.schema = none)
    (hkeys : ∀ use ∈ uses, ∀ key ∈ use.key?, c₀.marker ∉ key.toList.tail)
    (journal : Journal c₀ uses history held c) :
    (∀ path added, .register path added ∈ history → ∃ t ∈ held, path.parent = t.path ∧
      (path.IsBare c₀.marker ↔ t.path.IsBare c₀.marker)) ∧
    ((∀ t ∈ held, t.path.IsBare c₀.marker) ↔ ∀ use ∈ uses, ¬use.PassesLeaf c₀) ∧
    ((∀ use ∈ uses, ¬use.PassesLeaf c₀) →
      (∀ path added, .register path added ∈ history → path.IsBare c₀.marker) ∧
      ∀ path args changed, .fingerprint path args changed ∈ history → path.IsBare c₀.marker ∧
        ((unmarked? c₀.marker path.key).isSome = true ↔
          c₀.marker = Path.separator ∧ ∃ next names, path.fields = "" :: next :: names)) := by
  have hheld := journal.held_iff (Path.isBare_lostAtLeaves hschema)
  refine ⟨fun path added h => journal.isBare_of_register hschema hkeys h, hheld, fun hpasses => ?_⟩
  refine ⟨fun path added h => ?_, fun path args changed h => ?_⟩
  · obtain ⟨t, ht, -, hiff⟩ := journal.isBare_of_register hschema hkeys h
    exact hiff.2 (hheld.2 hpasses t ht)
  · obtain ⟨t, ht, rfl⟩ := journal.exists_of_fingerprint h
    have hbare := hheld.2 hpasses t ht
    exact ⟨hbare, Path.isSome_unmarked?_key_iff hbare⟩

/-! ### A name with the marker -/

/-- A client of which nothing was asked. -/
def markerClient : Client := {}

/-- What stands behind the key of a name, followed like a field. -/
def markedName : Traversal := ⟨.ofFields ["$name"], .null⟩

/-- The name is asked for, and there is no marker in what is asked for. -/
theorem requests_are_bare_name :
    (markerClient.query.step "$name" markerClient).2.pendingPaths = [.ofFields ["name"]] ∧
      (Path.ofFields ["name"]).IsBare '$' := by
  have hquery : Journal markerClient _ _ _ _ := start.use .query nofun
  have journal := hquery.useOf (.step markerClient.query "$name") rfl List.mem_cons_self
  have hkeys : ∀ use ∈ [Use.step markerClient.query "$name", .query], ∀ key ∈ use.key?,
      '$' ∉ key.toList.tail := by decide
  have hpasses : ∀ use ∈ [Use.step markerClient.query "$name", .query],
      ¬use.PassesLeaf markerClient := by decide
  have hschema : markerClient.schema = none := rfl
  obtain ⟨-, -, hbare⟩ := requests_are_bare hschema hkeys journal
  exact ⟨rfl, (hbare hpasses).1 (.ofFields ["name"]) true List.mem_cons_self⟩

/-- Where the name is followed like a field, the marker gets into what is asked for next. -/
theorem marker_asked_for :
    (markedName.step "$x" (markerClient.query.field "$name" markerClient).2).2.pendingPaths
        = [.ofFields ["name"], .ofFields ["$name", "x"]] ∧
      ¬∀ (c₀ c : Client) (uses : List Use) (history : History) (held : List Traversal),
        c₀.schema = none → (∀ use ∈ uses, ∀ key ∈ use.key?, c₀.marker ∉ key.toList.tail) →
          Journal c₀ uses history held c →
            ∀ path added, .register path added ∈ history → path.IsBare c₀.marker := by
  refine ⟨rfl, fun hbare => ?_⟩
  have hquery : Journal markerClient _ _ _ _ := start.use .query nofun
  have hname := hquery.useOf (.field markerClient.query "$name") rfl List.mem_cons_self
  have hx := hname.useOf (.step markedName "$x") rfl List.mem_cons_self
  have hkeys : ∀ use ∈ [Use.step markedName "$x", .field markerClient.query "$name", .query],
      ∀ key ∈ use.key?, '$' ∉ key.toList.tail := by decide
  have hmarker := hbare markerClient _ _ _ _ rfl hkeys hx (.ofFields ["$name", "x"]) true
    List.mem_cons_self "$name" List.mem_cons_self
  cases hmarker

end Journal

end GraphWalk
