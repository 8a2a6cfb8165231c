import GraphWalk.Proofs.Client.Course
import GraphWalk.Proofs.Traversal.Destinations

/-!
# Journals

A course tells what came of the uses that were made of a client's traversals.  A journal
tells the uses as well, so that something can be asked of them.  It may begin with any
client, in whatever state that is.  Walks, values and queries for every item are made of
these uses.

Where traversals stand is told by the uses.  A step away from lists goes on from no leaf;
but a field goes on behind its key whatever this leads to, and so does an operation on a
list, whose key is not looked at.  These are the only ways to a traversal that stands at
a leaf.

## Main definitions

* `Use` — a use of a client or of one of its traversals.
* `Journal` — the uses that were made, what came of them, and the traversals handed out.
* `Use.PassesLeaf` — a use that goes on behind a key that leads to a leaf.

## Main results

* `Course.iff_journal` — every course has a journal.
* `Journal.held_iff` — **what holds of all paths but those to leaves holds of the traversals exactly
  if no use passes a leaf.**
* `Journal.exists_of_register`, `Journal.exists_of_fingerprint` — where requests and arguments come
  from.
* `Journal.exists_of_call` — what is sent for was asked for.
-/

namespace GraphWalk

/-! ### What waits -/

namespace Batcher

variable {guards : Nat} {history since : History} {b b' : Batcher} {happening : Happening}
  {path : Path} {call : Flight}

/-- What waits after a step waited before, or was asked for. -/
theorem Step.mem_paths (step : Step guards b happening b') (h : path ∈ b'.pending.paths) :
    path ∈ b.pending.paths ∨ happening = .register path true := by
  rw [step.paths_eq, List.mem_append, List.mem_filter, Option.mem_toList] at h
  refine h.imp And.left fun haccepted => ?_
  unfold Happening.accepted? at haccepted
  split at haccepted
  · cases haccepted
    rfl
  · cases haccepted

/-- What waits was asked for, if it did not wait from the beginning. -/
theorem Later.exists_of_waiting (later : Later history b since b') (h : path ∈ b'.pending.paths) :
    path ∈ b.pending.paths ∨ .register path true ∈ since := by
  induction later with
  | now => exact .inl h
  | next _ step ih =>
    rcases step.mem_paths h with h | rfl
    · exact (ih h).imp_right (List.mem_cons_of_mem _)
    · exact .inr List.mem_cons_self

/-- What was sent for was asked for, if it did not wait from the beginning. -/
theorem Later.exists_of_call (later : Later history b since b') (hcall : call ∈ since.calls)
    (hpath : path ∈ call.paths) : path ∈ b.pending.paths ∨ .register path true ∈ since := by
  induction later with
  | now => cases hcall
  | next later step ih =>
    rw [History.calls_cons, List.mem_append, Option.mem_toList] at hcall
    rcases hcall with hcall | hcall
    · rw [(step.paths_call hcall).1] at hpath
      exact (later.exists_of_waiting hpath).imp_right (List.mem_cons_of_mem _)
    · exact (ih hcall).imp_right (List.mem_cons_of_mem _)

end Batcher

/-! ### Uses -/

/-- A use of a client or of one of its traversals. -/
inductive Use
  /-- A traversal starts at the root. -/
  | query
  /-- A step by a key. -/
  | step (t : Traversal) (key : String)
  /-- A field is followed. -/
  | field (t : Traversal) (key : String)
  /-- Arguments are given. -/
  | withArguments (t : Traversal) (args : Dict Json)
  /-- The items are gone through. -/
  | items (t : Traversal)
  /-- The items are gone through, the last key having named an operation. -/
  | lifted (t : Traversal)

namespace Use

/-- The traversal that is used. -/
def of? : Use → Option Traversal
  | .query => none
  | .step t _ | .field t _ | .withArguments t _ | .items t | .lifted t => some t

/-- The key that is used. -/
def key? : Use → Option String
  | .step _ key | .field _ key => some key
  | _ => none

/-- The traversals that are handed out. -/
def gives (c : Client) : Use → List Traversal
  | .query => [c.query]
  | .step t key => (t.step key c).1.next
  | .field t key => [(t.field key c).1]
  | .withArguments t args => [(t.withArguments args c).1]
  | .items t => t.items
  | .lifted t => t.lifted.items

/-- What happens to the client. -/
def happenings (c : Client) : Use → History
  | .step t key | .field t key => c.asking (t.request? key c)
  | .withArguments t args => [.fingerprint t.path args (c.batcher.fingerprint t.path args).1]
  | _ => []

/-- The client afterwards. -/
def after (c : Client) : Use → Client
  | .step t key => (t.step key c).2
  | .field t key => (t.field key c).2
  | .withArguments t args => (t.withArguments args c).2
  | _ => c

/-- The use goes on behind a key that leads to a leaf.  A field does so unless it goes to an item,
and a step if it takes the key for an operation on a list. -/
def PassesLeaf (c : Client) : Use → Prop
  | .field t key => ¬t.SelectsItem key ∧ t.leadsToLeaf key c = true
  | .step t key => t.isList = true ∧ ¬t.SelectsItem key ∧ t.leadsToLeaf key c = true
  | _ => False

instance (c : Client) (use : Use) : Decidable (use.PassesLeaf c) := by
  cases use <;> unfold PassesLeaf <;> infer_instance

variable {use : Use} {c c' : Client} {path : Path} {added changed : Bool} {args : Dict Json}

theorem passesLeaf_congr (hschema : c.schema = c'.schema) (hmarker : c.marker = c'.marker)
    (use : Use) : use.PassesLeaf c ↔ use.PassesLeaf c' := by
  cases use with
  | step t key => rw [PassesLeaf, PassesLeaf, t.leadsToLeaf_congr hschema hmarker]
  | field t key => rw [PassesLeaf, PassesLeaf, t.leadsToLeaf_congr hschema hmarker]
  | _ => rfl

/-- What a use asks for it asks for by its key, from its traversal. -/
theorem exists_of_register (h : .register path added ∈ use.happenings c) :
    ∃ t ∈ use.of?, ∃ key ∈ use.key?, t.request? key c = some path := by
  have asked {t : Traversal} {key : String}
      (h : .register path added ∈ c.asking (t.request? key c)) : t.request? key c = some path := by
    obtain ⟨other, hother, heq⟩ := List.mem_map.1 h
    cases heq
    exact Option.mem_toList.1 hother
  cases use with
  | step t key => exact ⟨t, rfl, key, rfl, asked h⟩
  | field t key => exact ⟨t, rfl, key, rfl, asked h⟩
  | withArguments t args => cases List.mem_singleton.1 h
  | _ => cases h

theorem exists_of_fingerprint (h : .fingerprint path args changed ∈ use.happenings c) :
    ∃ t ∈ use.of?, t.path = path := by
  have asked {request : Option Path}
      (h : .fingerprint path args changed ∈ c.asking request) : False := by
    obtain ⟨other, -, heq⟩ := List.mem_map.1 h
    cases heq
  cases use with
  | step t key => exact (asked h).elim
  | field t key => exact (asked h).elim
  | withArguments t args =>
    cases List.mem_singleton.1 h
    exact ⟨t, rfl, rfl⟩
  | _ => cases h

end Use

/-- The uses that were made of a client and of its traversals, what has happened to it, and the
traversals that it has handed out; the latest of each first. -/
inductive Journal (c₀ : Client) : List Use → History → List Traversal → Client → Prop
  /-- Nothing was done. -/
  | start : Journal c₀ [] [] [] c₀
  /-- A use of the client, or of a traversal that was handed out. -/
  | use {uses : List Use} {history : History} {held : List Traversal} {c : Client}
      (journal : Journal c₀ uses history held c) (use : Use) (hof : ∀ t ∈ use.of?, t ∈ held) :
      Journal c₀ (use :: uses) (use.happenings c ++ history) (use.gives c ++ held) (use.after c)
  /-- The batcher does something else. -/
  | batcher {uses : List Use} {history : History} {held : List Traversal} {c : Client}
      {happening : Happening} {b : Batcher} (journal : Journal c₀ uses history held c)
      (step : Batcher.Step history.guards c.batcher happening b)
      (hother : happening.ofTraversal = false) :
      Journal c₀ uses (happening :: history) held { c with batcher := b }

/-- A traversal that was handed out is used. -/
theorem Journal.useOf {c₀ c : Client} {uses : List Use} {history : History}
    {held : List Traversal} {t : Traversal} (journal : Journal c₀ uses history held c) (use : Use)
    (hof : use.of? = some t) (ht : t ∈ held) :
    Journal c₀ (use :: uses) (use.happenings c ++ history) (use.gives c ++ held) (use.after c) :=
  journal.use use fun _ hother => Option.some.inj (hof.symm.trans hother) ▸ ht

/-- A path goes on from its parent, or stops there. -/
theorem Path.exists_fields_eq_parent_append (path : Path) :
    ∃ more, path.fields = path.parent.fields ++ more := by
  rcases List.eq_nil_or_concat' path.steps with hsteps | ⟨steps, step, hsteps⟩
  · refine ⟨[], ?_⟩
    rw [fields, fields, parent, hsteps]
    rfl
  · refine ⟨step.name?.toList, ?_⟩
    rw [fields, fields, parent, hsteps, List.dropLast_concat, List.filterMap_append]
    cases hname : step.name? <;> simp [hname]

/-- A course keeps the uses to itself. -/
theorem Course.iff_journal {config : ClientConfig} {history : History} {held : List Traversal}
    {c : Client} :
    Course config history held c ↔ ∃ uses, Journal (Client.new config) uses history held c := by
  constructor
  · intro course
    induction course with
    | start => exact ⟨[], .start⟩
    | query _ ih =>
      obtain ⟨uses, journal⟩ := ih
      exact ⟨.query :: uses, journal.use .query nofun⟩
    | @step _ _ _ t _ ht key ih =>
      obtain ⟨uses, journal⟩ := ih
      exact ⟨_, journal.useOf (.step t key) rfl ht⟩
    | @field _ _ _ t _ ht key ih =>
      obtain ⟨uses, journal⟩ := ih
      exact ⟨_, journal.useOf (.field t key) rfl ht⟩
    | @withArguments _ _ _ t _ ht args ih =>
      obtain ⟨uses, journal⟩ := ih
      exact ⟨_, journal.useOf (.withArguments t args) rfl ht⟩
    | @items _ _ _ t _ ht ih =>
      obtain ⟨uses, journal⟩ := ih
      exact ⟨_, journal.useOf (.items t) rfl ht⟩
    | @lifted _ _ _ t _ ht ih =>
      obtain ⟨uses, journal⟩ := ih
      exact ⟨_, journal.useOf (.lifted t) rfl ht⟩
    | batcher _ step hother ih =>
      obtain ⟨uses, journal⟩ := ih
      exact ⟨uses, journal.batcher step hother⟩
  · rintro ⟨uses, journal⟩
    induction journal with
    | start => exact .start
    | batcher _ step hother ih => exact ih.batcher step hother
    | use _ use hof ih =>
      cases use with
      | query => exact ih.query
      | step t key => exact ih.step (hof t rfl) key
      | field t key => exact ih.field (hof t rfl) key
      | withArguments t args => exact ih.withArguments (hof t rfl) args
      | items t => exact ih.items (hof t rfl)
      | lifted t => exact ih.lifted (hof t rfl)

namespace Journal

variable {c₀ c : Client} {uses : List Use} {history : History} {held : List Traversal}

/-- Schema and marker stay. -/
theorem kept (journal : Journal c₀ uses history held c) :
    c.schema = c₀.schema ∧ c.marker = c₀.marker := by
  induction journal with
  | start => exact ⟨rfl, rfl⟩
  | batcher _ _ _ ih => exact ih
  | @use _ _ _ c _ use _ ih =>
    have same {b : Client} (h : ∃ batcher, b = { c with batcher := batcher }) :
        b.schema = c₀.schema ∧ b.marker = c₀.marker := by
      obtain ⟨batcher, rfl⟩ := h
      exact ih
    cases use with
    | step t key => exact same (t.step_client key c)
    | field t key => exact same (t.field_client key c)
    | withArguments t args => exact ih
    | _ => exact ih

/-! ### Where traversals stand -/

/-- A property of paths that is lost on the way to a leaf and nowhere else. -/
structure LostAtLeaves (c : Client) (P : Path → Prop) : Prop where
  root : P .root
  withArguments : ∀ {path : Path} (args : Dict Json), P path → P (path.withArguments args)
  parent : ∀ {path : Path}, P path → P path.parent
  withField_iff : ∀ {t : Traversal} {key : String}, P t.path →
    (P (t.path.withField key) ↔ t.leadsToLeaf key c = false)

theorem LostAtLeaves.congr {P : Path → Prop} (hP : LostAtLeaves c₀ P)
    (hschema : c.schema = c₀.schema) (hmarker : c.marker = c₀.marker) : LostAtLeaves c P where
  root := hP.root
  withArguments := hP.withArguments
  parent := hP.parent
  withField_iff {t key} hpath := by
    rw [t.leadsToLeaf_congr hschema hmarker]
    exact hP.withField_iff hpath

/-- One use hands out traversals with the property exactly if it passes no leaf. -/
theorem LostAtLeaves.gives_iff {P : Path → Prop} (hP : LostAtLeaves c P) (use : Use)
    (hof : ∀ t ∈ use.of?, P t.path) :
    (∀ t ∈ use.gives c, P t.path) ↔ ¬use.PassesLeaf c := by
  have hstays {ts : List Traversal} {path : Path} (hpath : P path)
      (hts : ∀ t ∈ ts, t.path = path) : (∀ t ∈ ts, P t.path) ↔ ¬False :=
    iff_of_true (fun t ht => hts t ht ▸ hpath) not_false
  cases use with
  | query => exact hstays hP.root fun t ht => List.mem_singleton.1 ht ▸ rfl
  | step t key =>
    -- a step hands out one traversal at most, and only its path matters
    have hpath := hof t rfl
    have hnext : (∀ next ∈ (t.step key c).1.next, P next.path)
        ↔ ∀ path ∈ (t.step key c).1.next.map Traversal.path, P path := List.forall_mem_map.symm
    show (∀ next ∈ (t.step key c).1.next, P next.path)
      ↔ ¬(t.isList = true ∧ ¬t.SelectsItem key ∧ t.leadsToLeaf key c = true)
    rw [hnext, t.map_path_next]
    split
    · next hitem =>
      exact iff_of_true (List.forall_mem_singleton.2 hpath) fun h => h.2.1 hitem
    · split
      · -- a leaf is handed out as its value, not as a traversal
        next hitem hleaf =>
        refine iff_of_true (List.forall_mem_nil _) fun h => ?_
        exact Bool.false_ne_true (hleaf.1.symm.trans h.1)
      · next hitem hleaf =>
        rw [List.forall_mem_singleton, hP.withField_iff hpath, ← Bool.not_eq_true]
        refine not_congr ⟨fun h => ⟨?_, hitem, h⟩, fun h => h.2.2⟩
        exact Bool.not_eq_false _ |>.mp fun hlist => hleaf ⟨hlist, h⟩
  | field t key =>
    have hpath := hof t rfl
    show (∀ next ∈ [(t.field key c).1], P next.path)
      ↔ ¬(¬t.SelectsItem key ∧ t.leadsToLeaf key c = true)
    rw [List.forall_mem_singleton, t.path_field_eq]
    split
    · next hitem => exact iff_of_true hpath fun h => h.1 hitem
    · next hitem =>
      rw [hP.withField_iff hpath, ← Bool.not_eq_true]
      exact not_congr (and_iff_right hitem).symm
  | withArguments t args =>
    exact hstays (hP.withArguments args (hof t rfl)) fun t ht => List.mem_singleton.1 ht ▸ rfl
  | items t => exact hstays (hof t rfl) fun next hnext => Traversal.path_of_mem_items hnext
  | lifted t =>
    exact hstays (hP.parent (hof t rfl)) fun next hnext => Traversal.path_of_mem_items hnext

/-- **The traversals that were handed out have the property exactly if no use passed a leaf.** -/
theorem held_iff {P : Path → Prop} (hP : LostAtLeaves c₀ P)
    (journal : Journal c₀ uses history held c) :
    (∀ t ∈ held, P t.path) ↔ ∀ use ∈ uses, ¬use.PassesLeaf c₀ := by
  induction journal with
  | start => exact iff_of_true nofun nofun
  | batcher _ _ _ ih => exact ih
  | @use uses _ held c journal use hof ih =>
    obtain ⟨hschema, hmarker⟩ := journal.kept
    rw [List.forall_mem_append, List.forall_mem_cons, ih, and_congr_left_iff]
    -- as long as none passed a leaf, the traversal that is used has the property itself
    intro hpasses
    rw [← use.passesLeaf_congr hschema hmarker]
    exact (hP.congr hschema hmarker).gives_iff use fun t ht => ih.2 hpasses t (hof t ht)

/-! ### Where requests come from -/

/-- What comes from traversals came of a use, at a client of the same schema and marker. -/
theorem exists_use (journal : Journal c₀ uses history held c) {happening : Happening}
    (h : happening ∈ history) (hof : happening.ofTraversal = true) :
    ∃ use ∈ uses, (∀ t ∈ use.of?, t ∈ held) ∧ ∃ c : Client,
      (c.schema = c₀.schema ∧ c.marker = c₀.marker) ∧ happening ∈ use.happenings c := by
  induction journal with
  | start => cases h
  | batcher _ _ hother ih =>
    -- what the batcher does of itself comes from no traversal
    refine ih (List.mem_of_ne_of_mem ?_ h)
    rintro rfl
    exact Bool.false_ne_true (hother.symm.trans hof)
  | use journal use hheld ih =>
    rcases List.mem_append.1 h with h | h
    · exact ⟨use, List.mem_cons_self, fun t ht => List.mem_append_right _ (hheld t ht), _,
        journal.kept, h⟩
    · obtain ⟨use', huse, hheld, hclient⟩ := ih h
      exact ⟨use', List.mem_cons_of_mem _ huse, fun t ht => List.mem_append_right _ (hheld t ht),
        hclient⟩

/-- **Whatever was asked for was asked for by a key, from a traversal that was handed out.** -/
theorem exists_of_register (journal : Journal c₀ uses history held c) {path : Path} {added : Bool}
    (h : .register path added ∈ history) :
    ∃ t ∈ held, ∃ use ∈ uses, ∃ key ∈ use.key?, t.request? key c₀ = some path := by
  obtain ⟨use, huse, hheld, c, ⟨hschema, hmarker⟩, hmem⟩ := journal.exists_use h rfl
  obtain ⟨t, ht, key, hkey, hrequest⟩ := use.exists_of_register hmem
  rw [t.request?_congr hschema hmarker] at hrequest
  exact ⟨t, hheld t ht, use, huse, key, hkey, hrequest⟩

/-- Arguments are recorded at the path of a traversal that was handed out. -/
theorem exists_of_fingerprint (journal : Journal c₀ uses history held c) {path : Path}
    {args : Dict Json} {changed : Bool} (h : .fingerprint path args changed ∈ history) :
    ∃ t ∈ held, t.path = path := by
  obtain ⟨use, -, hheld, c, -, hmem⟩ := journal.exists_use h rfl
  obtain ⟨t, ht, hpath⟩ := use.exists_of_fingerprint hmem
  exact ⟨t, hheld t ht, hpath⟩

/-! ### What is sent for -/

/-- What has happened to the batcher. -/
theorem later (journal : Journal c₀ uses history held c) :
    Batcher.Later [] c₀.batcher history c.batcher := by
  have next {history : History} {b b' : Batcher} {happening : Happening}
      (later : Batcher.Later [] c₀.batcher history b)
      (step : Batcher.Step history.guards b happening b') :
      Batcher.Later [] c₀.batcher (happening :: history) b' :=
    later.next (by rwa [List.append_nil])
  have asked {history : History} {c : Client}
      (later : Batcher.Later [] c₀.batcher history c.batcher) (request : Option Path) :
      Batcher.Later [] c₀.batcher (c.asking request ++ history)
        (c.ask request.toList).batcher := by
    cases request with
    | none => exact later
    | some path => exact next later (.register path)
  induction journal with
  | start => exact .now
  | batcher _ step _ ih => exact next ih step
  | @use _ _ _ c _ use _ ih =>
    cases use with
    | step t key =>
      show Batcher.Later _ _ _ (t.step key c).2.batcher
      rw [t.step_snd key c]
      exact asked ih _
    | field t key =>
      show Batcher.Later _ _ _ (t.field key c).2.batcher
      rw [t.field_snd key c]
      exact asked ih _
    | withArguments t args => exact next ih (.fingerprint t.path args)
    | _ => exact ih

/-- **What was sent for was asked for**, if it did not wait from the beginning. -/
theorem exists_of_call (journal : Journal c₀ uses history held c) {call : Flight}
    (hcall : call ∈ history.calls) {path : Path} (hpath : path ∈ call.paths) :
    path ∈ c₀.pendingPaths ∨ .register path true ∈ history :=
  journal.later.exists_of_call hcall hpath

end Journal

end GraphWalk
