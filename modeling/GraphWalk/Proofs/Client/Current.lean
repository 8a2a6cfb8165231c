import GraphWalk.Proofs.Batch.Evicted
import GraphWalk.Proofs.Batch.Fingerprints
import GraphWalk.Proofs.Client.Course

/-!
# Requests with the latest arguments

A traversal gives the arguments that were given to it, and it can be kept while others
are given at the same path.  What is asked for through it then waits with arguments that
are no longer the latest, and shuts out a request with the latest ones, since both have
one key.  This is the only way: a path that waits gives the latest arguments exactly when
it gave them as it was asked for, and that it does when the traversal does.

## Main definitions

* `History.Records` — arguments were seen under every key of the arguments that a path gives.

## Main results

* `Course.records` — whatever a traversal gives was seen.
* `Course.latest_arguments` — **what waits gives the latest arguments when it was asked for with
  them.**
-/

namespace GraphWalk

open Batcher (itemPath numbered fiveName)

variable {config : ClientConfig} {history later before : History} {held : List Traversal}
  {c : Client} {t next : Traversal} {path p : Path} {happening : Happening} {key name : String}
  {args : Dict Json}

/-! ### What a traversal gives was seen -/

/-- Arguments were seen under every key of the arguments that the path gives. -/
def History.Records (history : History) (path : Path) : Prop :=
  ∀ front args, path.Gives front args → (history.argumentsAt? front.key).isSome = true

namespace History

theorem records_root (history : History) : history.Records .root :=
  fun _ _ h => absurd h Path.not_gives_root

theorem Records.of_gives (h : history.Records path)
    (hgives : ∀ front args, p.Gives front args → path.Gives front args) : history.Records p :=
  fun front args hp => h front args (hgives front args hp)

theorem Records.withField (h : history.Records path) (name : String) :
    history.Records (path.withField name) :=
  h.of_gives fun _ _ => Path.gives_withField_iff.1

/-- Where a step leads nothing else is given. -/
theorem Records.along (h : history.Records path) (hpath : p = path ∨ p = path.withField name) :
    history.Records p := by
  rcases hpath with rfl | rfl
  · exact h
  · exact h.withField name

theorem Records.parent (h : history.Records path) : history.Records path.parent :=
  h.of_gives fun _ _ => Path.Gives.of_parent

/-- What was seen is remembered until a teardown. -/
theorem Records.cons (h : history.Records path) (hlive : happening ≠ .dispose) :
    Records (happening :: history) path := by
  intro front args hgives
  have hseen := h front args hgives
  rw [argumentsAt?_cons]
  cases happening with
  | fingerprint other given changed =>
    rw [Happening.seenAt]
    split
    · rfl
    · exact hseen
  | dispose => exact absurd rfl hlive
  | _ => exact hseen

/-- The arguments that are given are seen. -/
theorem Records.withArguments (h : history.Records path) (args : Dict Json) (changed : Bool) :
    Records (.fingerprint path args changed :: history) (path.withArguments args) := by
  intro front given hgives
  rcases Path.gives_withArguments_iff.1 hgives with hgives | ⟨rfl, -⟩
  · exact h.cons Happening.noConfusion front given hgives
  · rw [argumentsAt?_cons, Happening.seenAt, if_pos rfl]
    rfl

end History

/-- A request changes nothing about the arguments that were seen. -/
theorem argumentsAt?_asking (c : Client) (request : Option Path) (history : History)
    (key : String) : History.argumentsAt? (c.asking request ++ history) key
      = history.argumentsAt? key := by
  cases request <;> rfl

namespace Course

/-- **Whatever a traversal gives was seen.** -/
theorem records (course : Course config history held c) (hlive : .dispose ∉ history) :
    ∀ t ∈ held, history.Records t.path := by
  -- a request is no teardown, and leaves what was seen as it was
  have asked {history : History} {c : Client} {request : Option Path} {path : Path}
      (h : history.Records path) : History.Records (c.asking request ++ history) path := by
    intro front args hgives
    rw [argumentsAt?_asking]
    exact h front args hgives
  have live {more history : History} (h : .dispose ∉ more ++ history) : .dispose ∉ history :=
    fun hmem => h (List.mem_append_right _ hmem)
  induction course with
  | start => exact nofun
  | query _ ih =>
    intro t ht
    rcases List.mem_cons.1 ht with rfl | ht
    · exact History.records_root _
    · exact ih hlive t ht
  | @step _ _ c t _ ht key ih =>
    intro next hnext
    refine asked ?_
    rcases List.mem_append.1 hnext with hnext | hnext
    · exact (ih (live hlive) t ht).along (Traversal.path_of_mem_next hnext)
    · exact ih (live hlive) next hnext
  | @field _ _ c t _ ht key ih =>
    intro next hnext
    refine asked ?_
    rcases List.mem_cons.1 hnext with rfl | hnext
    · exact (ih (live hlive) t ht).along (t.path_field key c)
    · exact ih (live hlive) next hnext
  | @withArguments _ _ _ t _ ht args ih =>
    have hbefore := ih (List.not_mem_of_not_mem_cons hlive)
    intro next hnext
    rcases List.mem_cons.1 hnext with rfl | hnext
    · exact (hbefore t ht).withArguments args _
    · exact (hbefore next hnext).cons Happening.noConfusion
  | @items _ _ _ t _ ht ih =>
    intro next hnext
    rcases List.mem_append.1 hnext with hnext | hnext
    · rw [Traversal.path_of_mem_items hnext]
      exact ih hlive t ht
    · exact ih hlive next hnext
  | @lifted _ _ _ t _ ht ih =>
    intro next hnext
    rcases List.mem_append.1 hnext with hnext | hnext
    · rw [Traversal.path_of_mem_items hnext]
      exact (ih hlive t ht).parent
    · exact ih hlive next hnext
  | batcher _ _ _ ih =>
    intro t ht
    refine (ih (List.not_mem_of_not_mem_cons hlive) t ht).cons ?_
    rintro rfl
    exact hlive List.mem_cons_self

/-- Whatever a path gave as it was asked for was seen. -/
theorem records_of_register {added : Bool}
    (course : Course config (later ++ .register path added :: before) held c)
    (hlive : .dispose ∉ later ++ .register path added :: before) : before.Records path := by
  obtain ⟨held, c, t, key, hbefore, ht, hrequest⟩ := course.exists_request
  obtain ⟨name, rfl⟩ := Traversal.exists_of_request? hrequest
  have hnone : .dispose ∉ before := fun hmem =>
    hlive (List.mem_append_right _ (List.mem_cons_of_mem _ hmem))
  exact (hbefore.records hnone t ht).withField name

/-- What a step asks for is current when the traversal is. -/
theorem current_request_iff (h : t.request? key c = some path) :
    history.Current path ↔ history.Current t.path := by
  obtain ⟨name, rfl⟩ := Traversal.exists_of_request? h
  simp only [History.Current, Path.gives_withField_iff]

/-- **What waits gives the latest arguments when it was asked for with them.**

Without a teardown a path that waits was asked for at some time by a step from a traversal that had
been handed out, and under the keys of the arguments that it gives the same is remembered now as
then.  So it is current if and only if the traversal was.  Hence when nothing is asked for through a
traversal whose arguments have been replaced, every path that waits gives the arguments that are
remembered, every call is made with the arguments that are the latest then, and whatever is refused
because of its key gives no other arguments than the path that waits in its place. -/
theorem latest_arguments (course : Course config history held c) (hlive : .dispose ∉ history) :
    (∀ path ∈ c.pendingPaths, ∃ (later before : History) (held' : List Traversal) (c' : Client)
        (t : Traversal) (key : String),
      history = later ++ .register path true :: before ∧
      Course config before held' c' ∧ t ∈ held' ∧ t.request? key c' = some path ∧
      (∀ front args, path.Gives front args →
        c.batcher.pending.fingerprintOf? front.key = before.argumentsAt? front.key) ∧
      (history.Current path ↔ before.Current t.path)) ∧
    (history.AsksCurrent →
      (∀ path ∈ c.pendingPaths, ∀ front args, path.Gives front args →
        c.batcher.pending.fingerprintOf? front.key = some (Json.text (.object args))) ∧
      (∀ (later before : History) (happening : Happening) (call : Flight),
        history = later ++ happening :: before → happening.call? = some call →
          ∀ path ∈ call.paths, before.Current path) ∧
      ∀ (later before : History) (path : Path), history = later ++ .register path false :: before →
        ∃ b, Batcher.Run before b ∧ ∃ waiting ∈ b.pending.paths, waiting.key = path.key ∧
          ∀ front args front' args', path.Gives front args → waiting.Gives front' args' →
            front.key = front'.key → Json.text (.object args) = Json.text (.object args')) := by
  have run : Batcher.Run history c.batcher := course.batcherRun
  refine ⟨fun path hpath => ?_, fun hasks => ⟨?_, ?_, ?_⟩⟩
  · obtain ⟨later, before, rfl, hkept⟩ := run.exists_registered hpath
    obtain ⟨held', c', t, key, hbefore, ht, hrequest⟩ := course.exists_request
    have hsame : ∀ front args, path.Gives front args →
        History.argumentsAt? (later ++ .register path true :: before) front.key
          = before.argumentsAt? front.key := by
      intro front args hgives
      have hrecorded := course.records_of_register hlive front args hgives
      obtain ⟨seen, hseen⟩ := Option.isSome_iff_exists.1 hrecorded
      rw [hkept front args seen hgives hseen, hseen]
    refine ⟨later, before, held', c', t, key, rfl, hbefore, ht, hrequest, ?_, ?_⟩
    · intro front args hgives
      rw [run.fingerprintOf?_eq, hsame front args hgives]
    · rw [← current_request_iff hrequest]
      exact forall₂_congr fun front args => imp_congr_right fun hgives => by
        rw [hsame front args hgives]
  · intro path hpath front args hgives
    rw [run.fingerprintOf?_eq]
    exact run.current hasks hpath front args hgives
  · rintro later before happening call rfl hcall path hpath
    exact run.current_of_call hasks hcall hpath
  · rintro later before path rfl
    exact run.refused_for_same hasks

/-! ### Two traversals of one item -/

/-- The item with the number 5. -/
def fiveItem : Traversal := ⟨itemPath.withArguments (numbered 5), .null⟩

/-- The item with the number 6. -/
def sixItem : Traversal := ⟨itemPath.withArguments (numbered 6), .null⟩

/-- The name of the item with the number 6. -/
def sixName : Path := sixItem.path.withField "name"

/-- A client that was given the one number, then the other. -/
def bothGiven : Client :=
  { Client.new {} with
    batcher := (((Client.new {}).batcher.fingerprint itemPath (numbered 5)).2.fingerprint itemPath
      (numbered 6)).2 }

/-- The name was asked for through the later traversal. -/
def sixAsked : Client := (sixItem.step "$name" bothGiven).2

/-- The name was asked for through the earlier traversal. -/
def fiveAsked : Client := (fiveItem.step "$name" bothGiven).2

theorem bothGiven_course :
    Course {} [.fingerprint itemPath (numbered 6) true, .fingerprint itemPath (numbered 5) false]
      [sixItem, fiveItem, ⟨itemPath, .null⟩, ⟨.root, .empty⟩] bothGiven := by
  have hfield : Course {} [] [⟨itemPath, .null⟩, ⟨.root, .empty⟩] (Client.new {}) :=
    Course.start.query.field (t := ⟨.root, .empty⟩) List.mem_cons_self "item"
  have hfive : Course {} _ [fiveItem, ⟨itemPath, .null⟩, ⟨.root, .empty⟩] _ :=
    hfield.withArguments (t := ⟨itemPath, .null⟩) List.mem_cons_self (numbered 5)
  exact hfive.withArguments (t := ⟨itemPath, .null⟩) (List.mem_cons_of_mem _ List.mem_cons_self)
    (numbered 6)

/-- What is asked for through the later traversal waits with the latest number. -/
theorem latest_arguments_six :
    sixAsked.pendingPaths = [sixName] ∧
      sixAsked.batcher.pending.fingerprintOf? "item" = some (Json.text (.object (numbered 6))) := by
  have hasked := bothGiven_course.step (t := sixItem) List.mem_cons_self "$name"
  have hnumber : ∀ front args, sixName.Gives front args → front = itemPath ∧ numbered 6 = args := by
    intro front args hgives
    rw [sixName, Path.gives_withField_iff, sixItem, Path.gives_withArguments_iff] at hgives
    exact hgives.resolve_left Path.not_gives_ofFields
  have hcurrent : History.AsksCurrent [.register sixName true,
      .fingerprint itemPath (numbered 6) true, .fingerprint itemPath (numbered 5) false] := by
    refine .cons (.cons (.cons History.asksCurrent_nil ?_) ?_) ?_
    · rintro path added ⟨⟩
    · rintro path added ⟨⟩
    rintro path added heq front args hgives
    cases heq
    obtain ⟨rfl, rfl⟩ := hnumber front args hgives
    rfl
  have hpaths : sixAsked.pendingPaths = [sixName] := rfl
  obtain ⟨-, hlatest⟩ := latest_arguments hasked nofun
  refine ⟨hpaths, ?_⟩
  exact (hlatest hcurrent).1 sixName (hpaths ▸ List.mem_cons_self) itemPath (numbered 6)
    ⟨[.field "name"], rfl⟩

/-- What is asked for through the earlier traversal waits with the earlier number, and a request
with the latest one is refused. -/
theorem earlier_arguments_wait :
    fiveAsked.pendingPaths = [fiveName] ∧
      (sixItem.step "$name" fiveAsked).2.pendingPaths = [fiveName] ∧
      ¬∀ (config : ClientConfig) (history : History) (held : List Traversal) (c : Client),
        Course config history held c → .dispose ∉ history →
          ∀ path ∈ c.pendingPaths, ∀ front args, path.Gives front args →
            c.batcher.pending.fingerprintOf? front.key = some (Json.text (.object args)) := by
  refine ⟨rfl, rfl, fun hlatest => ?_⟩
  have hasked := bothGiven_course.step (t := fiveItem) (List.mem_cons_of_mem _ List.mem_cons_self)
    "$name"
  have hfive := hlatest _ _ _ _ hasked nofun fiveName List.mem_cons_self itemPath (numbered 5)
    ⟨[.field "name"], rfl⟩
  have hseen : fiveAsked.batcher.pending.fingerprintOf? itemPath.key
      = some (Json.text (.object (numbered 6))) := rfl
  have hdiffer : Json.text (.object (numbered 6)) ≠ Json.text (.object (numbered 5)) := by decide
  exact hdiffer (Option.some.inj (hseen.symm.trans hfive))

end Course

end GraphWalk
