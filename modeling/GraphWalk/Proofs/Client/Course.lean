import GraphWalk.Proofs.Client.Arguments
import GraphWalk.Proofs.Traversal.Asking
import GraphWalk.Session.Chain

/-!
# The course of a client

A client hands traversals out, and whoever holds one may use it at any time: once or
often, right away or after much else has happened.  A course is any sequence of such
uses, with anything that the batcher may do between them.  Requests and arguments come
to the batcher in no other way.

## Main definitions

* `Course` — what may happen to a client, and the traversals that it has handed out.
* `Query.Leads` — a query that keeps to the course of its client.

## Main results

* `Course.run` — a course is a run.
* `Course.exists_request` — whatever was asked for was asked for by a step from a traversal.
* `Query.leads_bind`, `Query.leads_mapM` — queries made one after the other keep to the course.
* `Traversal.leads_walk`, `Traversal.leads_map`, `Traversal.leads_apply` — walks, and queries for
  every item, keep to the course.
* `Chain.leads_eval` — **every chain of accesses does.**
-/

namespace GraphWalk

/-- The happening comes from a traversal. -/
def Happening.ofTraversal : Happening → Bool
  | .register _ _ => true
  | .fingerprint _ _ _ => true
  | _ => false

/-- What happens to a client that is asked for a path, if it is. -/
def Client.asking (c : Client) (request : Option Path) : History :=
  request.toList.map fun path => .register path (c.batcher.register path).1

/-- What may happen to a client, and the traversals that it has handed out.  Every traversal stays
with whoever holds it. -/
inductive Course (config : ClientConfig) : History → List Traversal → Client → Prop
  /-- The client is built. -/
  | start : Course config [] [] (Client.new config)
  /-- A traversal starts at the root. -/
  | query {history : History} {held : List Traversal} {c : Client}
      (course : Course config history held c) : Course config history (c.query :: held) c
  /-- A step by a key. -/
  | step {history : History} {held : List Traversal} {c : Client} {t : Traversal}
      (course : Course config history held c) (ht : t ∈ held) (key : String) :
      Course config (c.asking (t.request? key c) ++ history) ((t.step key c).1.next ++ held)
        (t.step key c).2
  /-- A field is followed. -/
  | field {history : History} {held : List Traversal} {c : Client} {t : Traversal}
      (course : Course config history held c) (ht : t ∈ held) (key : String) :
      Course config (c.asking (t.request? key c) ++ history) ((t.field key c).1 :: held)
        (t.field key c).2
  /-- Arguments are given. -/
  | withArguments {history : History} {held : List Traversal} {c : Client} {t : Traversal}
      (course : Course config history held c) (ht : t ∈ held) (args : Dict Json) :
      Course config
        (.fingerprint t.path args (c.batcher.fingerprint t.path args).1 :: history)
        ((t.withArguments args c).1 :: held) (t.withArguments args c).2
  /-- The items are gone through. -/
  | items {history : History} {held : List Traversal} {c : Client} {t : Traversal}
      (course : Course config history held c) (ht : t ∈ held) :
      Course config history (t.items ++ held) c
  /-- The items are gone through, the last key having named an operation. -/
  | lifted {history : History} {held : List Traversal} {c : Client} {t : Traversal}
      (course : Course config history held c) (ht : t ∈ held) :
      Course config history (t.lifted.items ++ held) c
  /-- The batcher does something else. -/
  | batcher {history : History} {held : List Traversal} {c : Client} {happening : Happening}
      {b : Batcher} (course : Course config history held c)
      (step : Batcher.Step history.guards c.batcher happening b)
      (hother : happening.ofTraversal = false) :
      Course config (happening :: history) held { c with batcher := b }

namespace Course

variable {config : ClientConfig} {history : History} {held : List Traversal} {c : Client}

/-- **A course is a run** of the client. -/
theorem run (course : Course config history held c) : Client.Run config history c := by
  have next {history : History} {c : Client} {happening : Happening} {b : Batcher}
      (run : Client.Run config history c)
      (step : Batcher.Step history.guards c.batcher happening b) :
      Client.Run config (happening :: history) { c with batcher := b } :=
    ⟨run.schema, run.marker, run.batcher.next (by rwa [List.append_nil])⟩
  have asked {history : History} {c : Client} (run : Client.Run config history c)
      (request : Option Path) :
      Client.Run config (c.asking request ++ history) (c.ask request.toList) := by
    cases request with
    | none => exact run
    | some path => exact next run (.register path)
  induction course with
  | start => exact ⟨rfl, rfl, .now⟩
  | query _ ih => exact ih
  | @step _ _ c t _ _ key ih =>
    rw [t.step_snd key c]
    exact asked ih _
  | @field _ _ c t _ _ key ih =>
    rw [t.field_snd key c]
    exact asked ih _
  | @withArguments _ _ _ t _ _ args ih => exact next ih (.fingerprint t.path args)
  | items _ _ ih => exact ih
  | lifted _ _ ih => exact ih
  | batcher _ step _ ih => exact next ih step

/-- The run of the batcher that a course is. -/
theorem batcherRun (course : Course config history held c) : Batcher.Run history c.batcher := by
  have run := course.run.batcher.run (.start rfl)
  rwa [List.append_nil] at run

/-- What was asked for was asked for by a request that was made last, or before. -/
theorem register_asking {request : Option Path} {later before : History} {path : Path}
    {added : Bool} (h : later ++ .register path added :: before = c.asking request ++ history) :
    (request = some path ∧ before = history) ∨
      ∃ earlier, earlier ++ .register path added :: before = history := by
  cases request with
  | none => exact .inr ⟨later, h⟩
  | some other =>
    rcases List.cons_eq_append_iff.1 h.symm with ⟨-, heq⟩ | ⟨earlier, -, heq⟩
    · cases heq
      exact .inl ⟨rfl, rfl⟩
    · exact .inr ⟨earlier, heq.symm⟩

theorem register_cons {happening : Happening}
    (hother : ∀ path added, happening ≠ .register path added)
    {later before : History} {path : Path} {added : Bool}
    (h : later ++ .register path added :: before = happening :: history) :
    ∃ earlier, earlier ++ .register path added :: before = history := by
  rcases List.cons_eq_append_iff.1 h.symm with ⟨-, heq⟩ | ⟨earlier, -, heq⟩
  · exact absurd (List.cons.inj heq).1.symm (hother path added)
  · exact ⟨earlier, heq.symm⟩

/-- **Whatever was asked for was asked for by a step from a traversal that had been handed out.** -/
theorem exists_request {later before : History} {path : Path} {added : Bool}
    (course : Course config (later ++ .register path added :: before) held c) :
    ∃ held c t key, Course config before held c ∧ t ∈ held ∧
      Traversal.request? t key c = some path := by
  generalize hcut : later ++ .register path added :: before = history at course
  induction course generalizing later with
  | start => exact absurd hcut (List.append_ne_nil_of_right_ne_nil _ (List.cons_ne_nil _ _))
  | query _ ih => exact ih hcut
  | step course ht key ih =>
    rcases register_asking hcut with ⟨hrequest, rfl⟩ | ⟨earlier, hearlier⟩
    · exact ⟨_, _, _, key, course, ht, hrequest⟩
    · exact ih hearlier
  | field course ht key ih =>
    rcases register_asking hcut with ⟨hrequest, rfl⟩ | ⟨earlier, hearlier⟩
    · exact ⟨_, _, _, key, course, ht, hrequest⟩
    · exact ih hearlier
  | withArguments _ _ _ ih =>
    obtain ⟨earlier, hearlier⟩ := register_cons (fun _ _ => Happening.noConfusion) hcut
    exact ih hearlier
  | items _ _ ih => exact ih hcut
  | lifted _ _ ih => exact ih hcut
  | batcher _ _ hother ih =>
    obtain ⟨earlier, hearlier⟩ := register_cons (fun _ _ heq => by rw [heq] at hother; cases hother)
      hcut
    exact ih hearlier

end Course

/-! ### Queries -/

namespace Query

variable {α β : Type} {needs : List Traversal}

/-- A query keeps to the course of its client.  It uses some traversals that were handed out and
those that it comes by, and in the end some are handed out that its result tells. -/
def Leads (q : Query α) (needs : List Traversal) (gives : α → List Traversal) : Prop :=
  ∀ config history held c, Course config history held c → needs ⊆ held →
    ∃ more after, Course config (more ++ history) (after ++ held) (q c).2 ∧
      gives (q c).1 ⊆ after ++ held

theorem leads_pure {gives : α → List Traversal} (a : α) (h : gives a ⊆ needs) :
    Leads (pure a) needs gives :=
  fun _ _ _ _ course hneeds => ⟨[], [], course, fun _ ht => hneeds (h ht)⟩

/-- Queries made one after the other. -/
theorem leads_bind {q : Query α} {f : α → Query β} {gives : α → List Traversal}
    {gives' : β → List Traversal} (hq : q.Leads needs gives)
    (hf : ∀ a, (f a).Leads (gives a ++ needs) gives') : (q >>= f).Leads needs gives' := by
  intro config history held c course hneeds
  obtain ⟨more, after, hcourse, hgives⟩ := hq _ _ _ _ course hneeds
  obtain ⟨more', after', hcourse', hgives'⟩ := hf (q c).1 _ _ _ _ hcourse
    (List.append_subset.2 ⟨hgives, fun _ ht => List.mem_append_right _ (hneeds ht)⟩)
  rw [← List.append_assoc, ← List.append_assoc] at hcourse'
  rw [← List.append_assoc] at hgives'
  exact ⟨more' ++ more, after' ++ after, hcourse', hgives'⟩

/-- A query may have more at hand than it needs, and tell less than it gives. -/
theorem Leads.weaken {q : Query α} {more : List Traversal} {gives gives' : α → List Traversal}
    (h : q.Leads needs gives) (hneeds : needs ⊆ more) (hgives : ∀ a, gives' a ⊆ gives a) :
    q.Leads more gives' := by
  intro config history held c course hmore
  obtain ⟨since, after, hcourse, hgiven⟩ := h _ _ _ _ course fun _ ht => hmore (hneeds ht)
  exact ⟨since, after, hcourse, fun _ ht => hgiven (hgives _ ht)⟩

/-- The result of a query looked at in another way. -/
theorem leads_map {q : Query α} (f : α → β) {gives : β → List Traversal}
    (h : q.Leads needs fun a => gives (f a)) : (f <$> q).Leads needs gives := h

/-- Queries of one kind made one after the other. -/
theorem leads_mapM {ι : Type} {f : ι → Query α} {gives : α → List Traversal} (is : List ι)
    (hf : ∀ i ∈ is, (f i).Leads needs gives) :
    (is.mapM f).Leads needs fun results => results.flatMap gives := by
  induction is with
  | nil => exact leads_pure [] (List.nil_subset _)
  | cons i is ih =>
    rw [List.mapM_cons]
    have hrest := ih fun j hj => hf j (List.mem_cons_of_mem _ hj)
    refine leads_bind (hf i List.mem_cons_self) fun a => ?_
    refine leads_bind (hrest.weaken (List.subset_append_right _ _) fun _ => List.Subset.refl _) ?_
    intro results
    refine leads_pure (a :: results) ?_
    rw [List.flatMap_cons]
    exact List.append_subset.2
      ⟨List.subset_append_of_subset_right _ (List.subset_append_left _ _),
        List.subset_append_left _ _⟩

end Query

namespace Traversal

variable {α : Type}

open Query

theorem leads_step (t : Traversal) (key : String) : (t.step key).Leads [t] Access.next :=
  fun _ _ _ _ course ht => ⟨_, _, course.step (ht List.mem_cons_self) key,
    fun _ hnext => List.mem_append_left _ hnext⟩

theorem leads_field (t : Traversal) (key : String) : (t.field key).Leads [t] fun next => [next] :=
  fun _ _ _ _ course ht => ⟨_, [_], course.field (ht List.mem_cons_self) key,
    fun _ hnext => List.mem_append_left _ hnext⟩

theorem leads_withArguments (t : Traversal) (args : Dict Json) :
    (t.withArguments args).Leads [t] fun next => [next] :=
  fun _ _ _ _ course ht => ⟨[_], [_], course.withArguments (ht List.mem_cons_self) args,
    fun _ hnext => List.mem_append_left _ hnext⟩

theorem leads_value (t : Traversal) (key : String) : (t.value key).Leads [t] fun _ => [] :=
  leads_bind (t.leads_step key) fun access => leads_pure access.value? (List.nil_subset _)

/-- A walk keeps to the course. -/
theorem leads_walk (t : Traversal) (keys : List String) : (t.walk keys).Leads [t] Access.next := by
  induction keys generalizing t with
  | nil => exact leads_pure (Access.branch t) (List.Subset.refl _)
  | cons key keys ih =>
    cases keys with
    | nil => exact t.leads_step key
    | cons next keys =>
      refine leads_bind (t.leads_field key) fun t' => ?_
      exact (ih t').weaken (List.subset_append_left _ _) fun _ => List.Subset.refl _

/-- Queries for the items that are gone through keep to the course. -/
theorem leads_of_items {t : Traversal} {items : List Traversal} {f : Traversal → Query α}
    {q : Query (Applied α)} {gives : α → List Traversal}
    (hitems : ∀ {config history held c}, Course config history held c → t ∈ held →
      Course config history (items ++ held) c)
    (heq : ∀ c, ((q c).1.toList, (q c).2) = items.mapM f c) (hf : ∀ t, (f t).Leads [t] gives) :
    q.Leads [t] fun results => results.toList.flatMap gives := by
  intro config history held c course ht
  have hall : (items.mapM f).Leads items fun results => results.flatMap gives :=
    leads_mapM items fun i hi =>
      (hf i).weaken (List.cons_subset.2 ⟨hi, List.nil_subset _⟩) fun _ => List.Subset.refl _
  obtain ⟨more, after, hcourse, hgives⟩ := hall _ _ _ _ (hitems course (ht List.mem_cons_self))
    (List.subset_append_left _ _)
  rw [← heq c, ← List.append_assoc] at hcourse
  rw [← heq c, ← List.append_assoc] at hgives
  exact ⟨more, after ++ items, hcourse, hgives⟩

/-- A query for every item keeps to the course. -/
theorem leads_map (t : Traversal) {f : Traversal → Query α} {gives : α → List Traversal}
    (hf : ∀ t, (f t).Leads [t] gives) :
    (t.map f).Leads [t] fun results => results.toList.flatMap gives :=
  leads_of_items (fun course ht => course.items ht) (t.map_eq f) hf

theorem leads_apply (t : Traversal) {f : Traversal → Query α} {gives : α → List Traversal}
    (hf : ∀ t, (f t).Leads [t] gives) :
    (t.apply f).Leads [t] fun results => results.toList.flatMap gives :=
  leads_of_items (fun course ht => course.lifted ht) (t.apply_eq f) hf

end Traversal

/-! ### Chains -/

namespace Chain

open Query

/-- The traversals that a chain saved. -/
def kept {α : Type} (result : α × Saved) : List Traversal := result.2.map Prod.snd

/-- What follows a step keeps to the course. -/
theorem leads_ofAccess (access : Access) {next : Traversal → Query (Answer × Saved)}
    (hnext : ∀ t, (next t).Leads [t] kept) :
    (Answer.ofAccess access next).Leads access.next kept := by
  cases access with
  | leaf value => exact leads_pure _ (List.nil_subset _)
  | branch t => exact leads_bind (hnext t) fun result => leads_pure _ (List.subset_append_left _ _)

theorem kept_ofApplied (results : Applied (Answer × Saved)) :
    kept (Answer.ofApplied results) = results.toList.flatMap kept := by
  cases results with
  | each results => exact List.map_flatMap
  | single result => exact (List.append_nil _).symm

theorem kept_ofAppliedList (results : Applied (Answer × Saved)) :
    kept (Answer.ofAppliedList results) = results.toList.flatMap kept := List.map_flatMap

mutual

/-- **Every chain of accesses keeps to the course**, and hands out what it saves. -/
theorem leads_eval : ∀ (chain : Chain) (t : Traversal), (chain.eval t).Leads [t] kept
  | .here, t => leads_pure _ (List.nil_subset _)
  | .field key next, t =>
    leads_bind (t.leads_field key) fun t' =>
      (leads_eval next t').weaken (List.subset_append_left _ _) fun _ => List.Subset.refl _
  | .arguments args next, t =>
    leads_bind (t.leads_withArguments args) fun t' =>
      (leads_eval next t').weaken (List.subset_append_left _ _) fun _ => List.Subset.refl _
  | .save name next, t =>
    leads_bind (leads_eval next t) fun result => leads_pure _ (by
      intro t' ht'
      rcases List.mem_cons.1 ht' with rfl | ht'
      · exact List.mem_append_right _ (List.mem_singleton.2 rfl)
      · exact List.mem_append_left _ ht')
  | .step key next, t =>
    leads_bind (t.leads_step key) fun access =>
      (leads_ofAccess access (leads_eval next)).weaken (List.subset_append_left _ _)
        fun _ => List.Subset.refl _
  | .walk keys next, t =>
    leads_bind (t.leads_walk keys) fun access =>
      (leads_ofAccess access (leads_eval next)).weaken (List.subset_append_left _ _)
        fun _ => List.Subset.refl _
  | .values keys, t =>
    leads_bind (leads_mapM keys fun key _ => t.leads_value key) fun _ =>
      leads_pure _ (List.nil_subset _)
  | .value key, t =>
    leads_bind (t.leads_value key) fun _ => leads_pure _ (List.nil_subset _)
  | .stepValue key, t =>
    leads_bind (t.leads_step key) fun _ => leads_pure _ (List.nil_subset _)
  | .map inner, t =>
    leads_bind (t.leads_map (leads_eval inner)) fun results => leads_pure _ (by
      rw [kept_ofApplied]
      exact List.subset_append_left _ _)
  | .apply inner, t =>
    leads_bind (t.leads_apply (leads_eval inner)) fun results => leads_pure _ (by
      rw [kept_ofApplied]
      exact List.subset_append_left _ _)
  | .mapList inner, t =>
    leads_bind (t.leads_map (leads_eval inner)) fun results => leads_pure _ (by
      rw [kept_ofAppliedList]
      exact List.subset_append_left _ _)
  | .applyList inner, t =>
    leads_bind (t.leads_apply (leads_eval inner)) fun results => leads_pure _ (by
      rw [kept_ofAppliedList]
      exact List.subset_append_left _ _)
  | .all chains, t =>
    leads_bind (leads_evalAll chains t) fun results => leads_pure _ (List.subset_append_left _ _)
  | .shown, t => leads_pure _ (List.nil_subset _)

theorem leads_evalAll : ∀ (chains : List Chain) (t : Traversal),
    (Chain.evalAll chains t).Leads [t] kept
  | [], t => leads_pure _ (List.nil_subset _)
  | chain :: chains, t =>
    leads_bind (leads_eval chain t) fun result =>
      leads_bind ((leads_evalAll chains t).weaken (List.subset_append_right _ _)
        fun _ => List.Subset.refl _) fun results => leads_pure _ (by
          rw [kept, List.map_append]
          exact List.append_subset.2
            ⟨List.subset_append_of_subset_right _ (List.subset_append_left _ _),
              List.subset_append_left _ _⟩)

end

end Chain

end GraphWalk
