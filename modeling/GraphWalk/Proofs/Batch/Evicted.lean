import GraphWalk.Proofs.Batch.Later
import GraphWalk.Proofs.Json.Arrivals

/-!
# After an argument change

When the arguments at a path change, what is known at and below its fields is evicted.
Nothing comes back there but with an answer that has something there.  It need not be an
answer to the new arguments: a batch that was on its way at the change is merged as any
other, since only a teardown makes strangers of the batches in flight.

## Main results

* `Batcher.Step.lacks` — what is lacking after a step.
* `Batcher.evicted_until_answered` — **when something comes back after an argument change.**
* `Batcher.old_answer_returns` — an answer to the old arguments can bring it back.
-/

namespace GraphWalk

namespace Batcher

open Json

variable {guards : Nat} {history since : History} {b b' : Batcher} {happening : Happening}
  {marker : Option Char} {fields : List String} {path : Path} {args : Dict Json}

/-- **What is lacking after a step.**  Nothing comes to where there is nothing but with an answer
that has something there. -/
theorem Step.lacks (step : Step guards b happening b') (h : b.state.value.Lacks marker fields)
    (hanswer : ∀ flight response, happening = .complete flight (.ok response) (.ok true) →
      response.Ordered ∧ (b.merger.stored response).Lacks marker fields) :
    b'.state.value.Lacks marker fields := by
  rw [step.state_eq]
  cases happening with
  | fingerprint path args changed =>
    cases changed with
    | false => exact h
    | true => exact State.lacks_evicted_of_lacks h b.merger.marker path.fields
  | complete flight outcome result =>
    rcases outcome with _ | response
    · exact h
    · rcases result with _ | _ | _
      · exact h
      · exact h
      · obtain ⟨hordered, hlacks⟩ := hanswer flight response rfl
        exact State.lacks_absorb hordered h hlacks
  | dispose => exact lacks_empty
  | _ => exact h

/-- What was lacking is lacking until an answer comes that has something there. -/
theorem Later.exists_answer (later : Later history b since b')
    (hordered : ∀ flight response result,
      .complete flight (.ok response) result ∈ since → response.Ordered)
    (h : b.state.value.Lacks marker fields) (hback : ¬b'.state.value.Lacks marker fields) :
    ∃ flight response, .complete flight (.ok response) (.ok true) ∈ since ∧
      ¬(b.merger.stored response).Lacks marker fields := by
  induction later with
  | now => exact absurd h hback
  | @next since b₁ b₂ happening later step ih =>
    by_cases hbefore : b₁.state.value.Lacks marker fields
    · -- the last step brought it, and only an answer brings anything
      by_contra hnone
      refine hback (step.lacks hbefore ?_)
      rintro flight response rfl
      refine ⟨hordered flight response _ List.mem_cons_self, ?_⟩
      by_contra hthere
      rw [later.merger_eq] at hthere
      exact hnone ⟨flight, response, List.mem_cons_self, hthere⟩
    · obtain ⟨flight, response, hmem, hthere⟩ := ih
        (fun flight response result hmem =>
          hordered flight response result (List.mem_cons_of_mem _ hmem)) hbefore
      exact ⟨flight, response, List.mem_cons_of_mem _ hmem, hthere⟩

/-- **When something comes back after an argument change.**

Suppose that no answer to a batch that was called before the change has anything at or below the
path's fields.  Then there is nothing until the answer to a batch comes that was called after the
change.  The condition is on the answers: one that has nothing there leaves everything there as it
is, or takes it away, and one that has something brings it, whether its batch was called before the
change or after it. -/
theorem evicted_until_answered (run : Run history b) (hchanged : (b.fingerprint path args).1 = true)
    (later : Later (.fingerprint path args true :: history) (b.fingerprint path args).2 since b')
    (hordered : ∀ flight response result,
      .complete flight (.ok response) result ∈ since → response.Ordered)
    (hold : ∀ flight response, .complete flight (.ok response) (.ok true) ∈ since →
      history.hasCalled flight = true →
      (b.merger.stored response).Lacks b.merger.marker path.fields) :
    (¬b'.state.value.Lacks b.merger.marker path.fields →
      ∃ flight response, .complete flight (.ok response) (.ok true) ∈ since ∧
        history.hasCalled flight = false ∧
        ¬(b.merger.stored response).Lacks b.merger.marker path.fields) ∧
    ∀ flight ∈ b'.flights, ∀ response, response.Ordered →
      ((b.merger.stored response).Lacks b.merger.marker path.fields →
        ∀ place, Place.Under b.merger.marker path.fields place →
          (b'.complete flight (.ok response)).2.state.value.place? place
              = b'.state.value.place? place ∨
            (b'.complete flight (.ok response)).2.state.value.place? place = none) ∧
      (flight.epoch = b'.epoch →
        ¬(b.merger.stored response).Lacks b.merger.marker path.fields →
        ¬(b'.complete flight (.ok response)).2.state.value.Lacks b.merger.marker path.fields) := by
  have hmerger : (b.fingerprint path args).2.merger = b.merger :=
    (Step.fingerprint path args : Step 0 b _ _).merger_eq
  have hlater : b'.merger = b.merger := later.merger_eq.trans hmerger
  constructor
  · intro hback
    have hevicted : (b.fingerprint path args).2.state.value.Lacks b.merger.marker path.fields := by
      rw [state_fingerprint_of_changed hchanged]
      exact State.lacks_evicted b.merger.marker path.fields b.state.value
    obtain ⟨flight, response, hmem, hthere⟩ := later.exists_answer hordered hevicted hback
    rw [hmerger] at hthere
    refine ⟨flight, response, hmem, ?_, hthere⟩
    -- no answer from before the change brings anything there
    rw [Bool.eq_false_iff]
    exact fun hcalled => hthere (hold flight response hmem hcalled)
  · intro flight hflight response hresponse
    constructor
    · intro hlacks place hunder
      rw [state_complete_eq, hlater]
      rcases (b'.complete flight (.ok response)).1 with _ | _ | _
      · exact .inl rfl
      · exact .inl rfl
      · exact State.place?_absorb_of_lacks hresponse hlacks hunder
    · intro hepoch hthere
      have changed := run.next (.fingerprint path args)
      rw [hchanged] at changed
      rw [state_complete (later.run changed).tracked.flight_awaited hepoch, hlater]
      exact State.not_lacks_absorb hresponse hthere

/-! ### An item that is asked for twice -/

/-- The item, by its number. -/
def itemPath : Path := .ofFields ["item"]

/-- The number of an item, as it is given with the path. -/
def numbered (n : Int) : Dict Json := [("id", .number (.int n))]

/-- The name of the item with the number 5. -/
def fiveName : Path := (itemPath.withArguments (numbered 5)).withField "name"

/-- The name of the item with the number 5 was sent for. -/
def fiveSent : Batcher :=
  ((({} : Batcher).fingerprint itemPath (numbered 5)).2.register fiveName).2.flushNow.2

/-- What was sent. -/
def fiveCall : Flight := { batch := 0, epoch := 0, paths := [fiveName], byTask := false }

/-- How it was sent. -/
def fiveHistory : History :=
  [.flushNow (some fiveCall), .register fiveName true, .fingerprint itemPath (numbered 5) false]

/-- The answer to it. -/
def fiveAnswer : Json := .object [("item", .object [("name", .string "five")])]

/-- Meanwhile the item with the number 6 is asked for. -/
def sixAsked : Batcher := (fiveSent.fingerprint itemPath (numbered 6)).2

theorem fiveSent_run : Run fiveHistory fiveSent := by
  have new : IsNew {} := rfl
  exact .next (.next (.next (.start new) (.fingerprint itemPath (numbered 5))) (.register fiveName))
    .flushNow

theorem fiveCall_mem : fiveCall ∈ sixAsked.flights := by
  have hflights : sixAsked.flights = [fiveCall] := rfl
  rw [hflights]
  exact List.mem_singleton_self fiveCall

theorem fiveCall_not_lacks : ¬fiveAnswer.Lacks none ["item"] := by
  intro hlacks
  cases hlacks [.member "item"] (.inl rfl)

/-- An answer about something else brings no item, and the answer to the old number brings one. -/
theorem evicted_until_answered_item :
    let ready : Json := .object [("ready", .bool true)]
    (sixAsked.complete fiveCall (.ok ready)).2.state.value.Lacks none ["item"] ∧
      ¬(sixAsked.complete fiveCall (.ok fiveAnswer)).2.state.value.Lacks none ["item"] := by
  intro ready
  have hchanged : (fiveSent.fingerprint itemPath (numbered 6)).1 = true := rfl
  constructor
  · have hready : ready.Ordered := ⟨List.pairwise_singleton _ _, trivial, trivial⟩
    have hnothing : ready.Lacks none ["item"] := by
      refine lacks_of_member? rfl fun name hname => ?_
      rcases hname with rfl | hname
      · rfl
      · cases hname
    have later : Later (.fingerprint itemPath (numbered 6) true :: fiveHistory) sixAsked
        [.complete fiveCall (.ok ready) (.ok true)] (sixAsked.complete fiveCall (.ok ready)).2 :=
      .next .now (.complete (.ok ready) fiveCall_mem)
    obtain ⟨hback, -⟩ := evicted_until_answered fiveSent_run hchanged later
      (fun flight response result hmem => by cases List.mem_singleton.1 hmem; exact hready)
      (fun flight response hmem _ => by cases List.mem_singleton.1 hmem; exact hnothing)
    by_contra hthere
    obtain ⟨flight, response, hmem, hfresh, -⟩ := hback hthere
    cases List.mem_singleton.1 hmem
    cases hfresh
  · have hfive : fiveAnswer.Ordered :=
      ⟨List.pairwise_singleton _ _, ⟨List.pairwise_singleton _ _, trivial, trivial⟩, trivial⟩
    obtain ⟨-, hends⟩ := evicted_until_answered fiveSent_run hchanged .now nofun nofun
    exact (hends fiveCall fiveCall_mem fiveAnswer hfive).2 rfl fiveCall_not_lacks

/-- An answer to the old arguments brings back what the change of arguments had evicted. -/
theorem old_answer_returns :
    ¬∀ (history since : History) (b b' : Batcher) (path : Path) (args : Dict Json), Run history b →
      (b.fingerprint path args).1 = true →
      Later (.fingerprint path args true :: history) (b.fingerprint path args).2 since b' →
      (∀ flight outcome result, .complete flight outcome result ∈ since →
        history.hasCalled flight = true) →
      b'.state.value.Lacks b.merger.marker path.fields := by
  intro hevicted
  have later : Later (.fingerprint itemPath (numbered 6) true :: fiveHistory) sixAsked
      [.complete fiveCall (.ok fiveAnswer) (.ok true)]
      (sixAsked.complete fiveCall (.ok fiveAnswer)).2 :=
    .next .now (.complete (.ok fiveAnswer) fiveCall_mem)
  have hlacks := hevicted fiveHistory _ fiveSent _ itemPath (numbered 6) fiveSent_run rfl later ?_
  · cases hlacks [.member "item"] (.inl rfl)
  · intro flight outcome result hmem
    cases List.mem_singleton.1 hmem
    rfl

end Batcher

end GraphWalk
