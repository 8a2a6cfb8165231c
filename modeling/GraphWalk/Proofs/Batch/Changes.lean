import GraphWalk.Proofs.Batch.Evicted
import GraphWalk.Proofs.Batch.Fingerprints
import GraphWalk.Proofs.Json.Collected

/-!
# When arguments have changed

The batcher compares arguments with those that it saw last under the same key.  It keeps
no more than their text, and whatever else happens in between does not touch that; so it
answers as if it compared the values themselves.

## Main definitions

* `Happening.Spares`, `History.LastSeen` — the arguments that a history saw last under a key.
* `Sight`, `History.sights` — what a history says about arguments: where which were seen, and
  teardowns.
* `Sight.Agree` — the same sight, but for the numbers, which are told by their texts.

## Main results

* `History.argumentsAt?_eq_some_iff` — what is remembered is the text of what was seen last.
* `History.argumentsAt?_eq_of_sights` — nothing but sights is remembered.
* `Batcher.changed_iff` — **arguments have changed exactly if others were seen last.**
-/

namespace GraphWalk

/-! ### What was seen last -/

/-- Nothing is seen under the key, and nothing is torn down. -/
def Happening.Spares (key : String) : Happening → Prop
  | .fingerprint path _ _ => path.key ≠ key
  | .dispose => False
  | _ => True

/-- The arguments were seen under the key, and nothing has been seen there or torn down since. -/
def History.LastSeen (history : History) (key : String) (args : Dict Json) : Prop :=
  ∃ (since earlier : History) (path : Path) (changed : Bool),
    history = since ++ .fingerprint path args changed :: earlier ∧ path.key = key ∧
      ∀ happening ∈ since, happening.Spares key

/-- What a happening says about arguments. -/
inductive Sight
  /-- Arguments were seen under a key. -/
  | seen (key : String) (args : Dict Json)
  /-- All that was seen is forgotten. -/
  | teardown

namespace Sight

/-- The same sight: the key is the same, and the arguments agree. -/
inductive Agree : Sight → Sight → Prop
  /-- Arguments that agree were seen under one key. -/
  | seen (key : String) {args given : Dict Json} (h : (Json.object args).Agree (.object given)) :
      Agree (.seen key args) (.seen key given)
  /-- All is forgotten. -/
  | teardown : Agree .teardown .teardown

/-- The names in the arguments ascend, as they do in any object. -/
def Ordered : Sight → Prop
  | .seen _ args => (Json.object args).Ordered
  | .teardown => True

/-- What a sight makes of the text that is remembered under a key. -/
def textAt (key : String) : Sight → Option String → Option String
  | .seen other args, before => if key = other then some (Json.text (.object args)) else before
  | .teardown, _ => none

/-- The same sight leaves the same text. -/
theorem Agree.textAt_eq {sight other : Sight} (h : sight.Agree other) (hsight : sight.Ordered)
    (hother : other.Ordered) (key : String) : sight.textAt key = other.textAt key := by
  cases h with
  | seen name h =>
    funext before
    rw [textAt, textAt, (Json.text_eq_iff hsight hother).2 h]
  | teardown => rfl

/-- The same sights leave the same text. -/
theorem foldr_textAt_eq {sights others : List Sight} (h : List.Forall₂ Agree sights others)
    (hsights : ∀ sight ∈ sights, sight.Ordered) (hothers : ∀ sight ∈ others, sight.Ordered)
    (key : String) : sights.foldr (textAt key) none = others.foldr (textAt key) none := by
  induction h with
  | nil => rfl
  | cons hsame hrest ih =>
    rw [List.forall_mem_cons] at hsights hothers
    rw [List.foldr_cons, List.foldr_cons, ih hsights.2 hothers.2,
      hsame.textAt_eq hsights.1 hothers.1]

end Sight

/-- What a happening says about arguments, if it says anything. -/
def Happening.sight? : Happening → Option Sight
  | .fingerprint path args _ => some (.seen path.key args)
  | .dispose => some .teardown
  | _ => none

namespace History

variable {history other : History} {happening : Happening} {key : String} {args : Dict Json}

/-- What a history says about arguments, the latest first. -/
def sights (history : History) : List Sight := history.filterMap Happening.sight?

/-- The names ascend in all arguments that were seen. -/
def SightsOrdered (history : History) : Prop := ∀ sight ∈ history.sights, sight.Ordered

theorem not_lastSeen_nil : ¬LastSeen [] key args := by
  rintro ⟨since, earlier, path, changed, h, -⟩
  exact List.append_ne_nil_of_right_ne_nil _ (List.cons_ne_nil _ _) h.symm

/-- What was seen last was seen just now, or earlier if nothing has come of it since. -/
theorem lastSeen_cons_iff :
    LastSeen (happening :: history) key args ↔
      (∃ path changed, happening = .fingerprint path args changed ∧ path.key = key) ∨
        happening.Spares key ∧ history.LastSeen key args := by
  constructor
  · rintro ⟨since, earlier, path, changed, h, hkey, hspared⟩
    rcases List.cons_eq_append_iff.1 h with ⟨-, hlast⟩ | ⟨between, rfl, rfl⟩
    · exact .inl ⟨path, changed, (List.cons.inj hlast).1.symm, hkey⟩
    · rw [List.forall_mem_cons] at hspared
      exact .inr ⟨hspared.1, between, earlier, path, changed, rfl, hkey, hspared.2⟩
  · rintro (⟨path, changed, rfl, hkey⟩ | ⟨hspares, since, earlier, path, changed, rfl, hkey, hall⟩)
    · exact ⟨[], history, path, changed, rfl, hkey, nofun⟩
    · exact ⟨happening :: since, earlier, path, changed, rfl, hkey,
        List.forall_mem_cons.2 ⟨hspares, hall⟩⟩

/-- What is remembered under a key is the text of what was seen last there. -/
theorem argumentsAt?_eq_some_iff {text : String} :
    history.argumentsAt? key = some text ↔
      ∃ args, history.LastSeen key args ∧ Json.text (.object args) = text := by
  induction history with
  | nil => simp [argumentsAt?, not_lastSeen_nil]
  | cons happening history ih =>
    rw [argumentsAt?_cons]
    cases happening with
    | fingerprint path given changed =>
      simp only [Happening.seenAt, lastSeen_cons_iff, Happening.Spares]
      by_cases hkey : key = path.key
      · simp [hkey]
      · simp [hkey, Ne.symm hkey, ih]
    | dispose => simp [Happening.seenAt, lastSeen_cons_iff, Happening.Spares]
    | _ => simp [Happening.seenAt, lastSeen_cons_iff, Happening.Spares, ih]

theorem ordered_of_lastSeen (hhistory : history.SightsOrdered) (h : history.LastSeen key args) :
    (Json.object args).Ordered := by
  obtain ⟨since, earlier, path, changed, rfl, -, -⟩ := h
  have hmem : Happening.fingerprint path args changed
      ∈ since ++ .fingerprint path args changed :: earlier :=
    List.mem_append_right _ List.mem_cons_self
  exact hhistory (.seen path.key args) (List.mem_filterMap.2 ⟨_, hmem, rfl⟩)

/-! ### Nothing but sights is remembered -/

theorem argumentsAt?_eq_foldr (history : History) (key : String) :
    history.argumentsAt? key = history.sights.foldr (Sight.textAt key) none := by
  induction history with
  | nil => rfl
  | cons happening history ih =>
    rw [argumentsAt?_cons, ih]
    cases happening <;> rfl

/-- Histories with the same sights remember the same. -/
theorem argumentsAt?_eq_of_sights (hhistory : history.SightsOrdered) (hother : other.SightsOrdered)
    (h : List.Forall₂ Sight.Agree history.sights other.sights) (key : String) :
    history.argumentsAt? key = other.argumentsAt? key := by
  rw [argumentsAt?_eq_foldr, argumentsAt?_eq_foldr]
  exact Sight.foldr_textAt_eq h hhistory hother key

end History

/-! ### The answer -/

namespace Batcher

variable {history : History} {b : Batcher} {path : Path} {args : Dict Json}

/-- The answer is yes when something else is remembered. -/
theorem Run.fst_fingerprint_eq (run : Run history b) (path : Path) (args : Dict Json) :
    (b.fingerprint path args).1
      = (history.argumentsAt? path.key).any (· != Json.text (.object args)) := by
  rw [fst_fingerprint, run.fingerprintOf?_eq]

/-- **Arguments have changed exactly if others were seen last** under the same key since the last
teardown.  Whatever else happens makes no difference, nor does the order in which the entries of
an object come, at any depth: arguments are compared as values, and their texts tell them. -/
theorem changed_iff (run : Run history b) (hhistory : history.SightsOrdered)
    (hargs : (Json.object args).Ordered) (path : Path) :
    ((b.fingerprint path args).1 = true ↔
      ∃ previous, history.LastSeen path.key previous ∧
        ¬(Json.object previous).Agree (.object args)) ∧
    (∀ (other : History) (b' : Batcher) (path' : Path) (given : Dict Json), Run other b' →
      other.SightsOrdered → (Json.object given).Ordered →
      List.Forall₂ Sight.Agree other.sights history.sights → path'.key = path.key →
      (Json.object given).Agree (.object args) →
        (b'.fingerprint path' given).1 = (b.fingerprint path args).1) ∧
    (∀ entries entries' : Dict Json, (Json.object entries).Distinct →
      (Json.object entries').Distinct → (Json.object entries).Agree (.object entries') →
        (b.fingerprint path (Dict.ofList (Json.collectedMembers entries))).1
          = (b.fingerprint path (Dict.ofList (Json.collectedMembers entries'))).1) ∧
    ∀ given : Dict Json, (Json.object given).Ordered →
      ((Json.object given).text = (Json.object args).text
        ↔ (Json.object given).Agree (.object args)) := by
  refine ⟨?_, ?_, ?_, fun given hgiven => Json.text_eq_iff hgiven hargs⟩
  · rw [run.fst_fingerprint_eq, Option.any_eq_true]
    constructor
    · rintro ⟨text, htext, hother⟩
      obtain ⟨previous, hlast, rfl⟩ := History.argumentsAt?_eq_some_iff.1 htext
      rw [bne_iff_ne, Ne, Json.text_eq_iff (History.ordered_of_lastSeen hhistory hlast) hargs]
        at hother
      exact ⟨previous, hlast, hother⟩
    · rintro ⟨previous, hlast, hother⟩
      refine ⟨_, History.argumentsAt?_eq_some_iff.2 ⟨previous, hlast, rfl⟩, ?_⟩
      rw [bne_iff_ne, Ne, Json.text_eq_iff (History.ordered_of_lastSeen hhistory hlast) hargs]
      exact hother
  · intro other b' path' given run' hother hgiven hsights hkey hagree
    rw [run'.fst_fingerprint_eq, run.fst_fingerprint_eq, hkey,
      History.argumentsAt?_eq_of_sights hother hhistory hsights,
      (Json.text_eq_iff hgiven hargs).2 hagree]
  · intro entries entries' hdistinct hdistinct' hagree
    have htext := Json.text_collected_eq hagree hdistinct hdistinct'
    rw [Json.collected, Json.collected] at htext
    rw [fst_fingerprint, fst_fingerprint, htext]

/-- After a flush the item with another number has other arguments, and the same item has not.  It
does not matter whether the number or the language of an item comes first. -/
theorem changed_iff_item :
    let number := ("id", Json.number (.int 5))
    let language := ("language", Json.string "en")
    (fiveSent.fingerprint itemPath (numbered 6)).1 = true ∧
      (fiveSent.fingerprint itemPath (numbered 5)).1 = false ∧
      (fiveSent.fingerprint itemPath (Dict.ofList (Json.collectedMembers [number, language]))).1
        = (fiveSent.fingerprint itemPath
            (Dict.ofList (Json.collectedMembers [language, number]))).1 := by
  intro number language
  have hnumbered : ∀ n, (Json.object (numbered n)).Ordered := by
    intro n
    exact ⟨List.pairwise_singleton _ _, trivial, trivial⟩
  have hfive : fiveHistory.SightsOrdered := by
    intro sight hsight
    rw [List.mem_singleton.1 hsight]
    exact hnumbered 5
  have hlast : ∀ args, fiveHistory.LastSeen "item" args ↔ args = numbered 5 := by
    intro args
    have hkey : itemPath.key = "item" := rfl
    simp [fiveHistory, History.lastSeen_cons_iff, Happening.Spares, hkey, eq_comm]
  have hdistinct : ∀ members : Dict Json, (Dict.keys members).Nodup →
      (∀ entry ∈ members, entry.2.isContainer = false) → (Json.object members).Distinct := by
    intro members hnodup hscalar
    refine Json.everyObject_object_iff.2 ⟨hnodup, fun name value hvalue => ?_⟩
    exact Json.everyObject_of_scalar (hscalar _ (Dict.mem_of_get?_eq_some hvalue))
  refine ⟨?_, ?_, ?_⟩
  · rw [(changed_iff fiveSent_run hfive (hnumbered 6) itemPath).1]
    refine ⟨numbered 5, (hlast _).2 rfl, fun h => ?_⟩
    cases h with
    | object hnames hvalues =>
      cases hvalues "id" _ _ rfl rfl with
      | number hchars => revert hchars; decide
  · rw [Bool.eq_false_iff, Ne, (changed_iff fiveSent_run hfive (hnumbered 5) itemPath).1]
    rintro ⟨previous, hprevious, hother⟩
    rw [(hlast previous).1 hprevious] at hother
    exact hother (Json.agree_self _)
  · obtain ⟨-, -, hcollected, -⟩ := changed_iff fiveSent_run hfive (hnumbered 5) itemPath
    refine hcollected _ _ (hdistinct _ ?_ ?_) (hdistinct _ ?_ ?_)
      (Json.agree_of_perm ?_ (.swap _ _ _))
    all_goals simp [number, language, Dict.keys]

end Batcher

end GraphWalk
