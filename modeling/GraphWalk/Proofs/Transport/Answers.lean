import GraphWalk.Proofs.Batch.Effects
import GraphWalk.Proofs.Json.Grammar
import GraphWalk.Proofs.Json.ReadBack
import GraphWalk.Transport.Http

/-!
# What an answer over HTTP means

A status and a body that have arrived are sorted into data and failures.  The body of a status
that is no success is reported as it is.  The body of a success is looked at as JSON, and an
object among such bodies tells by two of its members whether it has errors and which data: errors
win, so data beside errors is dropped, and the state keeps what it was.

The two members may be missing, and the data may be `null`.  The errors may not: the word `null`
in the place of the list makes the whole answer malformed.

## Main definitions

* `Written.Holds` — what members hold under a name.
* `Written.DistinctNames` — no name occurs twice.
* `GraphAnswer.HasData`, `GraphAnswer.NoErrors`, `GraphAnswer.HasErrors` — what the members of an
  answer tell.
* `Exchange.arrived?` — the status and the body of a complete answer.

## Main results

* `Written.only?_eq_some_iff` — the member of a name is found exactly if it is the only one.
* `GraphAnswer.ofWritten?_object_iff` — the answer that an object tells.
* `Exchange.outcome_sorted` — **answers are sorted into data and errors**.
-/

namespace GraphWalk

/-! ### Members by name -/

namespace Written

/-- Every name is a text: none has half of a surrogate pair. -/
def TextNames (members : List Member) : Prop :=
  ∀ member ∈ members, ∃ name, string? member.1 = some name

/-- No member has a name. -/
def Lacks (name : String) (members : List Member) : Prop :=
  ∀ member ∈ members, string? member.1 ≠ some name

/-- What members hold under a name: nothing, or the value of the only one of that name. -/
inductive Holds (name : String) : List Member → Option Written → Prop
  /-- There is no member of that name. -/
  | absent {members : List Member} (h : Lacks name members) : Holds name members none
  /-- There is one, and the others have other names. -/
  | present {before after : List Member} {codes : List Nat} {value : Written}
      (h : string? codes = some name) (hbefore : Lacks name before) (hafter : Lacks name after) :
      Holds name (before ++ (codes, value) :: after) (some value)

/-- Every name is a text, and no two are the same. -/
structure DistinctNames (members : List Member) : Prop where
  /-- Every name is a text. -/
  texts : TextNames members
  /-- No name occurs twice. -/
  nodup : (members.map fun member => string? member.1).Nodup

section Members

variable {name : String} {members : List Member} {part : Option Written}

theorem namesAreTexts_iff : namesAreTexts members = true ↔ TextNames members := by
  simp only [namesAreTexts, TextNames, List.all_eq_true, Option.isSome_iff_exists]

theorem filter_eq_nil_iff_lacks :
    (members.filter fun member => string? member.1 == some name) = [] ↔ Lacks name members := by
  simp only [List.filter_eq_nil_iff, beq_iff_eq, Lacks, ne_eq]

/-- The member of a name is found exactly if it is the only one, or there is none. -/
theorem only?_eq_some_iff : only? name members = some part ↔ Holds name members part := by
  constructor
  · intro h
    unfold only? at h
    split at h
    · next hnone =>
      cases h
      exact .absent (filter_eq_nil_iff_lacks.1 hnone)
    · next member hone =>
      cases h
      obtain ⟨before, after, rfl, hbefore, hmember, hafter⟩ := List.filter_eq_cons_iff.1 hone
      refine .present (beq_iff_eq.1 hmember) ?_ (filter_eq_nil_iff_lacks.1 hafter)
      intro other hother heq
      exact hbefore other hother (beq_iff_eq.2 heq)
    · cases h
  · intro h
    cases h with
    | absent h => rw [only?, filter_eq_nil_iff_lacks.2 h]
    | @present before after codes value h hbefore hafter =>
      have hnamed : (string? codes == some name) = true := beq_iff_eq.2 h
      rw [only?, List.filter_append, List.filter_cons, if_pos hnamed,
        filter_eq_nil_iff_lacks.2 hbefore, filter_eq_nil_iff_lacks.2 hafter]
      rfl

/-- Members hold one thing under a name. -/
theorem Holds.unique {other : Option Written} (h : Holds name members part)
    (hother : Holds name members other) : part = other :=
  Option.some.inj ((only?_eq_some_iff.2 h).symm.trans (only?_eq_some_iff.2 hother))

/-- Members with distinct names hold under a name what stands there. -/
theorem DistinctNames.holds (h : DistinctNames members) {codes : List Nat} {value : Written}
    (hmem : (codes, value) ∈ members) (hname : string? codes = some name) :
    Holds name members (some value) := by
  obtain ⟨before, after, rfl⟩ := List.append_of_mem hmem
  have hnodup := h.nodup
  rw [List.map_append, List.map_cons, List.nodup_middle, List.nodup_cons, ← List.map_append,
    List.mem_map, hname] at hnodup
  refine .present hname (fun other hother heq => ?_) (fun other hother heq => ?_)
  · exact hnodup.1 ⟨other, List.mem_append_left _ hother, heq⟩
  · exact hnodup.1 ⟨other, List.mem_append_right _ hother, heq⟩

/-- Members with distinct names hold one thing, or nothing, under each name. -/
theorem DistinctNames.exists_holds (h : DistinctNames members) (name : String) :
    ∃ part, Holds name members part := by
  by_cases hlacks : Lacks name members
  · exact ⟨none, .absent hlacks⟩
  · simp only [Lacks, not_forall, not_not] at hlacks
    obtain ⟨⟨codes, value⟩, hmem, hname⟩ := hlacks
    exact ⟨some value, h.holds hmem hname⟩

theorem string?_plainCodes (text : String) : string? (plainCodes text) = some text :=
  string?_codes text

theorem distinctNames_pair {name other : String} (h : name ≠ other) {value w : Written} :
    DistinctNames [(plainCodes name, value), (plainCodes other, w)] := by
  constructor
  · simp [TextNames, string?_plainCodes]
  · simpa [string?_plainCodes] using h

theorem quoted?_eq_some_iff {w : Written} {text : String} :
    w.quoted? = some text ↔ ∃ codes, w = .string codes ∧ string? codes = some text := by
  cases w with
  | string codes =>
    constructor
    · exact fun h => ⟨codes, rfl, h⟩
    · rintro ⟨_, heq, h⟩
      cases heq
      exact h
  | _ => exact ⟨nofun, fun ⟨_, heq, _⟩ => nomatch heq⟩

end Members

end Written

/-! ### What the parts of an answer tell -/

namespace GraphAnswer

open Written (Member Holds TextNames DistinctNames)

/-- What an error says: the text under the name `message`, or the text that is the only item of
a list. -/
inductive Tells : Written → String → Prop
  /-- The error is an object. -/
  | object {members : List Member} {codes : List Nat} {message : String}
      (hnames : TextNames members) (h : Holds "message" members (some (.string codes)))
      (htext : Written.string? codes = some message) : Tells (.object members) message
  /-- The error is a list of one text. -/
  | list {codes : List Nat} {message : String} (htext : Written.string? codes = some message) :
      Tells (.array [.string codes]) message

/-- The data of an answer: the value under its name, or `null` if there is nothing. -/
inductive HasData (members : List Member) : Json → Prop
  /-- There is no data. -/
  | absent (h : Holds "data" members none) : HasData members .null
  /-- There is data that denotes a value, inside the object around it. -/
  | present {w : Written} {data : Json} (h : Holds "data" members (some w))
      (hvalue : w.valueWithin? 1 = some data) : HasData members data

/-- An answer without errors: no list of them, or an empty one. -/
def NoErrors (members : List Member) : Prop :=
  Holds "errors" members none ∨ Holds "errors" members (some (.array []))

/-- An answer with errors: what they say, in the order of the list. -/
def HasErrors (members : List Member) (messages : List String) : Prop :=
  messages ≠ [] ∧
    ∃ items, Holds "errors" members (some (.array items)) ∧ List.Forall₂ Tells items messages

section Answers

variable {members : List Member} {data : Json} {messages : List String}

theorem errorMessage?_eq_some_iff {w : Written} {message : String} :
    errorMessage? w = some message ↔ Tells w message := by
  constructor
  · intro h
    unfold errorMessage? at h
    split at h
    · next members =>
      rw [Option.ite_none_right_eq_some, Written.namesAreTexts_iff] at h
      obtain ⟨hnames, hmessage⟩ := h
      obtain ⟨part, honly, hpart⟩ := Option.bind_eq_some_iff.1 hmessage
      obtain ⟨value, rfl, hvalue⟩ := Option.bind_eq_some_iff.1 hpart
      obtain ⟨codes, rfl, htext⟩ := Written.quoted?_eq_some_iff.1 hvalue
      exact .object hnames (Written.only?_eq_some_iff.1 honly) htext
    · obtain ⟨codes, rfl, htext⟩ := Written.quoted?_eq_some_iff.1 h
      exact .list htext
    · cases h
  · rintro (⟨hnames, h, htext⟩ | htext)
    · rw [errorMessage?, if_pos (Written.namesAreTexts_iff.2 hnames),
        Written.only?_eq_some_iff.2 h]
      exact htext
    · exact htext

/-- Messages are read off a list one by one. -/
theorem mapM_errorMessage? (items : List Written) (messages : List String) :
    items.mapM errorMessage? = some messages ↔ List.Forall₂ Tells items messages := by
  induction items generalizing messages with
  | nil =>
    rw [List.forall₂_nil_left_iff, List.mapM_nil]
    exact ⟨fun h => (Option.some.inj h).symm, fun h => congrArg some h.symm⟩
  | cons item items ih =>
    simp only [List.mapM_cons, Option.bind_eq_bind, Option.bind_eq_some_iff, Option.pure_def,
      Option.some.injEq, List.forall₂_cons_left_iff, errorMessage?_eq_some_iff, ih]
    constructor
    · rintro ⟨message, h, more, hmore, rfl⟩
      exact ⟨message, more, h, hmore, rfl⟩
    · rintro ⟨message, more, h, hmore, rfl⟩
      exact ⟨message, h, more, hmore, rfl⟩

theorem errorMessages?_eq_some_iff {w : Written} :
    errorMessages? w = some messages ↔
      ∃ items, w = .array items ∧ List.Forall₂ Tells items messages := by
  cases w with
  | array items =>
    constructor
    · exact fun h => ⟨items, rfl, (mapM_errorMessage? items messages).1 h⟩
    · rintro ⟨_, heq, h⟩
      cases heq
      exact (mapM_errorMessage? items messages).2 h
  | _ => exact ⟨nofun, fun ⟨_, heq, _⟩ => nomatch heq⟩

theorem hasData_iff :
    HasData members data ↔
      ∃ part, Holds "data" members part ∧
        part.elim (some .null) (Written.valueWithin? 1) = some data := by
  constructor
  · rintro (h | ⟨h, hvalue⟩)
    · exact ⟨none, h, rfl⟩
    · exact ⟨some _, h, hvalue⟩
  · rintro ⟨part | w, h, hvalue⟩
    · cases hvalue
      exact .absent h
    · exact .present h hvalue

/-- An answer has no errors, or it has some: this is what is read as the list of messages. -/
theorem errors_iff :
    (∃ part, Holds "errors" members part ∧ part.elim (some []) errorMessages? = some messages) ↔
      messages = [] ∧ NoErrors members ∨ HasErrors members messages := by
  constructor
  · rintro ⟨part | w, h, hread⟩
    · cases hread
      exact .inl ⟨rfl, .inl h⟩
    · obtain ⟨items, rfl, hitems⟩ := errorMessages?_eq_some_iff.1 hread
      cases hitems with
      | nil => exact .inl ⟨rfl, .inr h⟩
      | cons hitem hmore => exact .inr ⟨List.cons_ne_nil _ _, _, h, .cons hitem hmore⟩
  · rintro (⟨rfl, h | h⟩ | ⟨-, items, h, hitems⟩)
    · exact ⟨none, h, rfl⟩
    · exact ⟨some _, h, rfl⟩
    · exact ⟨some _, h, errorMessages?_eq_some_iff.2 ⟨items, rfl, hitems⟩⟩

/-- **The answer that an object tells**: its data and what its errors say, if both can be read. -/
theorem ofWritten?_object_iff :
    ofWritten? (.object members) = some ⟨data, messages⟩ ↔
      TextNames members ∧ HasData members data ∧
        (messages = [] ∧ NoErrors members ∨ HasErrors members messages) := by
  simp only [ofWritten?, Option.ite_none_right_eq_some, Written.namesAreTexts_iff,
    Option.bind_eq_some_iff, Written.only?_eq_some_iff, ofParts?, Option.map_eq_some_iff,
    GraphAnswer.mk.injEq, hasData_iff, ← errors_iff]
  -- both parts are looked up by name before either is read
  constructor
  · rintro ⟨hnames, dataPart, hdata, errorsPart, herrors, _, hvalue, _, hmessages, rfl, rfl⟩
    exact ⟨hnames, ⟨dataPart, hdata, hvalue⟩, errorsPart, herrors, hmessages⟩
  · rintro ⟨hnames, ⟨dataPart, hdata, hvalue⟩, errorsPart, herrors, hmessages⟩
    exact ⟨hnames, dataPart, hdata, errorsPart, herrors, data, hvalue, messages, hmessages, rfl,
      rfl⟩

theorem ofWritten?_noErrors_iff (hnames : TextNames members) :
    ofWritten? (.object members) = some ⟨data, []⟩ ↔ HasData members data ∧ NoErrors members := by
  rw [ofWritten?_object_iff]
  constructor
  · rintro ⟨-, hdata, ⟨-, hnone⟩ | hsome⟩
    · exact ⟨hdata, hnone⟩
    · exact absurd rfl hsome.1
  · exact fun h => ⟨hnames, h.1, .inl ⟨rfl, h.2⟩⟩

theorem ofWritten?_hasErrors_iff (hnames : TextNames members) :
    (messages ≠ [] ∧ ∃ data, ofWritten? (.object members) = some ⟨data, messages⟩) ↔
      (∃ data, HasData members data) ∧ HasErrors members messages := by
  simp only [ofWritten?_object_iff]
  constructor
  · rintro ⟨hne, data, -, hdata, ⟨rfl, -⟩ | herrors⟩
    · exact absurd rfl hne
    · exact ⟨⟨data, hdata⟩, herrors⟩
  · rintro ⟨⟨data, hdata⟩, herrors⟩
    exact ⟨herrors.1, data, hnames, hdata, .inr herrors⟩

/-- An object tells no answer if its data denotes no value, or if its errors are no list of
errors. -/
theorem ofWritten?_object_eq_none_iff (hnames : TextNames members) :
    ofWritten? (.object members) = none ↔
      (∀ data, ¬HasData members data) ∨
        ¬NoErrors members ∧ ∀ messages, ¬HasErrors members messages := by
  constructor
  · intro hnone
    by_contra hsome
    simp only [not_or, not_and_or, not_forall, not_not] at hsome
    obtain ⟨⟨data, hdata⟩, herrors | ⟨messages, herrors⟩⟩ := hsome
    · cases hnone.symm.trans (ofWritten?_object_iff.2 ⟨hnames, hdata, .inl ⟨rfl, herrors⟩⟩)
    · cases hnone.symm.trans (ofWritten?_object_iff.2 ⟨hnames, hdata, .inr herrors⟩)
  · intro hneither
    rw [Option.eq_none_iff_forall_ne_some]
    rintro ⟨data, messages⟩ hanswer
    obtain ⟨-, hdata, herrors⟩ := ofWritten?_object_iff.1 hanswer
    rcases hneither with hnoData | ⟨hsome, hnone⟩
    · exact hnoData data hdata
    · rcases herrors with ⟨-, herrors⟩ | herrors
      · exact hsome herrors
      · exact hnone messages herrors

/-- The word `null` is no list of errors, not even an empty one. -/
theorem not_errors_of_null (h : Holds "errors" members (some .null)) :
    ¬NoErrors members ∧ ∀ messages, ¬HasErrors members messages := by
  constructor
  · rintro (hnone | hempty)
    · cases h.unique hnone
    · cases h.unique hempty
  · rintro messages ⟨-, items, hitems, -⟩
    cases h.unique hitems

theorem outcome_eq_ok_iff {a : GraphAnswer} : a.outcome = .ok data ↔ a = ⟨data, []⟩ := by
  obtain ⟨held, messages⟩ := a
  cases messages with
  | nil => simp [outcome]
  | cons message messages => simp [outcome]

theorem outcome_eq_graphql_iff {a : GraphAnswer} :
    a.outcome = .error (.graphql messages) ↔ messages ≠ [] ∧ a = ⟨a.data, messages⟩ := by
  obtain ⟨held, told⟩ := a
  cases told with
  | nil =>
    simp only [outcome, List.isEmpty_nil, if_true, reduceCtorEq, GraphAnswer.mk.injEq, true_and,
      false_iff, not_and]
    exact fun hne heq => hne heq.symm
  | cons message told =>
    simp only [outcome, List.isEmpty_cons, Bool.false_eq_true, if_false, Except.error.injEq,
      TransportError.graphql.injEq, GraphAnswer.mk.injEq, true_and]
    constructor
    · rintro rfl
      exact ⟨List.cons_ne_nil _ _, rfl⟩
    · exact fun h => h.2

end Answers

end GraphAnswer

/-! ### Failures -/

/-- A failure leaves what is known as it was. -/
theorem Batcher.state_complete_error (b : Batcher) (flight : Flight) (e : TransportError) :
    (b.complete flight (.error e)).2.state = b.state := by
  rw [state_complete_eq]
  rfl

/-! ### Complete answers -/

namespace Exchange

open Written (Member Holds DistinctNames IsText plainCodes string?_plainCodes isSpaces_nil
  isSpaces_one spelledName_plainCodes spelledCodes_plainCodes)
open GraphAnswer (HasData NoErrors HasErrors)

/-- The status and the body of a complete answer.  Some statuses end an answer before its body. -/
def arrived? : Exchange → Option (Nat × String)
  | .closed => none
  | .cutShort status => if isBodiless status then some (status, "") else none
  | .answered status body =>
    if isInterim status then none else some (status, if isBodiless status then "" else body)

section Sorting

variable {exchange : Exchange} {status : Nat} {body : String} {members : List Member}
  {data : Json} {messages : List String}

/-- What counts is the status and the body that have arrived. -/
theorem outcome_eq_outcomeOf (h : exchange.arrived? = some (status, body)) :
    exchange.outcome = outcomeOf status body := by
  cases exchange with
  | closed => cases h
  | cutShort number =>
    rw [arrived?, Option.ite_none_right_eq_some, Option.some.injEq, Prod.mk.injEq] at h
    obtain ⟨hbodiless, rfl, rfl⟩ := h
    rw [outcome, if_pos hbodiless]
  | answered number text =>
    rw [arrived?, Option.ite_none_left_eq_some, Option.some.injEq, Prod.mk.injEq] at h
    obtain ⟨hinterim, rfl, rfl⟩ := h
    rw [outcome, if_neg hinterim]
    split
    · rfl
    · rfl

theorem isSuccess_iff : isSuccess status = true ↔ 200 ≤ status ∧ status < 300 := by
  rw [isSuccess, Bool.and_eq_true, decide_eq_true_iff, decide_eq_true_iff]

/-- The answer that the text of an object tells. -/
theorem read?_eq_ofWritten? (h : IsText (.object members) body.toList) :
    GraphAnswer.read? body = GraphAnswer.ofWritten? (.object members) := by
  rw [GraphAnswer.read?, Written.read?_eq_some_iff.2 h, Option.bind_some]

theorem outcomeOf_eq_ok_iff (hsuccess : isSuccess status = true) :
    outcomeOf status body = .ok data ↔ GraphAnswer.read? body = some ⟨data, []⟩ := by
  rw [outcomeOf, if_pos hsuccess]
  cases GraphAnswer.read? body with
  | none => exact ⟨nofun, nofun⟩
  | some answer => exact GraphAnswer.outcome_eq_ok_iff.trans Option.some_inj.symm

theorem outcomeOf_eq_graphql_iff (hsuccess : isSuccess status = true) :
    outcomeOf status body = .error (.graphql messages) ↔
      messages ≠ [] ∧ ∃ data, GraphAnswer.read? body = some ⟨data, messages⟩ := by
  rw [outcomeOf, if_pos hsuccess]
  cases GraphAnswer.read? body with
  | none => exact ⟨nofun, fun ⟨_, _, h⟩ => nomatch h⟩
  | some answer =>
    rw [GraphAnswer.outcome_eq_graphql_iff]
    refine and_congr_right fun _ => ⟨fun h => ⟨answer.data, congrArg some h⟩, ?_⟩
    rintro ⟨data, h⟩
    cases h
    rfl

theorem outcomeOf_eq_malformed_iff (hsuccess : isSuccess status = true) :
    outcomeOf status body = .error .malformed ↔ GraphAnswer.read? body = none := by
  rw [outcomeOf, if_pos hsuccess]
  cases GraphAnswer.read? body with
  | none => exact ⟨fun _ => rfl, fun _ => rfl⟩
  | some answer =>
    refine ⟨fun h => ?_, nofun⟩
    dsimp only [GraphAnswer.outcome] at h
    split at h
    · cases h
    · cases h

/-- **Answers are sorted into data and errors.**  Of a complete answer, a status that is no
success is reported with the body, whatever the body is.  A success whose body is no JSON is
malformed.  A success whose body is an object with distinct names, so that one thing or nothing
stands under each, comes out as its data exactly if it has no errors, and as what the errors say
exactly if there are some, also beside data; what is neither, among it `null` in the place of the
errors, is malformed.  A batch whose answer comes out as anything but data leaves the state as it
was. -/
theorem outcome_sorted (h : exchange.arrived? = some (status, body)) :
    (¬(200 ≤ status ∧ status < 300) → exchange.outcome = .error (.status status body)) ∧
    (200 ≤ status ∧ status < 300 →
      ((∀ w, ¬IsText w body.toList) → exchange.outcome = .error .malformed) ∧
      ∀ members, IsText (.object members) body.toList → DistinctNames members →
        (∀ name, ∃ part, Holds name members part) ∧
        (∀ data, exchange.outcome = .ok data ↔ HasData members data ∧ NoErrors members) ∧
        (∀ messages, exchange.outcome = .error (.graphql messages) ↔
          (∃ data, HasData members data) ∧ HasErrors members messages) ∧
        (exchange.outcome = .error .malformed ↔
          (∀ data, ¬HasData members data) ∨
            ¬NoErrors members ∧ ∀ messages, ¬HasErrors members messages) ∧
        (Holds "errors" members (some .null) → exchange.outcome = .error .malformed)) ∧
    ∀ e, exchange.outcome = .error e → ∀ (b : Batcher) (flight : Flight),
      (b.complete flight exchange.outcome).2.state = b.state := by
  have houtcome := outcome_eq_outcomeOf h
  refine ⟨fun hfailure => ?_, fun hsuccess => ⟨fun hnoText => ?_, ?_⟩, ?_⟩
  · rw [houtcome, outcomeOf, if_neg (mt isSuccess_iff.1 hfailure)]
  · have hnone : GraphAnswer.read? body = none := by
      rw [GraphAnswer.read?, Written.read?_eq_none_iff.2 hnoText, Option.bind_none]
    rw [houtcome, outcomeOf_eq_malformed_iff (isSuccess_iff.2 hsuccess), hnone]
  · intro members htext hdistinct
    have hgranted := isSuccess_iff.2 hsuccess
    have hmalformed : exchange.outcome = .error .malformed ↔
        (∀ data, ¬HasData members data) ∨
          ¬NoErrors members ∧ ∀ messages, ¬HasErrors members messages := by
      rw [houtcome, outcomeOf_eq_malformed_iff hgranted, read?_eq_ofWritten? htext,
        GraphAnswer.ofWritten?_object_eq_none_iff hdistinct.texts]
    refine ⟨hdistinct.exists_holds, fun data => ?_, fun messages => ?_, hmalformed, fun hnull => ?_⟩
    · rw [houtcome, outcomeOf_eq_ok_iff hgranted, read?_eq_ofWritten? htext,
        GraphAnswer.ofWritten?_noErrors_iff hdistinct.texts]
    · rw [houtcome, outcomeOf_eq_graphql_iff hgranted, read?_eq_ofWritten? htext,
        GraphAnswer.ofWritten?_hasErrors_iff hdistinct.texts]
    · exact hmalformed.2 (.inr (GraphAnswer.not_errors_of_null hnull))
  · rintro e he b flight
    rw [he, Batcher.state_complete_error]

/-- A body with data beside two errors, of which one is told by an object and one by a list. -/
def partialBody : String :=
  "\x7b\"data\": \x7b\"item\":null\x7d,\"errors\": [\x7b\"message\":\"denied\"\x7d,[\"late\"]]\x7d"

/-- The errors that the body tells. -/
def partialErrors : List Written :=
  [.object [(plainCodes "message", .string (plainCodes "denied"))],
    .array [.string (plainCodes "late")]]

/-- The members of the object that the body tells. -/
def partialMembers : List Member :=
  [(plainCodes "data", .object [(plainCodes "item", .null)]),
    (plainCodes "errors", .array partialErrors)]

theorem isText_partialBody : IsText (.object partialMembers) partialBody.toList := by
  have hdata := Written.Spelled.object
    (.last (spelledName_plainCodes "item" rfl) isSpaces_nil .null isSpaces_nil)
  have hdenied := Written.Spelled.object
    (.last (spelledName_plainCodes "message" rfl) isSpaces_nil
      (.string (spelledCodes_plainCodes "denied" rfl)) isSpaces_nil)
  have hlate := Written.Spelled.array
    (.last isSpaces_nil (.string (spelledCodes_plainCodes "late" rfl))
      isSpaces_nil)
  have herrors := Written.Spelled.array
    (.cons isSpaces_nil hdenied isSpaces_nil (.last isSpaces_nil hlate isSpaces_nil))
  have hmembers := Written.Spelled.object
    (.cons (spelledName_plainCodes "data" rfl) isSpaces_one hdata isSpaces_nil
      (.last (spelledName_plainCodes "errors" rfl) isSpaces_one herrors
        isSpaces_nil))
  exact ⟨[], _, [], isSpaces_nil, hmembers, isSpaces_nil, rfl⟩

/-- Data beside errors is dropped. -/
theorem outcome_sorted_partial :
    (answered 200 partialBody).arrived? = some (200, partialBody) ∧
      IsText (.object partialMembers) partialBody.toList ∧ DistinctNames partialMembers ∧
      (answered 200 partialBody).outcome = .error (.graphql ["denied", "late"]) ∧
      ∀ (b : Batcher) (flight : Flight),
        (b.complete flight (answered 200 partialBody).outcome).2.state = b.state := by
  have harrived : (answered 200 partialBody).arrived? = some (200, partialBody) := rfl
  have hdistinct : DistinctNames partialMembers := Written.distinctNames_pair (by decide)
  obtain ⟨-, hsuccess, hstate⟩ := outcome_sorted harrived
  have hdata : HasData partialMembers (.object [("item", .null)]) := by
    refine .present (hdistinct.holds List.mem_cons_self (string?_plainCodes "data")) ?_
    rfl
  have hdenied : GraphAnswer.Tells (.object [(plainCodes "message",
      .string (plainCodes "denied"))]) "denied" := by
    refine .object ?_ ?_ (string?_plainCodes "denied")
    · simp [Written.TextNames, string?_plainCodes]
    · exact @Holds.present "message" [] [] _ _ (string?_plainCodes "message") nofun nofun
  have herrors : HasErrors partialMembers ["denied", "late"] := by
    refine ⟨List.cons_ne_nil _ _, partialErrors, ?_, ?_⟩
    · exact hdistinct.holds (List.mem_cons_of_mem _ List.mem_cons_self)
        (string?_plainCodes "errors")
    · exact .cons hdenied (.cons (.list (string?_plainCodes "late")) .nil)
  have houtcome :=
    (((hsuccess (by decide)).2 _ isText_partialBody hdistinct).2.2.1 _).2 ⟨⟨_, hdata⟩, herrors⟩
  exact ⟨harrived, isText_partialBody, hdistinct, houtcome, hstate _ houtcome⟩

/-- A body with data beside `null` in the place of the errors. -/
def nullErrorsBody : String := "\x7b\"data\":true,\"errors\":null\x7d"

/-- The members of the object that the body tells. -/
def nullErrorsMembers : List Member :=
  [(plainCodes "data", .bool true), (plainCodes "errors", .null)]

theorem isText_nullErrorsBody : IsText (.object nullErrorsMembers) nullErrorsBody.toList := by
  have hmembers := Written.Spelled.object
    (.cons (spelledName_plainCodes "data" rfl) isSpaces_nil .yes isSpaces_nil
      (.last (spelledName_plainCodes "errors" rfl) isSpaces_nil .null
        isSpaces_nil))
  exact ⟨[], _, [], isSpaces_nil, hmembers, isSpaces_nil, rfl⟩

/-- Data beside `null` in the place of the errors is not what comes out. -/
theorem null_errors_refused :
    ¬∀ (exchange : Exchange) (status : Nat) (body : String) (members : List Member) (data : Json),
      exchange.arrived? = some (status, body) → 200 ≤ status ∧ status < 300 →
      IsText (.object members) body.toList → DistinctNames members → HasData members data →
      Holds "errors" members (some .null) → exchange.outcome = .ok data := by
  intro hall
  have hdistinct : DistinctNames nullErrorsMembers := Written.distinctNames_pair (by decide)
  have hdata : HasData nullErrorsMembers (.bool true) :=
    .present (hdistinct.holds List.mem_cons_self (string?_plainCodes "data")) rfl
  have hnull : Holds "errors" nullErrorsMembers (some .null) :=
    hdistinct.holds (List.mem_cons_of_mem _ List.mem_cons_self) (string?_plainCodes "errors")
  have harrived : (answered 200 nullErrorsBody).arrived? = some (200, nullErrorsBody) := rfl
  have hok := hall _ _ _ _ _ harrived (by decide) isText_nullErrorsBody hdistinct hdata hnull
  rw [outcome_eq_outcomeOf harrived, outcomeOf_eq_ok_iff rfl,
    read?_eq_ofWritten? isText_nullErrorsBody,
    GraphAnswer.ofWritten?_noErrors_iff hdistinct.texts] at hok
  exact (GraphAnswer.not_errors_of_null hnull).1 hok.2

end Sorting

end Exchange

end GraphWalk
