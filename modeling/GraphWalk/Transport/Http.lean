import GraphWalk.Document
import GraphWalk.Json.Reader
import GraphWalk.Transport.Error

/-!
# Batches over HTTP

A batch is posted as a document and answered by a status and a body.  The body of a
successful answer holds data and errors; errors win, even when there is data beside
them.

## Main definitions

* `posted` — what is sent for a selection.
* `Written.only?` — the one member of a name.
* `GraphAnswer`, `GraphAnswer.ofWritten?` — data and errors, and reading them.
* `Exchange`, `Exchange.outcome` — how an exchange with a server ends, and what it means for the
  batch.
-/

namespace GraphWalk

/-- What is sent for a selection. -/
def posted (selection : Json) : Json :=
  .object [("query", .string (Document.text selection))]

/-! ### Data and errors -/

namespace Written

/-- A member as written. -/
abbrev Member := List Nat × Written

/-- Every name is a text. -/
def namesAreTexts (members : List Member) : Bool :=
  members.all fun member => (string? member.1).isSome

/-- The member of a name, if there is one.  None when there are several. -/
def only? (name : String) (members : List Member) : Option (Option Written) :=
  match members.filter fun member => string? member.1 == some name with
  | [] => some none
  | [member] => some (some member.2)
  | _ => none

end Written

/-- What a server answers to a document. -/
structure GraphAnswer where
  /-- The data, `null` when there is none. -/
  data : Json
  /-- The messages of the errors. -/
  errors : List String
  deriving Inhabited

namespace GraphAnswer

/-- The message of an error: the member of that name, or the only item of a list. -/
def errorMessage? : Written → Option String
  | .object members =>
    if Written.namesAreTexts members then
      (Written.only? "message" members).bind fun message => message.bind Written.quoted?
    else none
  | .array [message] => message.quoted?
  | _ => none

/-- The messages of a list of errors. -/
def errorMessages? : Written → Option (List String)
  | .array items => items.mapM errorMessage?
  | _ => none

/-- The answer with some data and some errors, both of which may be missing. -/
def ofParts? (data errors : Option Written) : Option GraphAnswer :=
  (data.elim (some .null) (Written.valueWithin? 1)).bind fun data =>
    (errors.elim (some []) errorMessages?).map fun errors => ⟨data, errors⟩

/-- The answer that a text tells.  An object holds its parts by name, each at most once, and may
hold other members, of which nobody asks for the value; a list holds the data first and the errors
second, and nothing else. -/
def ofWritten? : Written → Option GraphAnswer
  | .object members =>
    if Written.namesAreTexts members then
      (Written.only? "data" members).bind fun data =>
        (Written.only? "errors" members).bind fun errors => ofParts? data errors
    else none
  | .array [] => ofParts? none none
  | .array [data] => ofParts? (some data) none
  | .array [data, errors] => ofParts? (some data) (some errors)
  | _ => none

/-- The answer that a body tells. -/
def read? (body : String) : Option GraphAnswer :=
  (Written.read? body.toList).bind ofWritten?

/-- What an answer means for the batch: errors win. -/
def outcome (a : GraphAnswer) : Outcome :=
  if a.errors.isEmpty then .ok a.data else .error (.graphql a.errors)

end GraphAnswer

/-! ### Exchanges -/

/-- How an exchange with a server ends. -/
inductive Exchange
  /-- The connection is closed without an answer. -/
  | closed
  /-- The connection is closed inside the body of an answer. -/
  | cutShort (status : Nat)
  /-- The answer is complete. -/
  | answered (status : Nat) (body : String)
  deriving DecidableEq, Repr, Inhabited

/-- The status says that the request was granted. -/
def isSuccess (status : Nat) : Bool :=
  200 ≤ status && status < 300

/-- The status announces another answer, which is the one that counts. -/
def isInterim (status : Nat) : Bool :=
  status == 100 || (102 ≤ status && status < 200)

/-- An answer with the status ends before its body, whatever follows. -/
def isBodiless (status : Nat) : Bool :=
  status == 101 || status == 204 || status == 304

namespace Exchange

/-- What a status and a body mean for the batch. -/
def outcomeOf (status : Nat) (body : String) : Outcome :=
  if isSuccess status then
    match GraphAnswer.read? body with
    | some answer => answer.outcome
    | none => .error .malformed
  else .error (.status status body)

/-- What the end of an exchange means for the batch.  Without a complete answer the request has
failed, for a reason that only the connection knows. -/
def outcome : Exchange → Outcome
  | .closed => .error (.request none)
  | .cutShort status =>
    if isBodiless status then outcomeOf status "" else .error (.request none)
  | .answered status body =>
    if isInterim status then .error (.request none)
    else if isBodiless status then outcomeOf status ""
    else outcomeOf status body

end Exchange

end GraphWalk
