import GraphWalk.Json.Basic

/-!
# Failures of a batch

Why a batch was not answered.  Every failure has a text, a code and, where something
can be done about it, a hint.

## Main definitions

* `TransportError` — the failures.
* `Outcome` — what comes back for a batch: a value or a failure.
* `TransportError.message?`, `TransportError.code`, `TransportError.help?` — what is said of them.
-/

namespace GraphWalk

/-- Why a batch was not answered. -/
inductive TransportError
  /-- The request could not be sent, or its answer did not arrive; the reason, if it is known. -/
  | request (reason : Option String)
  /-- The server answered with a status that is no success. -/
  | status (number : Nat) (body : String)
  /-- The server answered with errors. -/
  | graphql (messages : List String)
  /-- The answer is not of the expected form. -/
  | malformed
  /-- Any other failure. -/
  | other (reason : String)
  deriving DecidableEq, Repr, Inhabited

namespace TransportError

/-- The text of a failure.  None where its end is not known: for a request that failed for an
unknown reason, and for a malformed answer, of which only the reader of the answer could say
more. -/
def message? : TransportError → Option String
  | .request reason => reason.map ("request failed: " ++ ·)
  | .status number _ => some ("server responded with status " ++ toString number)
  | .graphql messages => some ("server returned errors: " ++ "; ".intercalate messages)
  | .malformed => none
  | .other reason => some ("transport failure: " ++ reason)

/-- The text of a failure as events report it. -/
def message (e : TransportError) : String := e.message?.getD ""

/-- The code of a failure. -/
def code : TransportError → String
  | .request _ => "pathql::transport::request"
  | .status .. => "pathql::transport::status"
  | .graphql _ => "pathql::transport::graphql"
  | .malformed => "pathql::transport::serde_json"
  | .other _ => "pathql::transport::other"

/-- What can be done about a failure. -/
def help? : TransportError → Option String
  | .status .. => some "Check the endpoint URL and any authentication headers."
  | _ => none

end TransportError

/-- What comes back for a batch. -/
abbrev Outcome := Except TransportError Json

end GraphWalk
