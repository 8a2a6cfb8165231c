import GraphWalk.Event.Kind
import GraphWalk.Event.Uuid
import GraphWalk.Json.Reader
import GraphWalk.Json.Record
import GraphWalk.Json.Printer
import GraphWalk.Time.Reader

/-!
# Batch events

What is reported of a batch, with the identifier of the batch and the moment of the
report.  An event is written as a JSON text for storage and as a sentence for the log,
and it is read from the JSON text.

## Main definitions

* `BatchEvent` — the events.
* `EventKind.json`, `BatchEvent.json`, `BatchEvent.text` — the JSON text.
* `EventKind.ofJson?`, `BatchEvent.ofJson?` — what a value reports.
* `BatchEvent.ofWritten?`, `BatchEvent.read?` — what a JSON text reports.
* `BatchEvent.summary`, `BatchEvent.severity` — the line of the log.
-/

namespace GraphWalk

/-- What is reported of a batch, and when. -/
structure BatchEvent where
  /-- The identifier of the batch. -/
  batch : Uuid
  /-- The moment of the report. -/
  time : Timestamp
  /-- What is reported. -/
  kind : EventKind
  deriving DecidableEq, Repr, Inhabited

/-! ### Writing -/

/-- A list of texts as a value. -/
def Json.ofStrings (items : List String) : Json :=
  .array (items.map .string)

/-- What is reported, as it is written: the members stand in the order in which they are told. -/
def EventKind.json : EventKind → Json
  | .scheduled => .object [("type", .string "scheduled")]
  | .flushed paths changed =>
    .object [("type", .string "flushed"), ("paths", .ofStrings paths), ("changed", .bool changed)]
  | .failed paths error =>
    .object [("type", .string "failed"), ("paths", .ofStrings paths), ("error", .string error)]

/-- An event as it is written: the members stand in the order in which they are told. -/
def BatchEvent.json (e : BatchEvent) : Json :=
  .object [("batch", .string e.batch.text), ("at", .string e.time.text), ("kind", e.kind.json)]

/-- The JSON text of an event. -/
def BatchEvent.text (e : BatchEvent) : String :=
  e.json.text

/-! ### Reading -/

/-- A failure or an answer, of which the paths are the first field and something else the
second. -/
def EventKind.outcome? (second : Json → Option α) (make : List String → α → EventKind) :
    List Json → Option EventKind
  | [paths, other] => paths.strings?.bind fun paths => (second other).map (make paths)
  | _ => none

/-- What a value reports.  No field may be given twice, and neither may the tag. -/
def EventKind.ofJson? (v : Json) : Option EventKind :=
  (v.record?.bind Record.tagged?).bind fun (tag, record) =>
    if tag = "scheduled" then (record.fields? []).map fun _ => .scheduled
    else if tag = "flushed" then
      (record.fields? ["paths", "changed"]).bind (outcome? Json.bool? .flushed)
    else if tag = "failed" then
      (record.fields? ["paths", "error"]).bind (outcome? Json.string? .failed)
    else none

namespace BatchEvent

/-- The event that three fields tell, when it is known how texts and reports are told. -/
def ofFields? (text? : α → Option String) (kind? : α → Option EventKind) :
    List α → Option BatchEvent
  | [batch, time, kind] =>
    ((text? batch).bind Uuid.read?).bind fun batch =>
      ((text? time).bind Timestamp.read?).bind fun time =>
        (kind? kind).map fun kind => ⟨batch, time, kind⟩
  | _ => none

/-- The event that a record tells.  No field may be given twice. -/
def ofRecord? (text? : α → Option String) (kind? : α → Option EventKind) (record : Record α) :
    Option BatchEvent :=
  (record.fields? ["batch", "at", "kind"]).bind (ofFields? text? kind?)

/-- The event that a value tells. -/
def ofJson? (v : Json) : Option BatchEvent :=
  v.record?.bind (ofRecord? Json.string? EventKind.ofJson?)

/-- The event that is written.  What is reported has to be told as a whole, and members that are no
fields only have to be written. -/
def ofWritten? (w : Written) : Option BatchEvent :=
  w.record?.bind <| ofRecord? Written.quoted? fun kind =>
    (kind.contentWithin? 1).bind EventKind.ofJson?

/-- The event that a JSON text tells. -/
def read? (text : String) : Option BatchEvent :=
  (Written.read? text.toList).bind ofWritten?

end BatchEvent

/-! ### The log -/

/-- How much attention a line of the log asks for. -/
inductive Severity
  /-- All is well. -/
  | info
  /-- Something failed. -/
  | warning
  deriving DecidableEq, Repr, Inhabited

/-- How a severity is written. -/
def Severity.name : Severity → String
  | .info => "INFO"
  | .warning => "WARN"

/-- A failure asks for attention. -/
def BatchEvent.severity (e : BatchEvent) : Severity :=
  match e.kind with
  | .failed .. => .warning
  | _ => .info

/-- What a sentence says of a batch. -/
def EventKind.summary : EventKind → String
  | .scheduled => "scheduled"
  | .flushed paths changed =>
    "flushed " ++ toString paths.length ++ " path(s), state " ++
      if changed then "changed" else "unchanged"
  | .failed paths error =>
    "failed for " ++ toString paths.length ++ " path(s): " ++ error

/-- An event as a sentence. -/
def BatchEvent.summary (e : BatchEvent) : String :=
  "batch " ++ e.batch.text ++ " " ++ e.kind.summary

end GraphWalk
