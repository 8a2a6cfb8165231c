import GraphWalk.Batch.Batcher
import GraphWalk.Schema.Build
import GraphWalk.Schema.Classify

/-!
# Clients

A client is one instance of the engine: a schema, or a marker in place of one, and
a batcher with what it knows.

## Main definitions

* `ClientConfig` — what a client is built from.
* `Client`, `Client.new` — a client, and how it is built.
* `Client.dispose` — teardown.
* `Query` — a computation that reads a client and may ask it for more.
-/

namespace GraphWalk

/-- What a client is built from.  Times are in milliseconds. -/
structure ClientConfig where
  /-- The text of the schema; without one leaves are told by the marker. -/
  schemaText : Option String := none
  /-- How long a flush waits after it was scheduled. -/
  flushDelay : Nat := 0
  /-- How long requests have to pause before a flush, where traversals run beside it. -/
  quietWindow : Nat := 10
  /-- What becomes of two lists at the same place. -/
  lists : ListPolicy := .concat
  /-- What leaves are told by without a schema. -/
  marker : Char := '$'
  /-- How many events are kept for reading. -/
  eventCapacity : Nat := 1024
  deriving DecidableEq, Repr, Inhabited

/-- The event capacity; nought keeps the usual one. -/
def ClientConfig.withEventCapacity (c : ClientConfig) (capacity : Nat) : ClientConfig :=
  { c with eventCapacity := if capacity = 0 then 1024 else capacity }

/-- One instance of the engine. -/
structure Client where
  /-- The schema, if there is one. -/
  schema : Option Schema := none
  /-- What leaves are told by without a schema. -/
  marker : Char := '$'
  /-- What is pending, in flight and known. -/
  batcher : Batcher := {}
  deriving Repr, Inhabited

namespace Client

/-- A client.  Results are marked only when there is no schema. -/
def new (config : ClientConfig) : Client :=
  let schema := Schema.build? config.schemaText
  { schema
    marker := config.marker
    batcher :=
      { merger := ⟨config.lists, if schema.isNone then some config.marker else none⟩
        flushDelay := config.flushDelay
        eventCapacity := config.eventCapacity } }

/-- What is known. -/
def state (c : Client) : State := c.batcher.state

/-- The paths that wait for the next flush. -/
def pendingPaths (c : Client) : List Path := c.batcher.pending.paths

/-- Teardown. -/
def dispose (c : Client) : Client := { c with batcher := c.batcher.dispose }

end Client

/-- A computation that reads a client and may ask it for more. -/
abbrev Query := StateM Client

namespace Query

/-- Ask for a path. -/
def register (path : Path) : Query Bool := fun c =>
  let (added, batcher) := c.batcher.register path
  (added, { c with batcher })

/-- Record the arguments seen at a path; the answer says whether they changed. -/
def fingerprint (path : Path) (args : Dict Json) : Query Bool := fun c =>
  let (changed, batcher) := c.batcher.fingerprint path args
  (changed, { c with batcher })

end Query

end GraphWalk
