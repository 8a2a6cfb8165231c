import GraphWalk.Text.Blank
import GraphWalk.Text.Escaped
import GraphWalk.Text.Numeral
import GraphWalk.Text.Word
import GraphWalk.Decimal.Shortest
import GraphWalk.Dict
import GraphWalk.Json.Printer
import GraphWalk.Json.Reader
import GraphWalk.Path
import GraphWalk.Marker
import GraphWalk.State
import GraphWalk.Document
import GraphWalk.Schema.Basic
import GraphWalk.Schema.Comments
import GraphWalk.Schema.Fields
import GraphWalk.Schema.Build
import GraphWalk.Schema.Classify
import GraphWalk.Batch.Batcher
import GraphWalk.Traversal
import GraphWalk.Config.Read
import GraphWalk.Event.Basic
import GraphWalk.Transport.Http
import GraphWalk.Session.Script
import GraphWalk.Proofs.Batch.Schedule
import GraphWalk.Proofs.Batch.Ledger
import GraphWalk.Proofs.Traversal.FetchOnce
import GraphWalk.Proofs.Document.Selected
import GraphWalk.Proofs.Document.Unambiguous
import GraphWalk.Proofs.Document.Queries
import GraphWalk.Proofs.Json.Layers
import GraphWalk.Proofs.Client.Arguments
import GraphWalk.Proofs.Batch.Later
import GraphWalk.Proofs.Batch.Teardown
import GraphWalk.Proofs.Batch.Evicted
import GraphWalk.Proofs.Batch.Passes
import GraphWalk.Proofs.Batch.Reports
import GraphWalk.Proofs.Dict.Entries
import GraphWalk.Proofs.Json.Marking
import GraphWalk.Proofs.Json.Successive
import GraphWalk.Proofs.Traversal.Spellings
import GraphWalk.Proofs.Traversal.Operations
import GraphWalk.Proofs.Schema.RoundTrip
import GraphWalk.Proofs.Schema.Defaults
import GraphWalk.Proofs.Schema.Descriptions
import GraphWalk.Proofs.Schema.Order
import GraphWalk.Proofs.Batch.Settled
import GraphWalk.Proofs.Selection.Trie
import GraphWalk.Proofs.Client.Course
import GraphWalk.Proofs.Client.Current
import GraphWalk.Proofs.Client.Writes
import GraphWalk.Proofs.Json.Splitting
import GraphWalk.Proofs.Json.Unmarking
import GraphWalk.Proofs.Json.Eviction
import GraphWalk.Proofs.Batch.Changes
import GraphWalk.Proofs.Json.Collected
import GraphWalk.Proofs.Batch.FirstMap
import GraphWalk.Proofs.Path.Identity
import GraphWalk.Proofs.Client.Leaves
import GraphWalk.Proofs.Client.Markers
import GraphWalk.Proofs.Schema.References
import GraphWalk.Proofs.Schema.Stripping
import GraphWalk.Proofs.Event.ReadBack
import GraphWalk.Proofs.Json.Grammar
import GraphWalk.Proofs.Schema.Levels
import GraphWalk.Proofs.Transport.Answers
