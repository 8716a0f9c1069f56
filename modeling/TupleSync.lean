import TupleSync.Bus.Broker
import TupleSync.Bus.Handler
import TupleSync.Bus.Local
import TupleSync.Bus.Rehearsal
import TupleSync.Bus.Signal
import TupleSync.Config.Basic
import TupleSync.Config.Broker
import TupleSync.Config.Environment
import TupleSync.Config.Error
import TupleSync.Entity.Basic
import TupleSync.Entity.Codec
import TupleSync.Event.Basic
import TupleSync.Event.Payload
import TupleSync.Json.Basic
import TupleSync.Json.Numeral
import TupleSync.Json.Outline
import TupleSync.Json.Printer
import TupleSync.Json.Quoted
import TupleSync.Json.Reader
import TupleSync.Json.Record
import TupleSync.Json.Token
import TupleSync.Launch.CommandLine
import TupleSync.Launch.Program
import TupleSync.Log.Filter
import TupleSync.Log.Line
import TupleSync.Log.Record
import TupleSync.Main
import TupleSync.Proofs.Bus.Account
import TupleSync.Proofs.Bus.Delivery
import TupleSync.Proofs.Bus.Fanout
import TupleSync.Proofs.Bus.Handler
import TupleSync.Proofs.Bus.Isolation
import TupleSync.Proofs.Bus.Lifecycle
import TupleSync.Proofs.Bus.Liveness
import TupleSync.Proofs.Bus.Messages
import TupleSync.Proofs.Bus.Moves
import TupleSync.Proofs.Bus.Publication
import TupleSync.Proofs.Bus.Signal
import TupleSync.Proofs.Bus.Steps
import TupleSync.Proofs.Bus.Subjects
import TupleSync.Proofs.Bus.Service
import TupleSync.Proofs.Bus.Subscriptions
import TupleSync.Proofs.Bus.Consumers
import TupleSync.Proofs.Bus.Transport
import TupleSync.Proofs.Check.Chains
import TupleSync.Proofs.Check.Completeness
import TupleSync.Proofs.Check.Grants
import TupleSync.Proofs.Check.Listing
import TupleSync.Proofs.Check.Reachability
import TupleSync.Proofs.Check.Shallow
import TupleSync.Proofs.Check.Stored
import TupleSync.Proofs.Check.Visits
import TupleSync.Proofs.Config.Enforcement
import TupleSync.Proofs.Entity.Codec
import TupleSync.Proofs.Event.Payload
import TupleSync.Proofs.Event.Variation
import TupleSync.Proofs.Json.Compact
import TupleSync.Proofs.Json.Fields
import TupleSync.Proofs.Json.Members
import TupleSync.Proofs.Json.Numeral
import TupleSync.Proofs.Json.Quoted
import TupleSync.Proofs.Json.Record
import TupleSync.Proofs.Json.Values
import TupleSync.Proofs.Json.Variation
import TupleSync.Proofs.Remote.Agreement
import TupleSync.Proofs.Remote.Bootstrap
import TupleSync.Proofs.Remote.Changes
import TupleSync.Proofs.Remote.Connection
import TupleSync.Proofs.Remote.Conversation
import TupleSync.Proofs.Remote.Correspondence
import TupleSync.Proofs.Remote.Deleting
import TupleSync.Proofs.Remote.Exchange
import TupleSync.Proofs.Remote.Listing
import TupleSync.Proofs.Remote.Paging
import TupleSync.Proofs.Remote.Removal
import TupleSync.Proofs.Remote.Replies
import TupleSync.Proofs.Remote.Requests
import TupleSync.Proofs.Remote.Server
import TupleSync.Proofs.Remote.Transcript
import TupleSync.Proofs.Store.Atomicity
import TupleSync.Proofs.Store.Memory
import TupleSync.Proofs.Store.Observed
import TupleSync.Proofs.Store.Operation
import TupleSync.Proofs.Store.Relaxation
import TupleSync.Proofs.Store.Replacement
import TupleSync.Proofs.Store.Run
import TupleSync.Proofs.Sync.Calls
import TupleSync.Proofs.Sync.Deletion
import TupleSync.Proofs.Sync.Dispatch
import TupleSync.Proofs.Sync.Exactness
import TupleSync.Proofs.Sync.Facts
import TupleSync.Proofs.Sync.Meaning
import TupleSync.Proofs.Sync.Patterns
import TupleSync.Proofs.Sync.Refusals
import TupleSync.Proofs.Sync.Reordering
import TupleSync.Proofs.Sync.Repetition
import TupleSync.Proofs.Sync.Runtime
import TupleSync.Proofs.Sync.Step
import TupleSync.Proofs.Sync.Update
import TupleSync.Proofs.Text.Digits
import TupleSync.Proofs.Time.Instant
import TupleSync.Proofs.Tuple.Identifiers
import TupleSync.Proofs.Tuple.Keys
import TupleSync.Proofs.Tuple.References
import TupleSync.Proofs.Tuple.References
import TupleSync.Remote.Codec
import TupleSync.Remote.Connect
import TupleSync.Remote.Store
import TupleSync.Remote.Wire
import TupleSync.Store.Basic
import TupleSync.Store.Check
import TupleSync.Store.Memory
import TupleSync.Store.Observed
import TupleSync.Store.Permissive
import TupleSync.Sync.Effect
import TupleSync.Sync.Handle
import TupleSync.Sync.Link
import TupleSync.Sync.Notice
import TupleSync.Sync.Runtime
import TupleSync.Text.Blank
import TupleSync.Text.Digits
import TupleSync.Text.Hidden
import TupleSync.Text.Lossy
import TupleSync.Text.Quoting
import TupleSync.Time.Date
import TupleSync.Time.Instant
import TupleSync.Tuple.Basic
import TupleSync.Tuple.Codec
import TupleSync.Tuple.Key
import TupleSync.Tuple.Ref
import TupleSync.Tuple.Vocabulary
