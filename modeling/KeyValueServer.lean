import KeyValueServer.Main
import KeyValueServer.Server.Basic
import KeyValueServer.Proofs.Checked
import KeyValueServer.Proofs.Table.Generation
import KeyValueServer.Proofs.Table.Invariant
import KeyValueServer.Proofs.Table.Operations
import KeyValueServer.Proofs.Table.Represents
import KeyValueServer.Proofs.Table.FiniteMap
import KeyValueServer.Proofs.Table.GivingUp
import KeyValueServer.Proofs.Table.Reachable
import KeyValueServer.Proofs.Table.Load
import KeyValueServer.Proofs.Table.Rehash
import KeyValueServer.Proofs.Keyspace.Maps
import KeyValueServer.Proofs.Keyspace.Refinement
import KeyValueServer.Proofs.Keyspace.Events
import KeyValueServer.Proofs.Keyspace.Cycle
import KeyValueServer.Proofs.ByteQueue
import KeyValueServer.Proofs.Request.Reading
import KeyValueServer.Proofs.Request.Reads
import KeyValueServer.Proofs.Request.Decoder
import KeyValueServer.Proofs.Request.Fragmentation
import KeyValueServer.Proofs.Reactor.Callbacks
import KeyValueServer.Proofs.Reactor.Turns
import KeyValueServer.Proofs.Reactor.Timers
import KeyValueServer.Proofs.Reactor.Chain
import KeyValueServer.Proofs.Reactor.Dispatch
import KeyValueServer.Proofs.Server.Moments
import KeyValueServer.Proofs.Server.Execution
import KeyValueServer.Proofs.Server.Client
import KeyValueServer.Proofs.Server.Replies
import KeyValueServer.Proofs.Server.Serving
import KeyValueServer.Proofs.Server.Connections
import KeyValueServer.Proofs.Server.Attempts
import KeyValueServer.Proofs.Server.Consistency
import KeyValueServer.Proofs.Server.Cut
import KeyValueServer.Proofs.Server.Registrations
import KeyValueServer.Proofs.Keyspace.Expiry
import KeyValueServer.Proofs.Line
import KeyValueServer.Proofs.Numeral
import KeyValueServer.Proofs.Request.Grammar
import KeyValueServer.Proofs.Request.Acceptance
import KeyValueServer.Proofs.Request.Pipeline
import KeyValueServer.Proofs.Request.HeaderLimit
import KeyValueServer.Proofs.Text.Utf8
import KeyValueServer.Proofs.Keyspace.Deadlines
import KeyValueServer.Proofs.Reply.Framing
import KeyValueServer.Proofs.Reply.Refusals
import KeyValueServer.Proofs.Reactor.Interests
import KeyValueServer.Proofs.ByteQueue.History
import KeyValueServer.Proofs.Table.Sampling
import KeyValueServer.Proofs.Request.Session
import KeyValueServer.Proofs.Request.Progress
import KeyValueServer.Proofs.Sequence
import KeyValueServer.Proofs.Server.Serves
import KeyValueServer.Proofs.Reactor.Clock
import KeyValueServer.Proofs.Server.Clock
import KeyValueServer.Proofs.Json.Grammar
import KeyValueServer.Proofs.Json.Reader
import KeyValueServer.Proofs.Json.Writer
import KeyValueServer.Proofs.Text.Encoding
import KeyValueServer.Proofs.Json.Values
import KeyValueServer.Proofs.Settings
