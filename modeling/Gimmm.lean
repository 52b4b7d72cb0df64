import Gimmm.Lib.Prog
import Gimmm.Lib.Run
import Gimmm.Lib.MapCount
import Gimmm.Lib.Xml
import Gimmm.Lib.Framing
import Gimmm.Lib.Decimal
import Gimmm.Message.Json
import Gimmm.Message.Backoff
import Gimmm.Message.Basic
import Gimmm.Manager.Basic
import Gimmm.Manager.Index
import Gimmm.Manager.Update
import Gimmm.Store.Database
import Gimmm.Store.Columns
import Gimmm.Server.Basic
import Gimmm.Server.Handlers
import Gimmm.Server.Step
import Gimmm.Server.Frames
import Gimmm.Fcm.Connection
import Gimmm.Fcm.Stanzas
import Gimmm.Fcm.Cuts
import Gimmm.Fcm.Bounds
import Gimmm.Fcm.Layout
import Gimmm.Fcm.Chunks
import Gimmm.Fcm.Twins
import Gimmm.Fcm.Unknown
import Gimmm.Fcm.Handshake
import Gimmm.Flow.Books
import Gimmm.Flow.Act
import Gimmm.Flow.Base
import Gimmm.Flow.Rules
import Gimmm.Flow.Sessions
import Gimmm.Flow.Fcm
import Gimmm.Flow.Simulation
import Gimmm.Flow.Frame
import Gimmm.Flow.Exact
import Gimmm.Flow.Links
import Gimmm.Flow.Sources
import Gimmm.Flow.Writes
import Gimmm.Flow.Wiring
import Gimmm.Guarantees.Persist
import Gimmm.Guarantees.Lifecycle
import Gimmm.Guarantees.Notice
import Gimmm.Guarantees.Slots
import Gimmm.Guarantees.Agreement
import Gimmm.Guarantees.Envelopes
import Gimmm.Guarantees.Recovery
import Gimmm.Guarantees.Order
import Gimmm.Guarantees.Window
import Gimmm.Guarantees.Once
import Gimmm.Guarantees.Ids
import Gimmm.Guarantees.Stranded
import Gimmm.Guarantees.Timely
import Gimmm.Guarantees.Timers
import Gimmm.Guarantees.Chunks
import Gimmm.Guarantees.Reconnect
import Gimmm.Guarantees.Queues
import Gimmm.Guarantees.Resend
import Gimmm.Guarantees.Repeats
import Gimmm.Guarantees.Routes
import Gimmm.Guarantees.Channels
import Gimmm.Guarantees.Unknown
import Gimmm.Guarantees.Delivery
import Gimmm.Guarantees.Provenance
import Gimmm.Guarantees.Bindings
import Gimmm.Guarantees.Logons
import Gimmm.Guarantees.Authenticated
import Gimmm.Guarantees.Insertion
import Gimmm.Guarantees.Limits
import Gimmm.Guarantees.Backoffs
import Gimmm.Guarantees.Retries
import Gimmm.Guarantees.Echoes
import Gimmm.Guarantees.Streams
import Gimmm.Guarantees.Walks
import Gimmm.Guarantees.Stops
import Gimmm.Guarantees.Survival
import Gimmm.Guarantees.Progress
import Gimmm.Guarantees.Custody
import Gimmm.Guarantees.Handshake
