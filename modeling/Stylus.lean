import Stylus.Number.Form
import Stylus.Number.Reading
import Stylus.Text.Blank
import Stylus.Text.Utf8
import Stylus.Document.Json
import Stylus.Document.Lexeme
import Stylus.Document.Node
import Stylus.Document.Fault
import Stylus.Document.Scan
import Stylus.Document.Record
import Stylus.Script.Basic
import Stylus.Script.TimeSpec
import Stylus.Motion.Pose
import Stylus.Motion.Settings
import Stylus.Motion.Target
import Stylus.Protocol.Request
import Stylus.Protocol.Response
import Stylus.Run.Status
import Stylus.Path
import Stylus.Config.Level
import Stylus.Link.AckBuffer
import Stylus.Link.Backend
import Stylus.Motion.Controller
import Stylus.Run.Cursor
import Stylus.Bench.Basic
import Stylus.Simulation.Operator
import Stylus.Store.Basic
import Stylus.Store.Disk
import Stylus.Server.Basic
import Stylus.Simulation.Rig
import Stylus.Link.Dummy
import Stylus.Toml.Basic
import Stylus.Config.Search
import Stylus.Launch.Basic
import Stylus.Main
import Stylus.Proofs.Bench.Contact
import Stylus.Proofs.Motion.Guarded
import Stylus.Proofs.Bench.Failures
import Stylus.Proofs.Link.Wire
import Stylus.Proofs.Motion.Tracking
import Stylus.Proofs.Run.Layouts
import Stylus.Proofs.Run.Overflow
import Stylus.Proofs.Run.Lifecycle
import Stylus.Proofs.Run.Undisturbed
import Stylus.Proofs.Run.Wishes
import Stylus.Proofs.Server.Learned
import Stylus.Proofs.Server.Sessions
import Stylus.Proofs.Bench.Traffic
import Stylus.Proofs.Server.Refused
import Stylus.Proofs.Link.Exchanges
import Stylus.Proofs.Link.Lost
import Stylus.Proofs.Link.Outcome
import Stylus.Proofs.Motion.Courses
import Stylus.Proofs.Motion.Relinking
import Stylus.Proofs.Store.Catalogue
import Stylus.Proofs.Server.Conversation
import Stylus.Proofs.Server.Named
import Stylus.Proofs.Server.Confined
import Stylus.Proofs.Store.Listing
import Stylus.Proofs.Server.Launched
import Stylus.Proofs.Server.Spelt
import Stylus.Proofs.Protocol.Reread
import Stylus.Proofs.Script.Reread
import Stylus.Proofs.Server.Overlapping
import Stylus.Proofs.Run.Departures
import Stylus.Proofs.Link.Rounds
import Stylus.Proofs.Link.Startup
import Stylus.Proofs.Run.Strokes
import Stylus.Proofs.Run.Delays
import Stylus.Proofs.Run.Progress
import Stylus.Proofs.Run.Located
import Stylus.Proofs.Script.Spans
import Stylus.Proofs.Protocol.Alone
