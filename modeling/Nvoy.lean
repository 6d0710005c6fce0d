import Nvoy.Lib.Lines
import Nvoy.Lib.Json
import Nvoy.Lib.JsMap
import Nvoy.Lib.StableSort
import Nvoy.Lib.Registers
import Nvoy.Nostr.Event
import Nvoy.Admission.GrantFold
import Nvoy.Admission.Slots
import Nvoy.Admission.Result
import Nvoy.Admission.Soundness
import Nvoy.Admission.Revocation
import Nvoy.Admission.Order
import Nvoy.Lib.Checks
import Nvoy.Lib.JsSet
import Nvoy.Lib.Utf8
import Nvoy.Memory.Claim
import Nvoy.Store.Config
import Nvoy.Store.Ledger
import Nvoy.Store.Database
import Nvoy.Store.Reconcile
import Nvoy.Store.Write
import Nvoy.Store.System
import Nvoy.Store.Recorded
import Nvoy.Store.Recovery
import Nvoy.Store.Swap
import Nvoy.Store.Serving
import Nvoy.Store.Heads
import Nvoy.Lib.Runs
import Nvoy.Store.Lock
import Nvoy.Grants.Cascade
import Nvoy.Grants.Budget
import Nvoy.Grants.Writers
import Nvoy.Console.Ledger
import Nvoy.Console.Rotation
import Nvoy.Console.Terms
import Nvoy.Console.Notices
import Nvoy.Admission.Capabilities
import Nvoy.Grants.Held
import Nvoy.Admission.Agreement
import Nvoy.Admission.Coverage
import Nvoy.Admission.Invocation
import Nvoy.Store.Barrier
import Nvoy.Store.Commits
import Nvoy.Store.Retention
import Nvoy.Store.Rate
import Nvoy.Store.Backup
import Nvoy.Broker.Sources
import Nvoy.Grants.GrantBack
import Nvoy.Broker.AdmittedTask
import Nvoy.Broker.AdmittedQueue
import Nvoy.Broker.Adapter
import Nvoy.Broker.Attention
import Nvoy.Broker.Packets
import Nvoy.Broker.Wrapped
import Nvoy.Codex.AppServer
import Nvoy.Codex.DesktopAdapter
import Nvoy.Lib.Cursor
import Nvoy.Codex.PortableHarness
import Nvoy.Broker.BuzzNative
import Nvoy.Broker.Limits
import Nvoy.Broker.Native
import Nvoy.Broker.Hops
import Nvoy.Broker.PidLock
import Nvoy.Watch.Files
import Nvoy.Watch.Keyless
import Nvoy.Watch.Buzz
import Nvoy.Mcp.Tap
import Nvoy.Deploy.Runner
import Nvoy.Deploy.Quiet
import Nvoy.Deploy.Unwind
import Nvoy.Lib.Torn
import Nvoy.Broker.Approval
import Nvoy.Broker.Outbound
import Nvoy.Broker.Reply
import Nvoy.Broker.Mentions
import Nvoy.Broker.Post
import Nvoy.Lib.Levels
import Nvoy.Store.Query
import Nvoy.Store.Conflict
import Nvoy.Store.FactKeys
import Nvoy.Lib.Sizes
import Nvoy.Watch.Webhook
import Nvoy.Console.Inbox
import Nvoy.Grants.Served
import Nvoy.Admission.MemoryFold
import Nvoy.Console.Endings
import Nvoy.Console.Republish
import Nvoy.Broker.Rooms
import Nvoy.Memory.Builders
import Nvoy.Store.Withdrawal
import Nvoy.Broker.Remember
import Nvoy.Store.Remembered
import Nvoy.Broker.DmChannels
import Nvoy.Broker.Windows
import Nvoy.Broker.LineFollower
import Nvoy.Broker.Profile
import Nvoy.Grants.Scopes
import Nvoy.Mcp.HttpsDoor
import Nvoy.Codex.WsFollows
import Nvoy.Broker.StatusKeeps
import Nvoy.Identity.Reservation
import Nvoy.Identity.Confined
import Nvoy.Deploy.Estate
import Nvoy.Deploy.Applied
import Nvoy.Watch.Notifies
import Nvoy.Console.Access
import Nvoy.Mcp.Reconnect
import Nvoy.Store.Hidden
