import Srnp.Lib.Transition
import Srnp.PairSpace
import Srnp.PairSpaceView
import Srnp.Component
import Srnp.ComponentSpec
import Srnp.Node
import Srnp.PublishOrder
import Srnp.LateSubscriber
import Srnp.FrameChannel
import Srnp.QueueTrace
import Srnp.ChannelRun
import Srnp.Backpressure
import Srnp.ClientSession
import Srnp.Replica
import Srnp.Joining
import Srnp.Network
import Srnp.Forwarding
import Srnp.Reader
import Srnp.RoundTrip
import Srnp.Framing
import Srnp.RemoteWrite
import Srnp.Departure
import Srnp.Subscriptions
import Srnp.ClientRun
import Srnp.Registration
import Srnp.Cancellation
import Srnp.Lib.Probing
import Srnp.FromChars
import Srnp.MasterHub
import Srnp.OwnerIds
import Srnp.MasterLink
import Srnp.Membership
import Srnp.Coalescing
import Srnp.Drains
import Srnp.Fidelity
import Srnp.VisibleStore
import Srnp.CallbackOrder
import Srnp.MetaValue
import Srnp.CallbackTable
import Srnp.MetaTracker
import Srnp.MetaProcess
import Srnp.MetaHandles
import Srnp.MetaOwnership
import Srnp.MetaLifetime
import Srnp.MetaTargets
import Srnp.MetaFollow
import Srnp.CallbackRoster
import Srnp.OutboxIndex
import Srnp.PendingFrames
import Srnp.SubscriberLists
import Srnp.AllOrNothing
import Srnp.BadFrames
import Srnp.Lib.Cursor
import Srnp.SpanReader
import Srnp.SessionLife
import Srnp.RemoteCalls
import Srnp.Canonical
import Srnp.GuiFormat
import Srnp.Lib.Words
import Srnp.HexDump
import Srnp.BriefError
import Srnp.MetaRoundTrip
import Srnp.CurrentCallback
import Srnp.Indirection
import Srnp.Lib.LockOrder
import Srnp.Locking
import Srnp.Lib.ReadLoop
import Srnp.ServerLoop
import Srnp.Socket
import Srnp.Solicited
import Srnp.Lib.LogFeed
import Srnp.Mesh
import Srnp.Directory
import Srnp.Convergence
import Srnp.MasterStream
import Srnp.PairView
import Srnp.Restart
import Srnp.CommandLine
import Srnp.Startup
import Srnp.SharedView
import Srnp.PostForm
import Srnp.PostForm
