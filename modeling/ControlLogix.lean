import ControlLogix.Library.LittleEndian
import ControlLogix.Library.Runs
import ControlLogix.Library.Trace
import ControlLogix.Library.Writes
import ControlLogix.Cip.ExplicitMessage
import ControlLogix.Eip.Exchange
import ControlLogix.Eip.Session
import ControlLogix.Machine.Callbacks
import ControlLogix.Machine.Leaving
import ControlLogix.Machine.Reconnect
import ControlLogix.Machine.Transitions
import ControlLogix.Machine.Wedge
import ControlLogix.Transport.TcpConnection
import ControlLogix.Machine.SlotReuse
import ControlLogix.Eip.Link
import ControlLogix.Machine.Framing
import ControlLogix.Machine.Isolation
import ControlLogix.Library.Packets
import ControlLogix.Cip.Reply
import ControlLogix.Machine.Recovery
import ControlLogix.Cip.Connection
import ControlLogix.Cip.ConnectedReply
import ControlLogix.Cip.MessageRun
import ControlLogix.Cip.ConnectionRun
import ControlLogix.Cip.ShortIo
import ControlLogix.Library.Dict
import ControlLogix.Server.SyntheticServer
import ControlLogix.Server.Dispatch
import ControlLogix.Eip.Carrier
import ControlLogix.Server.Answers
import ControlLogix.Server.ReadAfterWrite
import ControlLogix.Server.Connected
import ControlLogix.Server.Circuit
import ControlLogix.Machine.Pairing
import ControlLogix.Machine.Honoured
import ControlLogix.Machine.Enrolled
import ControlLogix.Cip.Encoders
import ControlLogix.Tag.Requests
import ControlLogix.Tag.Accessors
import ControlLogix.Tag.Received
import ControlLogix.Cip.Grammar
import ControlLogix.Cip.Failures
import ControlLogix.Eip.Registration
import ControlLogix.Eip.Steady
import ControlLogix.Library.Custody
import ControlLogix.Transport.Ethernet
import ControlLogix.Transport.Closing
import ControlLogix.Transport.Descriptors
import ControlLogix.Tag.Typed
import ControlLogix.Tag.Strings
import ControlLogix.Library.Clock
import ControlLogix.Machine.Deadlines
import ControlLogix.Library.Codewords
import ControlLogix.Sketch.ListTags
import ControlLogix.Library.Ledger
import ControlLogix.Machine.Pool
import ControlLogix.Eip.Hangup
import ControlLogix.Machine.Completion
import ControlLogix.Transport.Past
import ControlLogix.PlcClient.Blind
import ControlLogix.Machine.Undisturbed
import ControlLogix.Library.Struct
import ControlLogix.Server.Headers
import ControlLogix.Cip.Paths
import ControlLogix.Cip.Appended
import ControlLogix.Sketch.Hosts
import ControlLogix.Sketch.ListIdentity
import ControlLogix.Machine.Waits
import ControlLogix.Sketch.LanInventory
import ControlLogix.Library.Paging
import ControlLogix.Sketch.LanSteps
import ControlLogix.Sketch.LanScan
import ControlLogix.Sketch.LanProgress
import ControlLogix.Sketch.LanSockets
import ControlLogix.Server.Served
import ControlLogix.Sketch.TagRequests
import ControlLogix.Sketch.TagWalk
import ControlLogix.Sketch.TagSteps
import ControlLogix.Sketch.TagValues
import ControlLogix.Sketch.TagListing
import ControlLogix.Sketch.TagProgress
import ControlLogix.Machine.Settling
import ControlLogix.Sketch.LanIdentity
import ControlLogix.Sketch.TagPrints
import ControlLogix.Sketch.TagCatalog
import ControlLogix.Machine.Agreement

