import MonitoringDemos.Bytes
import MonitoringDemos.Bits
import MonitoringDemos.Text
import MonitoringDemos.Tokens
import MonitoringDemos.Writes
import MonitoringDemos.Flags
import MonitoringDemos.FlagNames
import MonitoringDemos.Ledger
import MonitoringDemos.Interleaving
import MonitoringDemos.Tiling
import MonitoringDemos.Rounding
import MonitoringDemos.Transition
import MonitoringDemos.Streams
import MonitoringDemos.SortedMap
import MonitoringDemos.FSEvents.Header
import MonitoringDemos.FSEvents.Parser
import MonitoringDemos.FSEvents.Wire
import MonitoringDemos.FSEvents.Framing
import MonitoringDemos.FSEvents.Payload
import MonitoringDemos.FSEvents.Bounds
import MonitoringDemos.FSEvents.ArgumentCap
import MonitoringDemos.FSEvents.Independence
import MonitoringDemos.FSEvents.Lookup
import MonitoringDemos.FSEvents.Mode
import MonitoringDemos.FSEvents.ProcName
import MonitoringDemos.FSEvents.StreamFlags
import MonitoringDemos.FSEvents.Session
import MonitoringDemos.EndpointSecurity.Messages
import MonitoringDemos.EndpointSecurity.Handler
import MonitoringDemos.EndpointSecurity.ReferenceMonitor
import MonitoringDemos.Kauth.Listener
import MonitoringDemos.Kauth.ActionString
import MonitoringDemos.Kauth.Calls
import MonitoringDemos.Kauth.ActionBuffer
import MonitoringDemos.Kauth.Lifecycle
import MonitoringDemos.Kauth.ActionNames
import MonitoringDemos.Kauth.Balance
import MonitoringDemos.Kauth.Asserts
import MonitoringDemos.Kauth.Traffic
import MonitoringDemos.IOKit.Monitor
import MonitoringDemos.IOKit.Ownership
import MonitoringDemos.IOKit.Lifecycle
import MonitoringDemos.DiskArbitration.Session
import MonitoringDemos.Kdebug.Tracer
import MonitoringDemos.Kdebug.CleanUp
import MonitoringDemos.Kdebug.Protocol
import MonitoringDemos.Kdebug.Exit
import MonitoringDemos.Kdebug.Record
import MonitoringDemos.Kdebug.Sampling
import MonitoringDemos.Kdebug.Output
import MonitoringDemos.OpenBSM.TokenWalk
import MonitoringDemos.OpenBSM.AuditPipe
import MonitoringDemos.Kevent.EventLoop
import MonitoringDemos.Kevent.FlagString
import MonitoringDemos.Kevent.Session
import MonitoringDemos.Tools.Time
import MonitoringDemos.Tools.FlagStrings
import MonitoringDemos.Tools.AccessFlags
import MonitoringDemos.Common.Logger
import MonitoringDemos.Common.Journal
import MonitoringDemos.Common.SignalHandler
import MonitoringDemos.EndpointSecurity.Stream
import MonitoringDemos.EndpointSecurity.Shutdown
import MonitoringDemos.EndpointSecurity.Printing
import MonitoringDemos.EndpointSecurity.Log
import MonitoringDemos.EndpointSecurity.Overblocking
import MonitoringDemos.EndpointSecurity.Mediation
