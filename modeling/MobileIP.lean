import MobileIP.Library.LittleEndian
import MobileIP.Library.OnesComplement
import MobileIP.Library.VectorSearch
import MobileIP.Library.Runs
import MobileIP.Library.Custody
import MobileIP.Library.Climb
import MobileIP.Library.UndoLog
import MobileIP.Headers
import MobileIP.Checksum
import MobileIP.Packet
import MobileIP.MobileNode
import MobileIP.HomeAgent
import MobileIP.ForeignAgent
import MobileIP.Advertisement
import MobileIP.Visitors
import MobileIP.Messages
import MobileIP.Solicitation
import MobileIP.ProcessAdvertisements
import MobileIP.MobileRuns
import MobileIP.PendingRequests
import MobileIP.RequestLifetimes
import MobileIP.Restart
import MobileIP.Advertising
import MobileIP.Soliciting
import MobileIP.AgentTimers
import MobileIP.Discovery
import MobileIP.RoundTrip
import MobileIP.Lifetimes
import MobileIP.Integrity
import MobileIP.RelayRuns
import MobileIP.Network
import MobileIP.Agreement
import MobileIP.Homecoming
import MobileIP.Denials
import MobileIP.Tunnel
import MobileIP.Bindings
import MobileIP.Isolation
import MobileIP.HomeRuns
import MobileIP.RelayReplies
import MobileIP.Dispatch
import MobileIP.Releases
import MobileIP.Unreachable
import MobileIP.Timeouts
import MobileIP.Expiry
import MobileIP.Aging
import MobileIP.Renewal
import MobileIP.RouteTable
import MobileIP.Routing
import MobileIP.RouteCommands
import MobileIP.RouteRuns
import MobileIP.Forwarding
import MobileIP.Fragmentation
import MobileIP.GatewayOptions
import MobileIP.Router
import MobileIP.DataPath
import MobileIP.ReturnPath
import MobileIP.EchoExchange
import MobileIP.ARPTable
import MobileIP.ARPInvariant
import MobileIP.ARPQuerier
import MobileIP.ARPRuns
import MobileIP.ARPExchange
import MobileIP.Heap
import MobileIP.TimerSet
import MobileIP.TimerInvariant
import MobileIP.TimerRuns
