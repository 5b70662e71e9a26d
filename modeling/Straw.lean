import Straw.Lib.Run
import Straw.Lib.Tasks
import Straw.Lib.Spawned
import Straw.Lib.Resources
import Straw.Lib.LazyPool
import Straw.Lib.Table
import Straw.Lib.Word
import Straw.Lib.Outcome
import Straw.Lib.NetPrefix
import Straw.Lib.Framing
import Straw.Lib.Coalesce
import Straw.Lib.Handoff
import Straw.Lib.Splice
import Straw.Lib.Checksum
import Straw.Types
import Straw.Capsule.Codec
import Straw.Capsule.Varint
import Straw.Capsule.Basic
import Straw.Capsule.Wire
import Straw.Capsule.Encode
import Straw.Capsule.Buffer
import Straw.Capsule.Order
import Straw.Capsule.RoundTrip
import Straw.Datagram
import Straw.Client.Tunnel
import Straw.Forwarding.Packet
import Straw.Forwarding.Header
import Straw.Forwarding.Ttl
import Straw.Forwarding.Extension
import Straw.Forwarding.Vnet
import Straw.Forwarding.Offload
import Straw.Forwarding.Segment
import Straw.Forwarding.Tso
import Straw.Forwarding.Pump
import Straw.Forwarding.Icmp
import Straw.Forwarding.IcmpBuffer
import Straw.Forwarding.IcmpErrors
import Straw.Forwarding.Checksums
import Straw.Lib.TokenBucket
import Straw.Forwarding.RateLimit
import Straw.Forwarding.Denied
import Straw.Lib.History
import Straw.Forwarding.Lookup
import Straw.Forwarding.ClientRanges
import Straw.Forwarding.Limiter
import Straw.Forwarding.Router
import Straw.Forwarding.Engine
import Straw.Capsule.Merge
import Straw.Forwarding.Safety
import Straw.Forwarding.Ingress
import Straw.Forwarding.Accounting
import Straw.Forwarding.Hairpin
import Straw.AddressPool.Model
import Straw.Session.Routes
import Straw.AddressPool.Effects
import Straw.AddressPool.Invariant
import Straw.AddressPool.Runs
import Straw.AddressPool.Interleaving
import Straw.Session.Manager
import Straw.Session.Handler
import Straw.Session.Ownership
import Straw.Session.Operations
import Straw.Session.PoolRoutes
import Straw.Session.Ledger
import Straw.Session.Link
import Straw.Session.Wakeup
import Straw.Session.Teardown
import Straw.Session.Views
import Straw.Session.Limit
import Straw.Session.Attribution
import Straw.Session.Mtu
import Straw.Session.Delivery
import Straw.Session.Scope
import Straw.Client.Datapath
import Straw.Client.Setup
import Straw.UdpBind.Context
import Straw.UdpBind.Socket
import Straw.UdpBind.Handler
import Straw.UdpBind.Table
import Straw.UdpBind.Policy
import Straw.UdpBind.Relay
import Straw.UdpBind.Firewall
import Straw.UdpBind.Alloc
import Straw.UdpBind.AllocRuns
import Straw.UdpBind.Session
import Straw.UdpBind.Effects
import Straw.UdpBind.Release
import Straw.P2p.Lockdown
import Straw.P2p.Frames
import Straw.UdpBind.Mapped
import Straw.P2p.Negotiation
import Straw.P2p.Refinement
import Straw.P2p.Continuity
import Straw.P2p.Engage
import Straw.P2p.PathWatch
import Straw.Lib.Exchange
import Straw.Lib.Serving
import Straw.Lib.Text
import Straw.Lib.Base64
import Straw.Lib.Percent
import Straw.P2p.Stun.Codec
import Straw.P2p.Stun.Response
import Straw.P2p.Stun.Mapping
import Straw.P2p.Stun.Schedules
import Straw.P2p.Portmap.Codec
import Straw.P2p.Portmap.Schedules
import Straw.P2p.Portmap.Gateway
import Straw.Client.Bind
import Straw.Client.Handover
import Straw.P2p.PathMux
import Straw.P2p.Calls
import Straw.P2p.RelayRemote
import Straw.IpText
import Straw.Forwarding.Masquerade
import Straw.Forwarding.MasqueradeUndo
import Straw.Session.Auth
import Straw.IpParse
import Straw.Uri.Template
import Straw.Uri.Escapes
import Straw.Uri.Grammar
import Straw.Uri.RoundTrip
import Straw.Lib.UndoGuard
import Straw.Iface.Ranges
import Straw.Iface.Commands
import Straw.Iface.Configure
import Straw.Session.Request
import Straw.Session.Admission
import Straw.Config
import Straw.UdpBind.Server
import Straw.Session.Idle
import Straw.Client.Daemon
import Straw.P2p.Candidates
import Straw.P2p.Session
