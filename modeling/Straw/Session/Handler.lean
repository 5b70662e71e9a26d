import Straw.AddressPool.Runs
import Straw.Forwarding.Engine
import Straw.Lib.Tasks
import Straw.Session.Manager

/-!
# The proxy server

One task per CONNECT-IP session takes the steps of `run_tunnel`, `handle_capsule` and
the teardown of `handle_connect_ip_stream`; the datagram demultiplexers of the
connections and the idle reaper step in between. The operations on the pool, the
engine and the session table are atomic. Whether an awaited send or receive succeeds
is part of the step's label.

There is one task for each session id, so two live sessions never have the same one. The ids
tell requests apart for the first 2 ^ 24 connections and streams below 2 ^ 40, as
`Session.Attribution` shows; what follows a collision is not in the runs.
-/

namespace Straw

open Outcome Codec Transition
set_option autoImplicit false

structure ProxyConfig where
  mtu : Nat
  acceptClientRoutes : Bool
  /-- The prefix cover computed by the `ipnet` crate. -/
  subnets : IpAddr → IpAddr → List IpNet

structure Server where
  config : ProxyConfig
  pool : AddressPool
  engine : ForwardingEngine
  traffic : Traffic
  sessions : SessionManager

namespace Server

def updateRoutes (srv : Server) (f : RouteTable → RouteTable) : Server :=
  { srv with engine := { srv.engine with routeTable := f srv.engine.routeTable } }

def insertClientAddr (srv : Server) (addr : IpAddr) (s : SessionId) : Server :=
  srv.updateRoutes fun routes => routes.insertClientAddr addr s

def registerSession (srv : Server) (s : SessionId) (sink : SessionSink) (policy : EgressPolicy)
    (mtu now : Nat) : Server :=
  { srv with
    engine := { srv.engine with
      sessionSinks := srv.engine.sessionSinks.insert s sink
      policies := srv.engine.policies.insert s policy
      sessionMtus := srv.engine.sessionMtus.insert s mtu }
    traffic := { srv.traffic with
      limiters := if srv.engine.limits.isUnlimited then srv.traffic.limiters
        else srv.traffic.limiters.insert s (SessionLimiter.new srv.engine.limits now) } }

def unregisterSession (srv : Server) (s : SessionId) : Server :=
  { srv with
    engine := { srv.engine with
      sessionSinks := srv.engine.sessionSinks.remove s
      policies := srv.engine.policies.remove s
      sessionMtus := srv.engine.sessionMtus.remove s }
    traffic := { srv.traffic with limiters := srv.traffic.limiters.remove s } }

def effectiveMtu (srv : Server) (maxDatagramSize : Option Nat) (qsid : UInt64) : Nat :=
  match maxDatagramSize.bind fun max => maxIpPacketSize max qsid with
  | some capacity => min capacity srv.config.mtu
  | none => srv.config.mtu

/-- The MTU cell is shared with the engine, so a refresh shows there while registered. -/
def refreshMtu (srv : Server) (s : SessionId) (mtu : Nat) : Server :=
  match srv.engine.sessionMtus s with
  | some _ =>
    { srv with engine := { srv.engine with sessionMtus := srv.engine.sessionMtus.insert s mtu } }
  | none => srv

/-- A client's route advertisement: installed when the operator opted in, recorded always. -/
def adoptRoutes (srv : Server) (s : SessionId) (ranges : List IpAddressRange) : Server :=
  let srv :=
    if srv.config.acceptClientRoutes then
      let entries := entriesFromClientRanges srv.config.subnets s ranges srv.pool.poolNets
      srv.updateRoutes fun routes => routes.replaceSessionRoutes s entries
    else srv
  { srv with sessions := srv.sessions.setClientRoutes s ranges }

end Server

structure Tunnel where
  qsid : UInt64
  conn : DatagramConn
  routes : List IpAddressRange

/-- The capsules of the current chunk that are still to handle, and whether the chunk ends
without a decoding error. -/
structure Pending where
  capsules : List Capsule
  ok : Bool

inductive Stage where
  | idle
  /-- `run_tunnel` up to its loop; `assigned` is the local list of addresses. -/
  | accept (t : Tunnel)
  | allocateV4 (t : Tunnel)
  | allocateV6 (t : Tunnel) (assigned : List AssignedAddress)
  | sendAssign (t : Tunnel) (assigned : List AssignedAddress)
  | sendRoutes (t : Tunnel) (assigned : List AssignedAddress)
  | install (t : Tunnel) (assigned rest : List AssignedAddress)
  | register (t : Tunnel) (assigned : List AssignedAddress)
  | publish (t : Tunnel) (assigned : List AssignedAddress)
  | loop (t : Tunnel) (assigned : List AssignedAddress)
  /-- `handle_capsule`, with the requests of an ADDRESS_REQUEST one by one. -/
  | capsules (t : Tunnel) (assigned : List AssignedAddress) (pending : Pending)
  | request (t : Tunnel) (assigned : List AssignedAddress) (requests : List RequestedAddress)
      (pending : Pending)
  | installOne (t : Tunnel) (assigned : List AssignedAddress) (a : AssignedAddress)
      (requests : List RequestedAddress) (pending : Pending)
  | reply (t : Tunnel) (assigned : List AssignedAddress) (pending : Pending)
  | release
  | removeRoutes
  | unregister
  | remove

inductive HandlerAct where
  /-- A valid, authenticated request whose routes have been resolved. -/
  | start (connSeq streamId : UInt64) (conn : DatagramConn) (routes : List IpAddressRange) (now : Nat)
  /-- The step at hand at time `now`; `ok` is the outcome of what it awaits. -/
  | tick (ok : Bool) (now : Nat)
  | chunk (pending : Pending)
  /-- The stream ends or fails, or the session was unregistered. -/
  | close
  | refreshMtu (maxDatagramSize : Option Nat)

namespace Stage

def orTeardown (ok : Bool) (next : Stage) : Stage := if ok then next else .release

def handleCapsule (srv : Server) (s : SessionId) (t : Tunnel) (assigned : List AssignedAddress)
    (pending : Pending) : Capsule → Server × Stage
  | .addressRequest requests => (srv, .request t assigned requests pending)
  | .routeAdvertisement ranges => (srv.adoptRoutes s ranges, .capsules t assigned pending)
  | .addressAssign addrs =>
    ({ srv with sessions := srv.sessions.setProxyAddresses s addrs }, .capsules t assigned pending)
  | .unknown _ _ => (srv, .capsules t assigned pending)

def tick (s : SessionId) (ok : Bool) (now : Nat) (srv : Server) : Stage → Option (Server × Stage)
  | .idle => none
  | .loop _ _ => none
  | .accept t => some (srv, orTeardown ok (.allocateV4 t))
  | .allocateV4 t =>
    let (a, pool) := srv.pool.allocateV4 s
    some ({ srv with pool }, .allocateV6 t a.toList)
  | .allocateV6 t assigned =>
    let (a, pool) := srv.pool.allocateV6 s
    let assigned := assigned ++ a.toList
    -- with nothing to assign the tunnel ends here
    some ({ srv with pool }, if assigned.isEmpty then .release else .sendAssign t assigned)
  | .sendAssign t assigned => some (srv, orTeardown ok (.sendRoutes t assigned))
  | .sendRoutes t assigned => some (srv, orTeardown ok (.install t assigned assigned))
  | .install t assigned [] => some (srv, .register t assigned)
  | .install t assigned (a :: rest) =>
    some (srv.insertClientAddr a.ipAddress s, .install t assigned rest)
  | .register t assigned =>
    let mtu := srv.effectiveMtu t.conn.maxDatagramSize t.qsid
    some (srv.registerSession s (.datagram t.conn t.qsid) ⟨t.routes⟩ mtu now, .publish t assigned)
  | .publish t assigned =>
    some ({ srv with sessions := srv.sessions.setAssigned s assigned }, .loop t assigned)
  | .capsules t assigned ⟨[], true⟩ =>
    some ({ srv with sessions := srv.sessions.touch s now }, .loop t assigned)
  | .capsules _ _ ⟨[], false⟩ => some (srv, .release)
  | .capsules t assigned ⟨capsule :: rest, ok⟩ =>
    some (handleCapsule srv s t assigned ⟨rest, ok⟩ capsule)
  | .request t assigned [] pending =>
    some ({ srv with sessions := srv.sessions.setAssigned s assigned },
      .reply t assigned pending)
  | .request t assigned (r :: requests) pending =>
    match srv.pool.allocateForRequest s r with
    | (some a, pool) => some ({ srv with pool }, .installOne t assigned a requests pending)
    | (none, pool) => some ({ srv with pool }, .request t assigned requests pending)
  | .installOne t assigned a requests pending =>
    some (srv.insertClientAddr a.ipAddress s, .request t (assigned ++ [a]) requests pending)
  | .reply t assigned pending => some (srv, orTeardown ok (.capsules t assigned pending))
  | .release => some ({ srv with pool := srv.pool.release s }, .removeRoutes)
  | .removeRoutes => some (srv.updateRoutes fun routes => routes.removeSession s, .unregister)
  | .unregister => some (srv.unregisterSession s, .remove)
  | .remove => some ({ srv with sessions := srv.sessions.remove s }, .idle)

/-- What one step of a stage does, branch by branch. -/
inductive Ticks (s : SessionId) (ok : Bool) (now : Nat) (srv : Server) :
    Stage → Server → Stage → Prop
  | accept (t) : Ticks s ok now srv (.accept t) srv (orTeardown ok (.allocateV4 t))
  | allocateV4 (t) : Ticks s ok now srv (.allocateV4 t)
      { srv with pool := (srv.pool.allocateV4 s).2 }
      (.allocateV6 t (srv.pool.allocateV4 s).1.toList)
  | allocateV6 (t assigned) : Ticks s ok now srv (.allocateV6 t assigned)
      { srv with pool := (srv.pool.allocateV6 s).2 }
      (if (assigned ++ (srv.pool.allocateV6 s).1.toList).isEmpty then .release
      else .sendAssign t (assigned ++ (srv.pool.allocateV6 s).1.toList))
  | sendAssign (t assigned) : Ticks s ok now srv (.sendAssign t assigned) srv
      (orTeardown ok (.sendRoutes t assigned))
  | sendRoutes (t assigned) : Ticks s ok now srv (.sendRoutes t assigned) srv
      (orTeardown ok (.install t assigned assigned))
  | installed (t assigned) : Ticks s ok now srv (.install t assigned []) srv
      (.register t assigned)
  | install (t assigned a rest) : Ticks s ok now srv (.install t assigned (a :: rest))
      (srv.insertClientAddr a.ipAddress s) (.install t assigned rest)
  | register (t assigned) : Ticks s ok now srv (.register t assigned)
      (srv.registerSession s (.datagram t.conn t.qsid) ⟨t.routes⟩
        (srv.effectiveMtu t.conn.maxDatagramSize t.qsid) now) (.publish t assigned)
  | publish (t assigned) : Ticks s ok now srv (.publish t assigned)
      { srv with sessions := srv.sessions.setAssigned s assigned } (.loop t assigned)
  | drained (t assigned) : Ticks s ok now srv (.capsules t assigned ⟨[], true⟩)
      { srv with sessions := srv.sessions.touch s now } (.loop t assigned)
  | broken (t assigned) : Ticks s ok now srv (.capsules t assigned ⟨[], false⟩) srv .release
  | capsule (t assigned capsule rest chunkOk) :
      Ticks s ok now srv (.capsules t assigned ⟨capsule :: rest, chunkOk⟩)
        (handleCapsule srv s t assigned ⟨rest, chunkOk⟩ capsule).1
        (handleCapsule srv s t assigned ⟨rest, chunkOk⟩ capsule).2
  | answer (t assigned pending) : Ticks s ok now srv (.request t assigned [] pending)
      { srv with sessions := srv.sessions.setAssigned s assigned } (.reply t assigned pending)
  | grant (t assigned r requests pending) {a pool}
      (hr : srv.pool.allocateForRequest s r = (some a, pool)) :
      Ticks s ok now srv (.request t assigned (r :: requests) pending) { srv with pool }
        (.installOne t assigned a requests pending)
  | deny (t assigned r requests pending) {pool}
      (hr : srv.pool.allocateForRequest s r = (none, pool)) :
      Ticks s ok now srv (.request t assigned (r :: requests) pending) { srv with pool }
        (.request t assigned requests pending)
  | installOne (t assigned a requests pending) :
      Ticks s ok now srv (.installOne t assigned a requests pending)
        (srv.insertClientAddr a.ipAddress s) (.request t (assigned ++ [a]) requests pending)
  | reply (t assigned pending) : Ticks s ok now srv (.reply t assigned pending) srv
      (orTeardown ok (.capsules t assigned pending))
  | release : Ticks s ok now srv .release { srv with pool := srv.pool.release s } .removeRoutes
  | removeRoutes : Ticks s ok now srv .removeRoutes
      (srv.updateRoutes fun routes => routes.removeSession s) .unregister
  | unregister : Ticks s ok now srv .unregister (srv.unregisterSession s) .remove
  | remove : Ticks s ok now srv .remove { srv with sessions := srv.sessions.remove s } .idle

theorem tick_cases {s : SessionId} {ok : Bool} {now : Nat} {srv srv' : Server}
    {stage stage' : Stage} (h : stage.tick s ok now srv = some (srv', stage')) :
    Ticks s ok now srv stage srv' stage' := by
  unfold tick at h
  split at h
  case h_1 | h_2 => cases h
  case h_16 =>
    -- the pool grants the request or denies it
    split at h
    · next hr =>
      obtain ⟨rfl, rfl⟩ := Prod.mk.inj (Option.some.inj h)
      exact .grant _ _ _ _ _ hr
    · next hr =>
      obtain ⟨rfl, rfl⟩ := Prod.mk.inj (Option.some.inj h)
      exact .deny _ _ _ _ _ hr
  all_goals
    obtain ⟨rfl, rfl⟩ := Prod.mk.inj (Option.some.inj h)
    constructor

end Stage

def handle (s : SessionId) : HandlerAct → Server → Stage → Option (Server × Stage)
  | .start connSeq streamId conn routes now, srv, .idle =>
    if SessionId.compose connSeq streamId = s then
      match srv.sessions.insert ⟨s, [], routes, [], [], now⟩ with
      | some sessions =>
        some ({ srv with sessions }, .accept ⟨quarterStreamId streamId, conn, routes⟩)
      | none => some (srv, .idle)
    else none
  | .tick ok now, srv, stage => stage.tick s ok now srv
  | .chunk pending, srv, .loop t assigned => some (srv, .capsules t assigned pending)
  | .close, srv, .loop _ _ => some (srv, .release)
  | .refreshMtu max, srv, .loop t assigned =>
    some (srv.refreshMtu s (srv.effectiveMtu max t.qsid), .loop t assigned)
  | _, _, _ => none

/-- What an action of the session's own handler does. -/
inductive Handles (s : SessionId) (srv : Server) : HandlerAct → Stage → Server → Stage → Prop
  | start (connSeq streamId conn routes now) {sessions}
      (hid : SessionId.compose connSeq streamId = s)
      (hinsert : srv.sessions.insert ⟨s, [], routes, [], [], now⟩ = some sessions) :
      Handles s srv (.start connSeq streamId conn routes now) .idle { srv with sessions }
        (.accept ⟨quarterStreamId streamId, conn, routes⟩)
  | full (connSeq streamId conn routes now) (hid : SessionId.compose connSeq streamId = s)
      (hinsert : srv.sessions.insert ⟨s, [], routes, [], [], now⟩ = none) :
      Handles s srv (.start connSeq streamId conn routes now) .idle srv .idle
  | tick {ok now stage srv' stage'} (h : stage.Ticks s ok now srv srv' stage') :
      Handles s srv (.tick ok now) stage srv' stage'
  | chunk (pending t assigned) : Handles s srv (.chunk pending) (.loop t assigned) srv
      (.capsules t assigned pending)
  | close (t assigned) : Handles s srv .close (.loop t assigned) srv .release
  | refreshMtu (max t assigned) : Handles s srv (.refreshMtu max) (.loop t assigned)
      (srv.refreshMtu s (srv.effectiveMtu max t.qsid)) (.loop t assigned)

theorem handle_cases {s : SessionId} {act : HandlerAct} {srv srv' : Server} {stage stage' : Stage}
    (h : handle s act srv stage = some (srv', stage')) : Handles s srv act stage srv' stage' := by
  unfold handle at h
  split at h
  · split at h
    · next hid =>
      split at h
      · next hinsert =>
        obtain ⟨rfl, rfl⟩ := Prod.mk.inj (Option.some.inj h)
        exact .start _ _ _ _ _ hid hinsert
      · next hinsert =>
        obtain ⟨rfl, rfl⟩ := Prod.mk.inj (Option.some.inj h)
        exact .full _ _ _ _ _ hid hinsert
    · cases h
  · exact .tick (Stage.tick_cases h)
  case h_6 => cases h
  all_goals
    obtain ⟨rfl, rfl⟩ := Prod.mk.inj (Option.some.inj h)
    constructor

structure Received where
  connSeq : UInt64
  wire : Bytes
  /-- Whether a UDP bind session is registered under the datagram's session id. -/
  bound : Bool
  now : Nat

def Received.toForward (d : Received) : Option (SessionId × Bytes) :=
  if d.bound then none
  else
    match decodeQuicDatagram d.wire with
    | .error _ => none
    | .ok (qsid, datagram) =>
      if datagram.contextId ≠ contextIdIpPacket then none
      else some (SessionId.compose d.connSeq (UInt64.ofNat (qsid * 4)), datagram.payload)

namespace Server

def forward (srv : Server) (s : SessionId) (packet : Bytes) (now : Nat) :
    Option (Outcome ForwardingError Forwarded × Traffic) :=
  (srv.sessions.assignedSnapshot s).map fun assigned =>
    (srv.engine.forwardFromClient s assigned packet now).exec srv.traffic

/-- One iteration of `run_datagram_demux`. -/
def demux (srv : Server) (d : Received) : Server :=
  match d.toForward with
  | none => srv
  | some (s, packet) =>
    match srv.forward s packet d.now with
    | none => srv
    | some (.ok _, traffic) =>
      { srv with traffic, sessions := srv.sessions.touch s d.now }
    -- a panic also ends the loop of the connection; here other datagrams may follow it
    | some (.error _, traffic) => { srv with traffic }

end Server

/-- What happens besides the session tasks: a datagram, or the reaper closing a session. -/
inductive Background where
  | datagram (d : Received)
  | reap (s : SessionId)

def background : Background → Server → Option Server
  | .datagram d, srv => some (srv.demux d)
  | .reap s, srv => some (srv.unregisterSession s)

/-- The tasks are those of live sessions, which have distinct ids. -/
abbrev ServerSys := Tasks SessionId Server Stage

abbrev ServerLabel := Tasks.Label SessionId HandlerAct Background

def serverStep : ServerSys → ServerLabel → Option ServerSys := Tasks.step handle background

def Server.initial (config : ProxyConfig) (ipv4 : Ipv4Net) (ipv6 : Option Ipv6Net)
    (tunTx : Option (Bytes → Bool)) (icmpSource : IcmpSource) (limits : RateLimits)
    (maxSessions : Nat) : ServerSys where
  shared :=
    { config
      pool := AddressPool.new ipv4 ipv6
      engine :=
        { routeTable := RouteTable.new
          sessionSinks := Table.empty
          policies := Table.empty
          sessionMtus := Table.empty
          tunTx, mtu := config.mtu, icmpSource, limits }
      traffic := ⟨Table.empty, fun _ => 0, []⟩
      sessions := SessionManager.new maxSessions }
  task := fun _ => .idle

end Straw
