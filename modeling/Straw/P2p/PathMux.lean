import Straw.Client.Bind
import Straw.P2p.Lockdown

/-!
# The relay remote of a multiplexed socket

A `PathMuxSocket` carries a relay tunnel and a direct socket at once and routes a
transmit by its destination. The address that is tunnelled is shared by the receive half,
the senders and the lockdown. Any number of `engage` calls may be under way.
-/

namespace Straw

open Transition Outcome Codec
set_option autoImplicit false

structure RecvMeta where
  addr : SocketAddr
  len : Nat
  stride : Nat
  dstIp : Option IpAddr
deriving DecidableEq

def mkMeta (addr : SocketAddr) (len : Nat) (dstIp : IpAddr) : RecvMeta :=
  ⟨addr, len, len, some dstIp⟩

/-- What the direct socket has ready. -/
inductive DirectReady where
  | datagram (src : SocketAddr) (payload : Bytes)
  | error

inductive PollRecv where
  | ready (metas : List RecvMeta)
  | brokenPipe (message : String)
  | pending
deriving DecidableEq

structure Transmit where
  destination : SocketAddr
  contents : Bytes
deriving DecidableEq

inductive Sent where
  | tunnel (wire : Bytes)
  | dropped
  | direct (transmit : Transmit)
deriving DecidableEq

structure PathMux where
  qsid : UInt64
  localAddr : SocketAddr
  directLocal : SocketAddr
  relayRemotes : List SocketAddr
  lockdown : RelayLockdown
  /-- The `engage` calls, numbered in no particular order. -/
  calls : Nat → Engage
  directRx : List DirectReady
  relayRx : List (SocketAddr × Bytes)
  /-- The pump has returned. -/
  ended : Bool
  /-- The datagrams of the pump that `poll_recv` has delivered so far. -/
  delivered : List (SocketAddr × Bytes)

namespace PathMux

def channelDepth : Nat := 256

/-- `mux_endpoint`, on the parts of a session whose handshake is over. -/
def muxEndpoint (qsid : UInt64) (localAddr directLocal : SocketAddr)
    (relayPeer : Option SocketAddr) : PathMux where
  qsid := qsid
  localAddr := localAddr
  directLocal := directLocal
  relayRemotes := relayPeer.toList
  lockdown := ⟨LockdownSys.uncompressedOnly, []⟩
  calls := fun _ => .idle
  directRx := []
  relayRx := []
  ended := false
  delivered := []

section Halves

def pollSend (s : PathMux) (transmit : Transmit) : Outcome ContextError Sent :=
  if transmit.destination ∈ s.relayRemotes then do
    match ← frameBind s.qsid s.lockdown.contexts transmit.destination transmit.contents with
    | none => .ok .dropped
    | some wire => .ok (.tunnel wire)
  else .ok (.direct transmit)

/-- Drain the direct socket into the buffers, up to an error. -/
def recvDirect (dstIp : IpAddr) :
    List Nat → List DirectReady → List RecvMeta × List Nat × List DirectReady
  | [], ready => ([], [], ready)
  | bufs, [] => ([], bufs, [])
  | bufs, .error :: ready => ([], bufs, ready)
  | buf :: bufs, .datagram src payload :: ready =>
    let r := recvDirect dstIp bufs ready
    (mkMeta src (min payload.length buf) dstIp :: r.1, r.2)

/-- Only the first source is learned. -/
def learn (relayRemotes : List SocketAddr) (src : SocketAddr) : List SocketAddr :=
  if relayRemotes = [] then [src] else relayRemotes

/-- Drain the channel of the pump into the buffers that are left. -/
def recvRelay (s : PathMux) : List Nat → List RecvMeta × List Nat × PathMux
  | [] => ([], [], s)
  | buf :: bufs =>
    match s.relayRx with
    | [] => ([], buf :: bufs, s)
    | (src, payload) :: rest =>
      let r := recvRelay { s with
        relayRemotes := learn s.relayRemotes src
        relayRx := rest
        delivered := s.delivered ++ [(src, payload)] } bufs
      (mkMeta src (min payload.length buf) s.localAddr.ip :: r.1, r.2)

def pollRecv (s : PathMux) (bufs : List Nat) : PollRecv × PathMux :=
  let direct := recvDirect s.directLocal.ip bufs s.directRx
  let relay := recvRelay { s with directRx := direct.2.2 } direct.2.1
  let metas := direct.1 ++ relay.1
  let result :=
    if metas = [] then
      -- the channel is closed once the pump has returned and it is empty
      if relay.2.1 ≠ [] ∧ s.ended = true then .brokenPipe "relay session closed" else .pending
    else .ready metas
  (result, relay.2.2)

end Halves

section Calls

def setCall (s : PathMux) (i : Nat) (r : RelayLockdown × Engage) : PathMux :=
  { s with lockdown := r.1, calls := Function.update s.calls i r.2 }

theorem setCall_self (s : PathMux) (i : Nat) (r : RelayLockdown × Engage) :
    (s.setCall i r).calls i = r.2 := by
  simp only [setCall, Function.update_self]

theorem setCall_of_ne (s : PathMux) {i j : Nat} (h : j ≠ i) (r : RelayLockdown × Engage) :
    (s.setCall i r).calls j = s.calls j := by
  simp only [setCall, Function.update_of_ne h]

/-- A capsule is not queued once the pump is gone. The queue is empty then, so none was
refused for want of room. -/
def offer (s : PathMux) (r : RelayLockdown × Engage) : RelayLockdown × Engage :=
  match s.ended, r.2 with
  | true, .waiting .. | true, .closing .. =>
    ({ r.1 with capsules := [] }, .fails "capsule queue: channel closed")
  | _, _ => r

def peer (s : PathMux) : Option SocketAddr := s.relayRemotes.head?

end Calls

end PathMux

inductive MuxAct where
  | directReady (e : DirectReady)
  | pollRecv (bufs : List Nat)
  | pollSend (transmit : Transmit)
  | engage (i : Nat)
  | observe (i : Nat)
  | timeout (i : Nat)
  | abandon (i : Nat)
  | sendClose (i : Nat)
  | closeLocal (i : Nat)
  | pumpDatagram (wire : Bytes)
  | pumpCapsule (capsule : Capsule)
  | pumpSend
  | pumpReturn

namespace PathMux

/-- The pump decodes a datagram against the table and hands it on if there is room. -/
def pumpDatagram (s : PathMux) (wire : Bytes) : PathMux :=
  match readVarint wire with
  | .error _ => s
  | .ok (got, body) =>
    if got ≠ s.qsid.toNat then s
    else
      match s.lockdown.contexts.decodeDatagram body with
      | .error _ => s
      | .ok dg =>
        if s.relayRx.length < channelDepth then
          { s with relayRx := s.relayRx ++ [(dg.remote, dg.payload)] }
        else s

def step (s : PathMux) : MuxAct → Option PathMux
  | .directReady e => some { s with directRx := s.directRx ++ [e] }
  | .pollRecv bufs => some (s.pollRecv bufs).2
  | .pollSend _ => some s
  | .engage i =>
    match s.calls i with
    | .idle => some (s.setCall i (s.offer (s.lockdown.propose s.peer)))
    | _ => none
  | .observe i =>
    match s.calls i with
    | .waiting peer assignId uncompressed =>
      if (s.lockdown.contexts.binding assignId).isSome then
        some (s.setCall i (s.lockdown, .acknowledged peer uncompressed))
      else none
    | _ => none
  | .timeout i =>
    match s.calls i with
    | .waiting _ assignId _ => some (s.setCall i (s.lockdown, .timedOut assignId))
    | _ => none
  | .abandon i =>
    match s.calls i with
    | .timedOut assignId =>
      some (s.setCall i ({ s.lockdown with contexts := s.lockdown.contexts.close assignId },
        .fails "relay did not acknowledge the compressed context"))
    | _ => none
  | .sendClose i =>
    match s.calls i with
    | .acknowledged peer uncompressed =>
      some (s.setCall i (s.offer (s.lockdown.sendClose peer uncompressed)))
    | _ => none
  | .closeLocal i =>
    match s.calls i with
    | .closing peer uncompressed =>
      some (s.setCall i ({ s.lockdown with contexts := s.lockdown.contexts.close uncompressed },
        .returned (.ok peer)))
    | _ => none
  | .pumpDatagram wire => if s.ended then none else some (s.pumpDatagram wire)
  | .pumpCapsule capsule =>
    if s.ended then none
    else some { s with lockdown := { s.lockdown with
      contexts := Client.BindClient.acknowledge s.lockdown.contexts capsule } }
  | .pumpSend =>
    match s.ended, s.lockdown.capsules with
    | false, _ :: rest => some { s with lockdown := { s.lockdown with capsules := rest } }
    | _, _ => none
  | .pumpReturn => some { s with ended := true, lockdown := { s.lockdown with capsules := [] } }

end PathMux

end Straw
