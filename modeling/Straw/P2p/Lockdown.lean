import Straw.Lib.Run
import Straw.Datagram
import Straw.UdpBind.Handler

/-!
# Locking the relay down to one peer

Once a direct path carries the traffic, the client binds its peer to a compressed
context and closes the uncompressed one. `engage` proposes the context, waits for the
relay's acknowledgement and then closes; the pump moves capsules between the client and
the request stream. Both ends frame and decode datagrams with their own table only.
-/

namespace Straw

open Transition Outcome Codec
set_option autoImplicit false

def frameBind (qsid : UInt64) (contexts : ContextTable) (dst : SocketAddr) (contents : Bytes) :
    Outcome ContextError (Option Bytes) := do
  match (contexts.compressedContextFor dst).or contexts.uncompressedContext with
  | none => .ok none
  | some id =>
    match ← discardErr (contexts.encodeDatagram id dst contents) with
    | none => .ok none
    | some body =>
      let wire ← expect (writeVarint qsid.toNat)
      .ok (some (wire ++ body))

/-- The client's table and the bounded queue of capsules for the pump to send. -/
structure RelayLockdown where
  contexts : ContextTable
  capsules : List Bytes

inductive Engage where
  | idle
  | waiting (peer : SocketAddr) (assignId uncompressed : Nat)
  | timedOut (assignId : Nat)
  | acknowledged (peer : SocketAddr) (uncompressed : Nat)
  | closing (peer : SocketAddr) (uncompressed : Nat)
  | returned (result : Outcome ProxyError SocketAddr)

def Engage.fails (message : String) : Engage := .returned (fail (.invalidRequest message))

def Engage.negotiating : Engage → Bool
  | .waiting _ _ _ | .acknowledged _ _ | .closing _ _ => true
  | .idle | .timedOut _ | .returned _ => false

namespace RelayLockdown

def queueDepth : Nat := 8

def trySend (l : RelayLockdown) (buf : Bytes) (next : Engage) : RelayLockdown × Engage :=
  if l.capsules.length < queueDepth then ({ l with capsules := l.capsules ++ [buf] }, next)
  else (l, .fails "capsule queue: no available capacity")

/-- `engage` up to its wait. -/
def propose (l : RelayLockdown) : Option SocketAddr → RelayLockdown × Engage
  | none => (l, .fails "no relay remote learned; nothing to bind a context to")
  | some peer =>
    if (l.contexts.compressedContextFor peer).isSome then (l, .returned (.ok peer))
    else
      match l.contexts.uncompressedContext with
      | none => (l, .fails "uncompressed context already closed")
      | some uncompressed =>
        let id := uncompressed + 2
        let assign : CompressionAssign := ⟨id, .compressed peer⟩
        match l.contexts.register assign with
        | .error e => (l, .fails e.toString)
        | .ok table =>
          match assign.encode with
          | .error e => ({ l with contexts := table }, .returned (.error e))
          | .ok buf => trySend { l with contexts := table } buf (.waiting peer id uncompressed)

def sendClose (l : RelayLockdown) (peer : SocketAddr) (uncompressed : Nat) :
    RelayLockdown × Engage :=
  match encodeContextCapsule capsuleCompressionClose uncompressed with
  | .error e => (l, .returned (.error e))
  | .ok buf => trySend l buf (.closing peer uncompressed)

/-- The pump promotes a context when the relay acknowledges it; every other capsule, and
an acknowledgement of a context that is not pending, is ignored. -/
def pump (l : RelayLockdown) (chunk : Bytes) : RelayLockdown :=
  match nextCapsule chunk with
  | (.ok (some (.unknown typeId data)), _) =>
    if typeId = capsuleCompressionAck then
      match decodeContextCapsule data with
      | .error _ => l
      | .ok id =>
        match l.contexts.ack id with
        | .error _ => l
        | .ok table => { l with contexts := table }
    else l
  | _ => l

end RelayLockdown

/-- Both ends of a bind session and the capsules between them. What the relay sent and
the client has not read yet is in `relay.sent`. -/
structure LockdownSys where
  client : RelayLockdown
  call : Engage
  upstream : List Bytes
  relay : BindStream
  /-- The error that ended the relay's capsule loop. -/
  ended : Option (Fault ProxyError)

inductive LockdownAct where
  | engage
  | observe
  | timeout
  | abandon
  | sendClose
  | closeLocal
  | pumpSend
  | relayReceive
  | pumpReceive
deriving DecidableEq

namespace LockdownSys

/-- One atomic step of a session whose only relay remote is `peer`. A new call starts
once the one before it has returned. -/
def step (peer : SocketAddr) (s : LockdownSys) : LockdownAct → Option LockdownSys
  | .engage =>
    match s.call with
    | .idle | .returned _ =>
      let (client, call) := s.client.propose (some peer)
      some { s with client, call }
    | _ => none
  | .observe =>
    match s.call with
    | .waiting peer assignId uncompressed =>
      if (s.client.contexts.binding assignId).isSome then
        some { s with call := .acknowledged peer uncompressed }
      else none
    | _ => none
  | .timeout =>
    -- the deadline may pass while an acknowledgement is being processed
    match s.call with
    | .waiting _ assignId _ => some { s with call := .timedOut assignId }
    | _ => none
  | .abandon =>
    match s.call with
    | .timedOut assignId =>
      some { s with
        client := { s.client with contexts := s.client.contexts.close assignId }
        call := .fails "relay did not acknowledge the compressed context" }
    | _ => none
  | .sendClose =>
    match s.call with
    | .acknowledged peer uncompressed =>
      let (client, call) := s.client.sendClose peer uncompressed
      some { s with client, call }
    | _ => none
  | .closeLocal =>
    match s.call with
    | .closing peer uncompressed =>
      some { s with
        client := { s.client with contexts := s.client.contexts.close uncompressed }
        call := .returned (.ok peer) }
    | _ => none
  | .pumpSend =>
    match s.client.capsules with
    | [] => none
    | buf :: rest =>
      some { s with client := { s.client with capsules := rest }, upstream := s.upstream ++ [buf] }
  | .relayReceive =>
    match s.ended, s.upstream with
    | none, chunk :: rest =>
      match s.relay.receive chunk with
      | .ok relay => some { s with relay, upstream := rest }
      | .error e => some { s with ended := some e, upstream := rest }
    | _, _ => none
  | .pumpReceive =>
    match s.relay.sent with
    | [] => none
    | chunk :: rest =>
      some { s with client := s.client.pump chunk, relay := { s.relay with sent := rest } }

/-- After the handshake: the uncompressed context is active at both ends. -/
def uncompressedOnly : ContextTable :=
  ⟨AList.singleton firstUncompressedContext .uncompressed, ∅⟩

def initial : LockdownSys where
  client := ⟨uncompressedOnly, []⟩
  call := .idle
  upstream := []
  relay := ⟨uncompressedOnly, []⟩
  ended := none

/-- The tables of `initial` are those of the handshake: the client registers its context
and promotes it on the acknowledgement, the relay does both on the proposal. -/
theorem handshake :
    ((ContextTable.empty.register ⟨firstUncompressedContext, .uncompressed⟩).bind
        fun table => table.ack firstUncompressedContext) = .ok uncompressedOnly ∧
      (CompressionAssign.encode ⟨firstUncompressedContext, .uncompressed⟩ >>=
        (BindStream.mk .empty []).receive).map BindStream.contexts = .ok uncompressedOnly :=
  ⟨rfl, rfl⟩

def Quiet (s : LockdownSys) : Prop :=
  s.client.capsules = [] ∧ s.upstream = [] ∧ s.relay.sent = []

/-- Every datagram body the relay makes of a payload from `peer` reaches the client as
that payload from `peer`. -/
def Delivers (s : LockdownSys) (peer : SocketAddr) : Prop :=
  ∀ payload body, encapsulate s.relay.contexts peer payload = .ok (some body) →
    ∃ id, s.client.contexts.decodeDatagram body = .ok ⟨id, peer, payload⟩

/-- A payload the client frames for `peer` reaches the relay's data plane as that payload
for `remote`. -/
def Carries (s : LockdownSys) (streamId : UInt64) (peer remote : SocketAddr) (payload : Bytes) :
    Prop :=
  ∃ wire body id, frameBind (quarterStreamId streamId) s.client.contexts peer payload =
      .ok (some wire) ∧
    readVarint wire = .ok ((quarterStreamId streamId).toNat, body) ∧
    s.relay.contexts.decodeDatagram body = .ok ⟨id, remote, payload⟩

end LockdownSys

end Straw
