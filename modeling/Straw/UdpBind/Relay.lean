import Straw.Capsule.Buffer
import Straw.Forwarding.Limiter
import Straw.Lib.Handoff
import Straw.Lib.Run
import Straw.UdpBind.Handler
import Straw.UdpBind.Policy

/-!
# The data plane of a bind session

The capsule loop of the request stream and the two halves of `BindSocket::run` share the
context table under a lock. Either half looks a datagram up in the table, gives the lock
back and then hands the datagram on; the other tasks may run in between. The peer and the
network may send any bytes at any time.
-/

namespace Straw

open Transition
set_option autoImplicit false

structure BindRelay where
  stream : BindStream
  buffer : CapsuleBuffer
  /-- The capsule loop has returned. -/
  ended : Bool
  policy : DestinationPolicy
  limiter : SessionLimiter
  /-- A task panicked while it held the lock. -/
  poisoned : Bool
  /-- The sending half has panicked. -/
  halted : Bool
  toPeer : Handoff (SocketAddr × Bytes)
  toNetwork : Handoff (SocketAddr × Bytes)

inductive BindEvent where
  /-- Data arrives on the request stream. -/
  | chunk (bytes : Bytes)
  /-- The capsule loop handles the next capsule; `acked` is whether the stream takes the
  acknowledgement. -/
  | capsule (acked : Bool)
  | recvFrom (remote : SocketAddr) (payload : Bytes)
  /-- `to_peer.try_send`, which a full or closed channel refuses. -/
  | trySend (accepted : Bool)
  /-- A body from the peer at time `now`. -/
  | fromPeer (body : Bytes) (now : Nat)
  | sendTo (ok : Bool)

namespace BindRelay

def start (policy : DestinationPolicy) (limiter : SessionLimiter) : BindRelay where
  stream := ⟨.empty, []⟩
  buffer := .new
  ended := false
  policy := policy
  limiter := limiter
  poisoned := false
  halted := false
  toPeer := .empty
  toNetwork := .empty

def table (s : BindRelay) : ContextTable := s.stream.contexts

/-- One capsule of the loop in `run_capsules`. -/
def handle (s : BindRelay) (capsule : Capsule) (acked : Bool) : BindRelay :=
  match capsule with
  | .unknown typeId data =>
    match s.stream.handleContextCapsule typeId data with
    | .error _ => { s with ended := true }
    | .ok stream =>
      if acked || stream.sent = s.stream.sent then { s with stream := stream }
      else { s with stream := { stream with sent := s.stream.sent }, ended := true }
  | _ => s

/-- The receiving half: the lookup of one datagram of the network. -/
def lookupRemote (s : BindRelay) (remote : SocketAddr) (payload : Bytes) : BindRelay :=
  match encapsulate s.table remote payload with
  | .error _ => { s with poisoned := true }
  | .ok none => s
  | .ok (some wire) => { s with toPeer := s.toPeer.fill (remote, wire) }

/-- The sending half up to `send_to`. -/
def lookupBody (s : BindRelay) (body : Bytes) (now : Nat) : BindRelay :=
  match s.table.decodeDatagram body with
  | .error _ => s
  | .ok dg =>
    if !s.policy.allows dg.remote then s
    else
      match s.limiter.tryConsume (UInt64.ofNat dg.payload.length) now with
      | .error _ => { s with halted := true }
      | .ok (ok, limiter) =>
        if !ok then { s with limiter := limiter }
        else { s with limiter := limiter, toNetwork := s.toNetwork.fill (dg.remote, dg.payload) }

def step (s : BindRelay) : BindEvent → Option BindRelay
  | .chunk bytes =>
    match s.buffer.nextCapsule with
    -- the loop asks for more data once the buffer holds no complete capsule
    | (.ok none, buffer) =>
      if s.ended then none else some { s with buffer := buffer.push bytes }
    | _ => none
  | .capsule acked =>
    if s.ended || s.poisoned then none
    else
      match s.buffer.nextCapsule with
      | (.ok none, _) => none
      | (.error _, buffer) => some { s with buffer := buffer, ended := true }
      | (.ok (some capsule), buffer) => some (handle { s with buffer := buffer } capsule acked)
  | .recvFrom remote payload =>
    if s.poisoned || s.toPeer.slot.isSome then none else some (s.lookupRemote remote payload)
  | .trySend accepted =>
    if s.toPeer.slot.isSome then some { s with toPeer := s.toPeer.pass accepted } else none
  | .fromPeer body now =>
    if s.poisoned || s.halted || s.toNetwork.slot.isSome then none
    else some (s.lookupBody body now)
  | .sendTo ok =>
    if s.toNetwork.slot.isSome then some { s with toNetwork := s.toNetwork.pass ok } else none

end BindRelay

end Straw
