import Straw.Datagram
import Straw.Forwarding.Icmp
import Straw.Forwarding.Limiter
import Straw.Forwarding.Router

/-!
# The forwarding engine

`ForwardingEngine` is the state a packet is judged by. What handling a packet changes
is kept apart in `Traffic`: the token buckets, the counters and the packets sent so far.
-/

namespace Straw

open Outcome Packet Icmp
set_option autoImplicit false

/-- A QUIC connection: its datagram size limit, and whether it takes a given datagram. -/
structure DatagramConn where
  maxDatagramSize : Option Nat
  sendDatagram : Bytes → Bool

inductive SessionSink where
  | channel (trySend : Bytes → Bool)
  | datagram (conn : DatagramConn) (qsid : UInt64)

inductive Forwarded where
  | hairpin (session : SessionId)
  | tun
deriving DecidableEq

structure EgressPolicy where
  ranges : List IpAddressRange

def EgressPolicy.allows (p : EgressPolicy) (dst : IpAddr) (proto : UInt8) : Bool :=
  p.ranges.any fun r => r.contains dst proto

inductive Counter where
  | packetsHairpin
  | packetsTunOut
  | packetsToClient
  | packetsDropped
  | packetsRateLimited
  | packetsMtuDropped
  | icmpErrorsSent
  | bytesFromClient
  | bytesToClient
deriving DecidableEq

abbrev Metrics := Counter → UInt64

inductive Emission where
  | channel (id : SessionId) (packet : Bytes)
  | datagram (id : SessionId) (wire : Bytes)
  | tun (packet : Bytes)
deriving DecidableEq

namespace Emission

def target : Emission → Option SessionId
  | channel id _ => some id
  | datagram id _ => some id
  | tun _ => none

def packet : Emission → Option Bytes
  | channel _ packet => some packet
  | datagram _ wire =>
    match decodeQuicDatagram wire with
    | .ok (_, d) => if d.contextId = contextIdIpPacket then some d.payload else none
    | .error _ => none
  | tun packet => some packet

end Emission

structure Traffic where
  limiters : Table SessionId SessionLimiter
  metrics : Metrics
  emitted : List Emission

structure ForwardingEngine where
  routeTable : RouteTable
  sessionSinks : Table SessionId SessionSink
  policies : Table SessionId EgressPolicy
  sessionMtus : Table SessionId Nat
  /-- Whether the TUN queue takes a packet; none when running without a TUN. -/
  tunTx : Option (Bytes → Bool)
  mtu : Nat
  icmpSource : IcmpSource
  limits : RateLimits

abbrev ForwardM := Proc Traffic ForwardingError

def add (counter : Counter) (n : UInt64) : ForwardM Unit :=
  Proc.modify fun t => { t with metrics := Function.update t.metrics counter (t.metrics counter + n) }

def incr (counter : Counter) : ForwardM Unit := add counter 1

def emit (e : Emission) : ForwardM Unit := Proc.modify fun t => { t with emitted := t.emitted ++ [e] }

def tryConsume (id : SessionId) (bytes : UInt64) (now : Nat) : ForwardM Bool := fun t =>
  match t.limiters id with
  | none => (.ok true, t)
  | some limiter =>
    match limiter.tryConsume bytes now with
    | .error _ => (.error .panic, t)
    | .ok (admitted, limiter) =>
      (.ok admitted, { t with limiters := t.limiters.insert id limiter })

namespace ForwardingEngine

variable (e : ForwardingEngine)

def sessionMtu (id : SessionId) : Nat := (e.sessionMtus id).getD e.mtu

def allows (id : SessionId) (addr : IpAddr) (proto : UInt8) : Bool :=
  match e.policies id with
  | some policy => policy.allows addr proto
  | none => false

/-- The receiver's scope applies to the source of what it is sent. -/
def sessionAccepts (target : SessionId) (info : PacketInfo) : Bool :=
  e.allows target info.src info.protocol

def sendWire (id : SessionId) (conn : DatagramConn) (wire : Bytes) : ForwardM Unit :=
  if conn.maxDatagramSize.any (· < wire.length) then do
    incr .packetsMtuDropped
    Proc.throw .mtuExceeded
  else if conn.sendDatagram wire then emit (.datagram id wire)
  else Proc.throw .congested

/-- The first half of `deliver_to_session`: hand the packet to the session's sink. -/
def handToSink (id : SessionId) (packet : Bytes) : ForwardM Unit :=
  match e.sessionSinks id with
  | none => Proc.throw .noRoute
  | some (.channel trySend) =>
    if trySend packet then emit (.channel id packet) else Proc.throw .congested
  | some (.datagram conn qsid) => do
    let wire ← Proc.ofOutcome (encodeQuicDatagram qsid (.ipPacket packet))
    sendWire id conn wire

def deliverToSession (id : SessionId) (packet : Bytes) : ForwardM Unit := do
  e.handToSink id packet
  incr .packetsToClient
  add .bytesToClient (UInt64.ofNat packet.length)

def sendIcmpError (sender : SessionId) (kind : IcmpErrorKind) (original : Bytes) : ForwardM Unit := do
  match ← Proc.ofOutcome (buildIcmpError kind e.icmpSource original) with
  | none => pure ()
  | some icmpPacket =>
    match ← Proc.attempt (e.deliverToSession sender icmpPacket) with
    | .error _ => pure ()
    | .ok () => incr .icmpErrorsSent

def reject {α : Type} (sender : SessionId) (kind : IcmpErrorKind) (original : Bytes)
    (err : ForwardingError) : ForwardM α := do
  e.sendIcmpError sender kind original
  Proc.throw err

/-- The last part of `forward_validated`: the packet has been accepted and is one hop older. -/
def route (origin : SessionId) (info : PacketInfo) (packet : Bytes) : ForwardM Forwarded :=
  match e.routeTable.lookup info.dst info.protocol with
  | some target =>
    if !e.sessionAccepts target info then
      e.reject origin .adminProhibited packet (.notAllowed info.dst)
    else if e.sessionMtu target < packet.length then do
      incr .packetsMtuDropped
      e.reject origin (.packetTooBig (UInt16.ofNat (e.sessionMtu target))) packet .mtuExceeded
    else do
      e.deliverToSession target packet
      pure (.hairpin target)
  | none =>
    match e.tunTx with
    | some trySend =>
      if trySend packet then do
        emit (.tun packet)
        pure .tun
      else Proc.throw .congested
    | none => e.reject origin .noRoute packet .noRoute

def forwardValidated (origin : SessionId) (assigned : List AssignedAddress) (packet : Bytes) :
    ForwardM Forwarded := do
  let info ← Proc.ofOutcome (parsePacket packet)
  Proc.ofOutcome (validateSource info assigned)
  if e.mtu < packet.length then
    e.reject origin (.packetTooBig (UInt16.ofNat e.mtu)) packet .mtuExceeded
  else
    Proc.ofOutcome (validateDestination info.dst)
    if !e.allows origin info.dst info.protocol then
      e.reject origin .adminProhibited packet (.notAllowed info.dst)
    else
      match decrementTtl packet with
      | .error (.err .ttlExpired) => e.reject origin .timeExceeded packet .ttlExpired
      | .error fault => Proc.ofOutcome (.error fault)
      | .ok packet => e.route origin info packet

def tally : Except ForwardingError Forwarded → ForwardM Unit
  | .ok (.hairpin _) => incr .packetsHairpin
  | .ok .tun => incr .packetsTunOut
  | .error _ => incr .packetsDropped

def forwardFromClient (origin : SessionId) (assigned : List AssignedAddress) (packet : Bytes)
    (now : Nat) : ForwardM Forwarded := do
  add .bytesFromClient (UInt64.ofNat packet.length)
  if !(← tryConsume origin (UInt64.ofNat packet.length) now) then
    incr .packetsRateLimited
    Proc.throw .rateLimited
  else
    let result ← Proc.attempt (e.forwardValidated origin assigned packet)
    tally result
    Proc.ofOutcome (ofExcept result)

end ForwardingEngine

end Straw
