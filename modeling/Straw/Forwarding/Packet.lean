import Straw.Lib.Outcome
import Straw.Types

/-!
# IP packets

Parsing with its length checks, the walk over the IPv6 extension headers, the source
and destination tests, and the TTL decrement with the IPv4 header checksum.
-/

namespace Straw

open Outcome
set_option autoImplicit false

inductive ForwardingError where
  | malformedPacket
  | sourceAddressViolation (src : IpAddr)
  | ttlExpired
  | linkLocalDrop
  | mtuExceeded
  | noRoute
  | notAllowed (addr : IpAddr)
  | congested
  | rateLimited
deriving DecidableEq

structure PacketInfo where
  version : Nat
  src : IpAddr
  dst : IpAddr
  /-- The IPv4 protocol, or the header after the IPv6 extension headers. -/
  protocol : UInt8
deriving DecidableEq

def be16 (hi lo : UInt8) : Nat := hi.toNat * 256 + lo.toNat

namespace Packet

/-- The loop of `ipv6_final_protocol`; at most eight headers are followed. -/
def ipv6Walk (packet : Bytes) : Nat → UInt8 → Nat → Outcome ForwardingError UInt8
  | 0, _, _ => fail .malformedPacket
  | headers + 1, next, offset =>
    if next = 0 ∨ next = 43 ∨ next = 60 then
      if packet.length < offset + 8 then fail .malformedPacket
      else do
        let len := 8 + (← index packet (offset + 1)).toNat * 8
        if packet.length < offset + len then fail .malformedPacket
        else ipv6Walk packet headers (← index packet offset) (offset + len)
    else if next = 44 then
      if packet.length < offset + 8 then fail .malformedPacket
      else do
        let fragOffset := be16 (← index packet (offset + 2)) (← index packet (offset + 3)) >>> 3
        -- a later fragment does not have the upper-layer header
        if fragOffset ≠ 0 then .ok 44
        else ipv6Walk packet headers (← index packet offset) (offset + 8)
    else if next = 51 then
      if packet.length < offset + 8 then fail .malformedPacket
      else do
        let len := ((← index packet (offset + 1)).toNat + 2) * 4
        if packet.length < offset + len then fail .malformedPacket
        else ipv6Walk packet headers (← index packet offset) (offset + len)
    else .ok next

def ipv6FinalProtocol (packet : Bytes) : Outcome ForwardingError UInt8 := do
  ipv6Walk packet 8 (← index packet 6) 40

def parsePacketV4 (packet : Bytes) (first : UInt8) : Outcome ForwardingError PacketInfo :=
  if packet.length < 20 then fail .malformedPacket
  else do
    let ihl := (first &&& 0x0f).toNat * 4
    let totalLen := be16 (← index packet 2) (← index packet 3)
    if ihl < 20 ∨ totalLen < ihl ∨ packet.length ≠ totalLen then fail .malformedPacket
    else
      let src ← slice packet 12 16
      let dst ← slice packet 16 20
      let protocol ← index packet 9
      .ok ⟨4, .v4 (Ipv4Addr.ofOctets src), .v4 (Ipv4Addr.ofOctets dst), protocol⟩

def parsePacketV6 (packet : Bytes) : Outcome ForwardingError PacketInfo :=
  if packet.length < 40 then fail .malformedPacket
  else do
    let payloadLen := be16 (← index packet 4) (← index packet 5)
    if packet.length ≠ 40 + payloadLen then fail .malformedPacket
    else
      let src ← slice packet 8 24
      let dst ← slice packet 24 40
      let protocol ← ipv6FinalProtocol packet
      .ok ⟨6, .v6 (Ipv6Addr.ofOctets src), .v6 (Ipv6Addr.ofOctets dst), protocol⟩

def parsePacket : Bytes → Outcome ForwardingError PacketInfo
  | [] => fail .malformedPacket
  | first :: rest =>
    if first >>> 4 = 4 then parsePacketV4 (first :: rest) first
    else if first >>> 4 = 6 then parsePacketV6 (first :: rest)
    else fail .malformedPacket

def validateSource (info : PacketInfo) (assigned : List AssignedAddress) :
    Outcome ForwardingError Unit :=
  let allowed := assigned.any fun a =>
    match IpNet.new a.ipAddress a.prefixLength with
    | some net => net.contains info.src
    | none => false
  if allowed then .ok () else fail (.sourceAddressViolation info.src)

def validateDestination (dst : IpAddr) : Outcome ForwardingError Unit :=
  let drop := match dst with
    | .v4 a => a.isLoopback || a.isLinkLocal || a.isUnspecified || a.isBroadcast
    | .v6 a => a.isLoopback || a.isUnspecified || (a.segment0 &&& 0xffc0) == 0xfe80
  if drop then fail .linkLocalDrop else .ok ()

/-- The sum of the 16-bit words in a `u32`; an odd last byte is padded with zero. -/
def sumWords : Bytes → Nat → Nat
  | hi :: lo :: rest, sum => sumWords rest ((sum + be16 hi lo) % 2 ^ 32)
  | [last], sum => (sum + be16 last 0) % 2 ^ 32
  | [], sum => sum

def foldCarries (sum : Nat) : Nat :=
  if 0xffff < sum then foldCarries ((sum &&& 0xffff) + (sum >>> 16)) else sum
termination_by sum
decreasing_by
  have hlow : sum &&& 0xffff = sum % 2 ^ 16 := Nat.and_two_pow_sub_one_eq_mod sum 16
  rw [hlow, Nat.shiftRight_eq_div_pow]
  omega

def ipv4Checksum (data : Bytes) : Nat := 0xffff - foldCarries (sumWords data 0)

def recomputeIpv4Checksum (packet : Bytes) : Outcome ForwardingError Bytes := do
  let ihl := ((← index packet 0) &&& 0x0f).toNat * 4
  let packet ← update packet 10 0
  let packet ← update packet 11 0
  let header ← slice packet 0 ihl
  let checksum := ipv4Checksum header
  let packet ← update packet 10 (UInt8.ofNat (checksum >>> 8))
  update packet 11 (UInt8.ofNat checksum)

/-- One IP hop; a packet whose time is up is left as it is. -/
def decrementTtl : Bytes → Outcome ForwardingError Bytes
  | [] => fail .malformedPacket
  | first :: rest =>
    let packet := first :: rest
    if first >>> 4 = 4 then
      if packet.length < 20 then fail .malformedPacket
      else do
        let ttl ← index packet 8
        if ttl ≤ 1 then fail .ttlExpired
        else recomputeIpv4Checksum (← update packet 8 (ttl - 1))
    else if first >>> 4 = 6 then
      if packet.length < 40 then fail .malformedPacket
      else do
        let hopLimit ← index packet 7
        if hopLimit ≤ 1 then fail .ttlExpired
        else update packet 7 (hopLimit - 1)
    else fail .malformedPacket

theorem length_recomputeIpv4Checksum {packet out : Bytes}
    (h : recomputeIpv4Checksum packet = .ok out) : out.length = packet.length := by
  obtain ⟨first, -, h⟩ := bind_eq_ok.mp h
  obtain ⟨p1, h1, h⟩ := bind_eq_ok.mp h
  obtain ⟨p2, h2, h⟩ := bind_eq_ok.mp h
  obtain ⟨header, -, h⟩ := bind_eq_ok.mp h
  obtain ⟨p3, h3, h4⟩ := bind_eq_ok.mp h
  rw [length_of_update h4, length_of_update h3, length_of_update h2, length_of_update h1]

theorem length_decrementTtl {packet out : Bytes} (h : decrementTtl packet = .ok out) :
    out.length = packet.length := by
  cases packet with
  | nil => cases h
  | cons first rest =>
    unfold decrementTtl at h
    simp only at h
    split at h
    · split at h
      · cases h
      · obtain ⟨ttl, -, h⟩ := bind_eq_ok.mp h
        split at h
        · cases h
        · obtain ⟨p1, h1, h2⟩ := bind_eq_ok.mp h
          rw [length_recomputeIpv4Checksum h2, length_of_update h1]
    · split at h
      · split at h
        · cases h
        · obtain ⟨hopLimit, -, h⟩ := bind_eq_ok.mp h
          split at h
          · cases h
          · exact length_of_update h
      · cases h

theorem validateSource_ok {info : PacketInfo} {assigned : List AssignedAddress}
    (h : validateSource info assigned = .ok ()) :
    ∃ a ∈ assigned, ∃ net, IpNet.new a.ipAddress a.prefixLength = some net ∧
      net.contains info.src = true := by
  unfold validateSource at h
  simp only at h
  split at h
  · rename_i hany
    obtain ⟨a, hmem, ha⟩ := List.any_eq_true.mp hany
    split at ha
    · rename_i net hnet
      exact ⟨a, hmem, net, hnet, ha⟩
    · cases ha
  · cases h

end Packet

end Straw
