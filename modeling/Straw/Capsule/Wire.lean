import Straw.Capsule.Basic
import Straw.Capsule.Codec

/-!
# Capsules on the wire

A capsule is its type, the length of its payload and the payload. The request stream
cuts capsules at arbitrary places, so a reader keeps a buffer and takes a capsule from
it once the whole of it is there.
-/

namespace Straw

open Codec
set_option autoImplicit false

def capsuleAddressAssign : Nat := 0x01
def capsuleAddressRequest : Nat := 0x02
def capsuleRouteAdvertisement : Nat := 0x03

def decodeIpAddress (ipVersion : UInt8) (buf : Bytes) : Except DecodeError (IpAddr × Bytes) :=
  if ipVersion = 4 then
    if buf.length < 4 then .error (.bufferTooShort 4 buf.length)
    else .ok (.v4 (Ipv4Addr.ofOctets (buf.take 4)), buf.drop 4)
  else if ipVersion = 6 then
    if buf.length < 16 then .error (.bufferTooShort 16 buf.length)
    else .ok (.v6 (Ipv6Addr.ofOctets (buf.take 16)), buf.drop 16)
  else .error (.invalidIpVersion ipVersion)

def validatePrefixLength (ipVersion prefixLen : UInt8) : Except DecodeError Unit :=
  if ipVersion = 4 then
    if 32 < prefixLen then .error (.invalidPrefixLength ipVersion prefixLen) else .ok ()
  else if ipVersion = 6 then
    if 128 < prefixLen then .error (.invalidPrefixLength ipVersion prefixLen) else .ok ()
  else .error (.invalidIpVersion ipVersion)

def decodeAssignedAddress (buf : Bytes) : Except DecodeError (AssignedAddress × Bytes) := do
  let (requestId, buf) ← readVarint buf
  let (ipVersion, buf) ← getU8 buf
  let (ipAddress, buf) ← decodeIpAddress ipVersion buf
  let (prefixLength, buf) ← getU8 buf
  validatePrefixLength ipVersion prefixLength
  .ok (⟨requestId, ipVersion.toNat, ipAddress, prefixLength.toNat⟩, buf)

def decodeRequestedAddress (buf : Bytes) : Except DecodeError (RequestedAddress × Bytes) := do
  let (requestId, buf) ← readVarint buf
  if requestId = 0 then .error .invalidVarInt
  let (ipVersion, buf) ← getU8 buf
  let (ipAddress, buf) ← decodeIpAddress ipVersion buf
  let (prefixLength, buf) ← getU8 buf
  validatePrefixLength ipVersion prefixLength
  .ok (⟨requestId, ipVersion.toNat, ipAddress, prefixLength.toNat⟩, buf)

def cmpIpAddr : IpAddr → IpAddr → Ordering
  | .v4 a, .v4 b => compare a.toNat b.toNat
  | .v6 a, .v6 b => compare a.toNat b.toNat
  | .v4 _, .v6 _ => .lt
  | .v6 _, .v4 _ => .gt

def decodeIpAddressRange (buf : Bytes) : Except DecodeError (IpAddressRange × Bytes) := do
  let (ipVersion, buf) ← getU8 buf
  let (startIp, buf) ← decodeIpAddress ipVersion buf
  let (endIp, buf) ← decodeIpAddress ipVersion buf
  if cmpIpAddr startIp endIp = .gt then .error .invalidVarInt
  let (ipProtocol, buf) ← getU8 buf
  .ok (⟨ipVersion.toNat, startIp, endIp, ipProtocol⟩, buf)

namespace IpAddressRange

/-- The derived order: by the fields in the order they are declared. -/
def cmp (a b : IpAddressRange) : Ordering :=
  (compare a.ipVersion b.ipVersion).then <| (cmpIpAddr a.startIp b.startIp).then <|
    (cmpIpAddr a.endIp b.endIp).then (compare a.ipProtocol.toNat b.ipProtocol.toNat)

def cmpKey (a b : IpAddressRange) : Ordering :=
  (compare a.ipVersion b.ipVersion).then <|
    (compare a.ipProtocol.toNat b.ipProtocol.toNat).then (cmpIpAddr a.startIp b.startIp)

end IpAddressRange

/-- Two neighbours are refused when both orders have the first at or after the second. -/
def outOfOrder (a b : IpAddressRange) : Bool := a.cmp b != .lt && a.cmpKey b != .lt

def validateOrder : List IpAddressRange → Except DecodeError Unit
  | a :: b :: rest =>
    if outOfOrder a b then .error .invalidVarInt else validateOrder (b :: rest)
  | _ => .ok ()

/-- Entries until the payload is used up. Every entry takes at least one byte, so the
length of the payload is fuel enough. -/
def decodeEntries {α : Type} (entry : Bytes → Except DecodeError (α × Bytes)) :
    Nat → Bytes → Except DecodeError (List α)
  | _, [] => .ok []
  | 0, _ => .error .underflow
  | fuel + 1, payload => do
    let (a, rest) ← entry payload
    let as ← decodeEntries entry fuel rest
    .ok (a :: as)

def decodePayload (capsuleType : Nat) (payload : Bytes) : Except DecodeError Capsule := do
  if capsuleType = capsuleAddressAssign then
    let addrs ← decodeEntries decodeAssignedAddress payload.length payload
    .ok (.addressAssign addrs)
  else if capsuleType = capsuleAddressRequest then
    let addrs ← decodeEntries decodeRequestedAddress payload.length payload
    if addrs = [] then .error .underflow else .ok (.addressRequest addrs)
  else if capsuleType = capsuleRouteAdvertisement then
    let ranges ← decodeEntries decodeIpAddressRange payload.length payload
    validateOrder ranges
    .ok (.routeAdvertisement ranges)
  else .ok (.unknown capsuleType payload)

def decodeCapsule (buf : Bytes) : Except DecodeError (Capsule × Bytes) := do
  let (capsuleType, buf) ← readVarint buf
  let (capsuleLength, buf) ← readVarint buf
  if buf.length < capsuleLength then .error (.bufferTooShort capsuleLength buf.length)
  let capsule ← decodePayload capsuleType (buf.take capsuleLength)
  .ok (capsule, buf.drop capsuleLength)

/-- The next capsule of a buffer, and what is left of the buffer. A capsule that is not
complete waits; one whose payload does not decode is consumed with its error. -/
def nextCapsule (buf : Bytes) : Except DecodeError (Option Capsule) × Bytes :=
  match readVarint buf with
  | .error _ => (.ok none, buf)
  | .ok (_, view) =>
    match readVarint view with
    | .error _ => (.ok none, buf)
    | .ok (capsuleLength, view) =>
      if view.length < capsuleLength then (.ok none, buf)
      else
        match decodeCapsule buf with
        | .error e => (.error e, view.drop capsuleLength)
        | .ok (capsule, rest) => (.ok (some capsule), rest)

def knownTypes : List Nat :=
  [capsuleAddressAssign, capsuleAddressRequest, capsuleRouteAdvertisement]

theorem decodePayload_unknown {capsuleType : Nat} (h : capsuleType ∉ knownTypes)
    (payload : Bytes) :
    decodePayload capsuleType payload = .ok (.unknown capsuleType payload) := by
  simp only [knownTypes, List.mem_cons, List.not_mem_nil, or_false, not_or] at h
  unfold decodePayload
  rw [if_neg h.1, if_neg h.2.1, if_neg h.2.2]

end Straw
