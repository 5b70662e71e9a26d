import Straw.Forwarding.Packet

/-!
# ICMP errors

The errors a router sends about packets it drops, with the cases in which none must
be sent. The invoking header and eight bytes after it are quoted.
-/

namespace Straw

open Outcome
set_option autoImplicit false

inductive IcmpErrorKind where
  | timeExceeded
  | noRoute
  | adminProhibited
  | packetTooBig (mtu : UInt16)
deriving DecidableEq

structure IcmpSource where
  v4 : Ipv4Addr
  v6 : Option Ipv6Addr

namespace Icmp

open Packet

def validErrorTarget : IpAddr → Bool
  | .v4 a => !a.isUnspecified && !a.isLoopback && !a.isMulticast && !a.isBroadcast
  | .v6 a => !a.isUnspecified && !a.isLoopback && !a.isMulticast

/-- ICMPv4 type, code and the rest of the header; fragmentation needed carries the MTU. -/
def v4Fields : IcmpErrorKind → UInt8 × UInt8 × Bytes
  | .timeExceeded => (11, 0, [0, 0, 0, 0])
  | .noRoute => (3, 0, [0, 0, 0, 0])
  | .adminProhibited => (3, 13, [0, 0, 0, 0])
  | .packetTooBig mtu => (3, 4, [0, 0] ++ BigEndian.ofNat 2 mtu.toNat)

def v6Fields : IcmpErrorKind → UInt8 × UInt8 × Bytes
  | .timeExceeded => (3, 0, [0, 0, 0, 0])
  | .noRoute => (1, 0, [0, 0, 0, 0])
  | .adminProhibited => (1, 1, [0, 0, 0, 0])
  | .packetTooBig mtu => (2, 0, BigEndian.ofNat 4 mtu.toNat)

def isV4ErrorType (icmpType : UInt8) : Bool :=
  icmpType == 3 || icmpType == 4 || icmpType == 5 || icmpType == 11 || icmpType == 12

def v4Header (gateway dst : Ipv4Addr) (totalLen checksum : Nat) : Bytes :=
  [0x45, 0] ++ BigEndian.ofNat 2 totalLen ++ [0, 0, 0, 0, 64, 1] ++ BigEndian.ofNat 2 checksum ++
    gateway.octets ++ dst.octets

def v6Header (gateway dst : Ipv6Addr) (icmpLen : Nat) : Bytes :=
  [0x60, 0, 0, 0] ++ BigEndian.ofNat 2 icmpLen ++ [58, 64] ++ gateway.octets ++ dst.octets

def message (fields : UInt8 × UInt8 × Bytes) (quoted : Bytes) (checksum : Nat) : Bytes :=
  [fields.1, fields.2.1] ++ BigEndian.ofNat 2 checksum ++ fields.2.2 ++ quoted

def icmpv6Checksum (src dst : Ipv6Addr) (icmp : Bytes) : Nat :=
  ipv4Checksum (src.octets ++ dst.octets ++ BigEndian.ofNat 4 icmp.length ++ [0, 0, 0, 58] ++ icmp)

def v4Message (kind : IcmpErrorKind) (gateway origSrc : Ipv4Addr) (quoted : Bytes) : Bytes :=
  let header := v4Header gateway origSrc (20 + (8 + quoted.length))
  let body := message (v4Fields kind) quoted
  header (ipv4Checksum (header 0)) ++ body (ipv4Checksum (body 0))

def v6Message (kind : IcmpErrorKind) (gateway origSrc : Ipv6Addr) (quoted : Bytes) : Bytes :=
  let body := message (v6Fields kind) quoted
  v6Header gateway origSrc (8 + quoted.length) ++ body (icmpv6Checksum gateway origSrc (body 0))

/-- `build_v4_error` up to the quoted bytes; `assemble` gets the sender and the quote. -/
def buildV4ErrorWith (assemble : Ipv4Addr → Bytes → Outcome ForwardingError Bytes)
    (original : Bytes) : Outcome ForwardingError (Option Bytes) :=
  if original.length < 20 then .ok none
  else do
    let ihl := ((← index original 0) &&& 0x0f).toNat * 4
    if ihl < 20 ∨ original.length < ihl then .ok none
    else
      let origSrc := Ipv4Addr.ofOctets (← slice original 12 16)
      if !validErrorTarget (.v4 origSrc) then .ok none
      else
        let isError ←
          if (← index original 9) = 1 ∧ ihl < original.length then do
            .ok (isV4ErrorType (← index original ihl))
          else .ok false
        if isError then .ok none
        else
          let quoted ← slice original 0 (min original.length (ihl + 8))
          .ok (some (← assemble origSrc quoted))

/-- `build_v6_error` up to the quoted bytes. -/
def buildV6ErrorWith (assemble : Ipv6Addr → Bytes → Outcome ForwardingError Bytes)
    (original : Bytes) : Outcome ForwardingError (Option Bytes) :=
  if original.length < 40 then .ok none
  else do
    let origSrc := Ipv6Addr.ofOctets (← slice original 8 24)
    if !validErrorTarget (.v6 origSrc) then .ok none
    else
      let isError ←
        if (← index original 6) = 58 ∧ 40 < original.length then do
          .ok (decide ((← index original 40) < 128))
        else .ok false
      if isError then .ok none
      else
        let quoted ← slice original 0 (min original.length 48)
        .ok (some (← assemble origSrc quoted))

def buildV4Error (kind : IcmpErrorKind) (gateway : Ipv4Addr) (original : Bytes) :
    Outcome ForwardingError (Option Bytes) :=
  buildV4ErrorWith (fun origSrc quoted => .ok (v4Message kind gateway origSrc quoted)) original

def buildV6Error (kind : IcmpErrorKind) (gateway : Ipv6Addr) (original : Bytes) :
    Outcome ForwardingError (Option Bytes) :=
  buildV6ErrorWith (fun origSrc quoted => .ok (v6Message kind gateway origSrc quoted)) original

def buildIcmpError (kind : IcmpErrorKind) (source : IcmpSource) :
    Bytes → Outcome ForwardingError (Option Bytes)
  | [] => .ok none
  | first :: rest =>
    if first >>> 4 = 4 then buildV4Error kind source.v4 (first :: rest)
    else if first >>> 4 = 6 then
      match source.v6 with
      | some gateway => buildV6Error kind gateway (first :: rest)
      | none => .ok none
    else .ok none

end Icmp

end Straw
