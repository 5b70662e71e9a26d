import Straw.Lib.NetPrefix

/-!
# Addresses, prefixes and session identifiers

The standard library's `IpAddr` and `SocketAddr` with the classification tests the
proxy uses, the `IpNet` prefixes, and the records carried by the address capsules.
-/

namespace Straw

set_option autoImplicit false

abbrev Bytes := List UInt8

abbrev Ipv4Addr := BitVec 32
abbrev Ipv6Addr := BitVec 128

inductive IpAddr where
  | v4 (a : Ipv4Addr)
  | v6 (a : Ipv6Addr)
deriving DecidableEq

namespace Ipv4Addr

def ofOctets (bs : Bytes) : Ipv4Addr := BitVec.ofNat 32 (BigEndian.toNat bs)

def octets (a : Ipv4Addr) : Bytes := BigEndian.ofNat 4 a.toNat

theorem ofOctets_octets (a : Ipv4Addr) : ofOctets a.octets = a :=
  BigEndian.bitVec_toNat_ofNat rfl a

theorem octets_ofOctets {bs : Bytes} (h : bs.length = 4) : (ofOctets bs).octets = bs :=
  BigEndian.ofNat_bitVec_toNat rfl h

def first (a : Ipv4Addr) : Nat := a.toNat / 2 ^ 24

def isUnspecified (a : Ipv4Addr) : Bool := a == 0#32
def isBroadcast (a : Ipv4Addr) : Bool := a.toNat == 2 ^ 32 - 1
def isLoopback (a : Ipv4Addr) : Bool := a.first == 127
def isMulticast (a : Ipv4Addr) : Bool := 224 ≤ a.first && a.first ≤ 239
def isLinkLocal (a : Ipv4Addr) : Bool := a.toNat / 2 ^ 16 == 169 * 256 + 254
def isPrivate (a : Ipv4Addr) : Bool :=
  a.first == 10 || a.toNat / 2 ^ 20 == 172 * 16 + 1 || a.toNat / 2 ^ 16 == 192 * 256 + 168

end Ipv4Addr

namespace Ipv6Addr

def ofOctets (bs : Bytes) : Ipv6Addr := BitVec.ofNat 128 (BigEndian.toNat bs)

def octets (a : Ipv6Addr) : Bytes := BigEndian.ofNat 16 a.toNat

theorem ofOctets_octets (a : Ipv6Addr) : ofOctets a.octets = a :=
  BigEndian.bitVec_toNat_ofNat rfl a

theorem octets_ofOctets {bs : Bytes} (h : bs.length = 16) : (ofOctets bs).octets = bs :=
  BigEndian.ofNat_bitVec_toNat rfl h

def segment0 (a : Ipv6Addr) : Nat := a.toNat / 2 ^ 112

def isUnspecified (a : Ipv6Addr) : Bool := a == 0#128
def isLoopback (a : Ipv6Addr) : Bool := a == 1#128
def isMulticast (a : Ipv6Addr) : Bool := a.toNat / 2 ^ 120 == 255

end Ipv6Addr

abbrev Ipv4Net := NetPrefix 32
abbrev Ipv6Net := NetPrefix 128

inductive IpNet where
  | v4 (net : Ipv4Net)
  | v6 (net : Ipv6Net)
deriving DecidableEq

namespace IpNet

/-- `IpNet::new` refuses a prefix longer than the address. -/
def new : IpAddr → Nat → Option IpNet
  | .v4 a, len => if h : len ≤ 32 then some (.v4 (NetPrefix.ofAddr a len h)) else none
  | .v6 a, len => if h : len ≤ 128 then some (.v6 (NetPrefix.ofAddr a len h)) else none

def contains : IpNet → IpAddr → Bool
  | .v4 net, .v4 a => net.contains a
  | .v6 net, .v6 a => net.contains a
  | _, _ => false

def prefixLen : IpNet → Nat
  | .v4 net => net.len
  | .v6 net => net.len

end IpNet

def IpAddr.width : IpAddr → Nat
  | .v4 _ => 32
  | .v6 _ => 128

theorem IpNet.new_width_contains_iff {a b : IpAddr} {net : IpNet}
    (h : IpNet.new a a.width = some net) : net.contains b = true ↔ b = a := by
  cases a with
  | v4 a =>
    obtain rfl : IpNet.v4 (NetPrefix.ofAddr a 32 (Nat.le_refl 32)) = net := by
      simpa [IpNet.new, IpAddr.width] using h
    cases b with
    | v4 b => simp only [contains, IpAddr.v4.injEq]; exact NetPrefix.ofAddr_full_contains_iff a b
    | v6 b => simp [contains]
  | v6 a =>
    obtain rfl : IpNet.v6 (NetPrefix.ofAddr a 128 (Nat.le_refl 128)) = net := by
      simpa [IpNet.new, IpAddr.width] using h
    cases b with
    | v4 b => simp [contains]
    | v6 b => simp only [contains, IpAddr.v6.injEq]; exact NetPrefix.ofAddr_full_contains_iff a b

inductive SocketAddr where
  | v4 (ip : Ipv4Addr) (port : UInt16)
  | v6 (ip : Ipv6Addr) (port : UInt16) (flowinfo scopeId : UInt32)
deriving DecidableEq

namespace SocketAddr

def new : IpAddr → UInt16 → SocketAddr
  | .v4 a, port => .v4 a port
  | .v6 a, port => .v6 a port 0 0

def ip : SocketAddr → IpAddr
  | .v4 a _ => .v4 a
  | .v6 a _ _ _ => .v6 a

def port : SocketAddr → UInt16
  | .v4 _ p => p
  | .v6 _ p _ _ => p

theorem ip_new (a : IpAddr) (p : UInt16) : (new a p).ip = a := by
  cases a with
  | v4 a => rfl
  | v6 a => rfl

theorem port_new (a : IpAddr) (p : UInt16) : (new a p).port = p := by
  cases a with
  | v4 a => rfl
  | v6 a => rfl

end SocketAddr

structure SessionId where
  raw : UInt64
deriving DecidableEq

namespace SessionId

/-- Forty bits of stream id under the connection counter. -/
def compose (connSeq streamId : UInt64) : SessionId :=
  ⟨(connSeq <<< 40) ||| (streamId &&& (((1 : UInt64) <<< 40) - 1))⟩

def streamId (s : SessionId) : UInt64 := s.raw &&& (((1 : UInt64) <<< 40) - 1)

def connSeq (s : SessionId) : UInt64 := s.raw >>> 40

end SessionId

structure AssignedAddress where
  requestId : Nat
  ipVersion : Nat
  ipAddress : IpAddr
  prefixLength : Nat
deriving DecidableEq

/-- One entry of an ADDRESS_REQUEST capsule; the unspecified address asks for any. -/
structure RequestedAddress where
  requestId : Nat
  ipVersion : Nat
  ipAddress : IpAddr
  prefixLength : Nat
deriving DecidableEq

end Straw
