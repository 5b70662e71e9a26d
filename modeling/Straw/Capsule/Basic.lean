import Straw.Types

/-!
# Capsules

The capsules of IP proxying, and the address ranges of route advertisements.
-/

namespace Straw

set_option autoImplicit false

structure IpAddressRange where
  ipVersion : Nat
  startIp : IpAddr
  endIp : IpAddr
  ipProtocol : UInt8
deriving DecidableEq

def ipKey : IpAddr → Nat
  | .v4 a => a.toNat
  | .v6 a => a.toNat

def IpAddr.version : IpAddr → Nat
  | .v4 _ => 4
  | .v6 _ => 6

def IpAddr.icmpProto : IpAddr → UInt8
  | .v4 _ => 1
  | .v6 _ => 58

namespace IpAddressRange

/-- ICMP passes whatever the protocol scope, for addresses within the range. -/
def contains (r : IpAddressRange) (addr : IpAddr) (proto : UInt8) : Bool :=
  r.ipVersion == addr.version
    && (r.ipProtocol == 0 || r.ipProtocol == proto || proto == addr.icmpProto)
    && (ipKey r.startIp ≤ ipKey addr && ipKey addr ≤ ipKey r.endIp)

end IpAddressRange

inductive Capsule where
  | addressAssign (assignedAddresses : List AssignedAddress)
  | addressRequest (requestedAddresses : List RequestedAddress)
  | routeAdvertisement (ipAddressRanges : List IpAddressRange)
  | unknown (typeId : Nat) (data : Bytes)

end Straw
