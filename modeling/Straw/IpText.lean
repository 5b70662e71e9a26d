import Straw.Types

/-!
# IP addresses as text

What the standard library and the `ipnet` crate print for an address.
-/

namespace Straw

set_option autoImplicit false

namespace Ipv4Addr

def toText (a : Ipv4Addr) : String := ".".intercalate (a.octets.map fun o => toString o.toNat)

end Ipv4Addr

namespace Ipv6Addr

def segments (a : Ipv6Addr) : List Nat :=
  (List.range 8).map fun i => a.toNat / 2 ^ (16 * (7 - i)) % 2 ^ 16

/-- Start and length of the run of zeros at hand and of the longest one before it. -/
structure ZeroRuns where
  current : Nat × Nat
  longest : Nat × Nat

def ZeroRuns.note (runs : ZeroRuns) (i segment : Nat) : ZeroRuns :=
  if segment = 0 then
    let current := (if runs.current.2 = 0 then i else runs.current.1, runs.current.2 + 1)
    ⟨current, if runs.longest.2 < current.2 then current else runs.longest⟩
  else ⟨(0, 0), runs.longest⟩

def longestZeros (segments : List Nat) : Nat × Nat :=
  (segments.zipIdx.foldl (fun (runs : ZeroRuns) x => runs.note x.2 x.1) ⟨(0, 0), (0, 0)⟩).longest

def hexText (segments : List Nat) : String :=
  ":".intercalate (segments.map fun n => String.ofList (Nat.toDigits 16 n))

def toText (a : Ipv6Addr) : String :=
  if a.toNat / 2 ^ 32 = 0xffff then "::ffff:" ++ Ipv4Addr.toText (BitVec.ofNat 32 a.toNat)
  else
    let zeros := longestZeros a.segments
    if 1 < zeros.2 then
      hexText (a.segments.take zeros.1) ++ "::" ++ hexText (a.segments.drop (zeros.1 + zeros.2))
    else hexText a.segments

end Ipv6Addr

def IpAddr.toText : IpAddr → String
  | .v4 a => a.toText
  | .v6 a => a.toText

example : IpAddr.toText (.v6 0xfd006d61737100000000000000000000#128) = "fd00:6d61:7371::" := by
  decide +kernel

end Straw
