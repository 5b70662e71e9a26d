import Straw.Lib.LazyPool
import Straw.Lib.Table
import Straw.Types

/-!
# The address pool

Addresses are handed out lazily: a cursor over the hosts of the configured net and a
set of released addresses. Two maps record the outcome, session to addresses and
address to session. The operations here run to completion, one after the other;
`Straw.AddressPool.Interleaving` takes them apart into their atomic steps.
-/

namespace Straw

open LazyPool
set_option autoImplicit false

/-- Offset 1 of a net, which the proxy keeps for itself on the TUN interface. -/
def gatewayOf {w : Nat} (net : NetPrefix w) : BitVec w := net.network + 1#w

structure V4Pool extends Pool (BitVec 32) Ipv4Addr where
  net : Ipv4Net

namespace V4Pool

/-- One iteration of the loop in `V4Pool::next`. The increment is the machine's, so
it would wrap around at `2^32`. -/
def iter (net : Ipv4Net) (cursor : BitVec 32) : Iter (BitVec 32) Ipv4Addr :=
  match Word.checkedAdd net.network cursor with
  | none => .exhausted
  | some candidate =>
    if net.broadcast ≤ candidate then .exhausted
    -- offset 0 is the network address, offset 1 the gateway
    else if cursor + 1#32 ≤ 2#32 then .skip (cursor + 1#32)
    else .found candidate (cursor + 1#32)

theorem iter_increment_fits {net : Ipv4Net} {cursor : BitVec 32}
    (h : iter net cursor ≠ .exhausted) : cursor.toNat + 1 < 2 ^ 32 := by
  unfold iter at h
  split at h
  · simp at h
  · rename_i candidate hc
    have hsum := Word.checkedAdd_some hc
    split at h
    · simp at h
    · rename_i hlt
      have hb := net.broadcast.isLt
      rw [BitVec.le_def] at hlt
      omega

def limit (net : Ipv4Net) : Nat := net.size - 1

theorem limit_lt (net : Ipv4Net) : limit net < 2 ^ 32 := by
  have hpos := net.size_pos
  have hle := net.network_add_size_le
  unfold limit
  omega

theorem iter_eq_offsets (net : Ipv4Net) : iter net = offsets net.network 2 (limit net) := by
  funext cursor
  have hb := net.broadcast.isLt
  have htop := net.toNat_broadcast
  unfold iter offsets Word.checkedAdd limit
  by_cases hlt : cursor.toNat < net.size - 1
  · have hfit : net.network.toNat + cursor.toNat < 2 ^ 32 := by omega
    have hbelow : ¬ net.broadcast ≤ net.network + cursor := by
      rw [BitVec.le_def, BitVec.toNat_add, Nat.mod_eq_of_lt hfit]
      omega
    have htwo : cursor + 1#32 ≤ 2#32 ↔ cursor.toNat < 2 := increment_le_iff (limit_lt net) hlt
    simp only [if_pos hfit, if_pos hlt, if_neg hbelow, htwo]
  · rw [if_neg hlt]
    by_cases hfit : net.network.toNat + cursor.toNat < 2 ^ 32
    · have habove : net.broadcast ≤ net.network + cursor := by
        rw [BitVec.le_def, BitVec.toNat_add, Nat.mod_eq_of_lt hfit]
        omega
      simp only [if_pos hfit, if_pos habove]
    · simp only [if_neg hfit]

def scan (net : Ipv4Net) : Scan (BitVec 32) Ipv4Addr :=
  scanOffsets (iter net) (limit_lt net) (iter_eq_offsets net)

def next (p : V4Pool) : Option Ipv4Addr × V4Pool :=
  let r := p.toPool.next (scan p.net)
  (r.1, { p with toPool := r.2 })

def Available (p : V4Pool) (a : Ipv4Addr) : Prop := p.toPool.Available (scan p.net) a

end V4Pool

structure V6Pool extends Pool (BitVec 128) Ipv6Addr where
  net : Ipv6Net

namespace V6Pool

def maxHosts (net : Ipv6Net) : BitVec 128 :=
  if 128 ≤ net.len then 1#128 else 1#128 <<< min (128 - net.len) 64

def iter (net : Ipv6Net) (cursor : BitVec 128) : Iter (BitVec 128) Ipv6Addr :=
  if maxHosts net ≤ cursor then .exhausted
  else
    match Word.checkedAdd net.network cursor with
    | none => .exhausted
    | some candidate =>
      -- offset 0 is the subnet-router anycast address, offset 1 the proxy itself
      if cursor + 1#128 ≤ 2#128 then .skip (cursor + 1#128)
      else .found candidate (cursor + 1#128)

def limit (net : Ipv6Net) : Nat := min (2 ^ 64) (2 ^ (128 - net.len))

theorem limit_lt (net : Ipv6Net) : limit net < 2 ^ 128 := by
  unfold limit
  omega

theorem limit_le_size (net : Ipv6Net) : limit net ≤ net.size := Nat.min_le_right _ _

theorem toNat_maxHosts (net : Ipv6Net) : (maxHosts net).toNat = limit net := by
  have hpow : min (2 ^ 64) (2 ^ (128 - net.len)) = 2 ^ min (128 - net.len) 64 := by
    rcases Nat.le_total (128 - net.len) 64 with h | h
    · rw [Nat.min_eq_left h, Nat.min_eq_right (Nat.pow_le_pow_right (by decide) h)]
    · rw [Nat.min_eq_right h, Nat.min_eq_left (Nat.pow_le_pow_right (by decide) h)]
  unfold maxHosts limit
  rw [hpow]
  split
  · have hzero : 128 - net.len = 0 := by omega
    simp [hzero]
  · have hlt : 2 ^ min (128 - net.len) 64 < 2 ^ 128 :=
      Nat.pow_lt_pow_right (by decide) (by omega)
    rw [BitVec.toNat_shiftLeft, BitVec.toNat_ofNat, Nat.shiftLeft_eq]
    simp only [Nat.reducePow, Nat.reduceMod, Nat.one_mul] at hlt ⊢
    exact Nat.mod_eq_of_lt hlt

theorem iter_increment_fits {net : Ipv6Net} {cursor : BitVec 128}
    (h : iter net cursor ≠ .exhausted) : cursor.toNat + 1 < 2 ^ 128 := by
  unfold iter at h
  split at h
  · simp at h
  · rename_i hlt
    rw [BitVec.le_def, toNat_maxHosts] at hlt
    unfold limit at hlt
    omega

theorem iter_eq_offsets (net : Ipv6Net) : iter net = offsets net.network 2 (limit net) := by
  funext cursor
  have hmax := toNat_maxHosts net
  unfold iter offsets
  simp only [BitVec.le_def (x := maxHosts net), hmax]
  by_cases hlt : cursor.toNat < limit net
  · have hsize := limit_le_size net
    have hle := net.network_add_size_le
    have htwo : cursor + 1#128 ≤ 2#128 ↔ cursor.toNat < 2 := increment_le_iff (limit_lt net) hlt
    rw [if_neg (by omega), if_pos hlt]
    unfold Word.checkedAdd
    simp only [if_pos (show net.network.toNat + cursor.toNat < 2 ^ 128 by omega), htwo]
  · rw [if_pos (by omega), if_neg hlt]

def scan (net : Ipv6Net) : Scan (BitVec 128) Ipv6Addr :=
  scanOffsets (iter net) (limit_lt net) (iter_eq_offsets net)

def next (p : V6Pool) : Option Ipv6Addr × V6Pool :=
  let r := p.toPool.next (scan p.net)
  (r.1, { p with toPool := r.2 })

def Available (p : V6Pool) (a : Ipv6Addr) : Prop := p.toPool.Available (scan p.net) a

end V6Pool

structure AddressPool where
  v4 : V4Pool
  v6 : Option V6Pool
  allocations : Table SessionId (List IpAddr)
  allocated : Table IpAddr SessionId

namespace AddressPool

def new (ipv4 : Ipv4Net) (ipv6 : Option Ipv6Net) : AddressPool where
  v4 := { cursor := 0#32, free := ∅, net := ipv4 }
  v6 := ipv6.map fun net => { cursor := 0#128, free := ∅, net }
  allocations := Table.empty
  allocated := Table.empty

/-- `10.100.0.0/29`, the net of the unit tests, with five assignable hosts. -/
def testNet : Ipv4Net := ⟨0x0a640000#32, 29, by decide, by decide⟩

/-- First host of the IPv4 pool; in a `/32` at the top of the space the sum wraps. -/
def ipv4Gateway (p : AddressPool) : Ipv4Addr × Nat := (gatewayOf p.v4.net, p.v4.net.len)

def poolNets (p : AddressPool) : List IpNet :=
  IpNet.v4 p.v4.net :: (p.v6.map fun pool => IpNet.v6 pool.net).toList

def held (p : AddressPool) (s : SessionId) : List IpAddr := (p.allocations s).getD []

def record (p : AddressPool) (s : SessionId) (addr : IpAddr) : AddressPool :=
  { p with
    allocated := p.allocated.insert addr s
    allocations := p.allocations.insert s (p.held s ++ [addr]) }

/-- The loop under the IPv4 lock: draw candidates until one is not allocated. -/
def drawV4 (p : AddressPool) : Option Ipv4Addr × AddressPool :=
  let r := p.v4.toPool.nextUntaken (V4Pool.scan p.v4.net) fun a => (p.allocated (.v4 a)).isSome
  (r.1, { p with v4 := { p.v4 with toPool := r.2 } })

def drawV6 (p : AddressPool) : Option Ipv6Addr × AddressPool :=
  match p.v6 with
  | none => (none, p)
  | some v6 =>
    let r := v6.toPool.nextUntaken (V6Pool.scan v6.net) fun a => (p.allocated (.v6 a)).isSome
    (r.1, { p with v6 := some { v6 with toPool := r.2 } })

def allocateV4 (p : AddressPool) (s : SessionId) : Option AssignedAddress × AddressPool :=
  match p.drawV4 with
  | (none, p) => (none, p)
  | (some addr, p) => (some ⟨0, 4, .v4 addr, 32⟩, p.record s (.v4 addr))

def allocateV6 (p : AddressPool) (s : SessionId) : Option AssignedAddress × AddressPool :=
  match p.drawV6 with
  | (none, p) => (none, p)
  | (some addr, p) => (some ⟨0, 6, .v6 addr, 128⟩, p.record s (.v6 addr))

/-- The address a request names; the unspecified address or a shorter prefix names none. -/
def specificAddress (r : RequestedAddress) : Option IpAddr :=
  match r.ipAddress with
  | .v4 a => if !a.isUnspecified && r.prefixLength == 32 then some (.v4 a) else none
  | .v6 a => if !a.isUnspecified && r.prefixLength == 128 then some (.v6 a) else none

/-- Whether a named address is one the pool may assign. Only IPv4 leaves out the
first and the last address of the net. -/
def inPool (p : AddressPool) : IpAddr → Bool
  | .v4 a => p.v4.net.contains a && a != p.v4.net.network && a != p.v4.net.broadcast
  | .v6 a =>
    match p.v6 with
    | some pool => pool.net.contains a
    | none => false

def tryAllocateSpecific (p : AddressPool) (s : SessionId) (addr : IpAddr) : Bool × AddressPool :=
  if !p.inPool addr then (false, p)
  -- the gateway of either family is compared with the IPv4 one only
  else if addr = .v4 p.ipv4Gateway.1 then (false, p)
  else if (p.allocated addr).isSome then (false, p)
  else (true, p.record s addr)

def allocateByVersion (p : AddressPool) (s : SessionId) (version : Nat) :
    Option AssignedAddress × AddressPool :=
  if version = 4 then p.allocateV4 s
  else if version = 6 then p.allocateV6 s
  else (none, p)

def allocateFallback (p : AddressPool) (s : SessionId) (r : RequestedAddress) :
    Option AssignedAddress × AddressPool :=
  let q := p.allocateByVersion s r.ipVersion
  (q.1.map fun a => { a with requestId := r.requestId }, q.2)

def allocateForRequest (p : AddressPool) (s : SessionId) (r : RequestedAddress) :
    Option AssignedAddress × AddressPool :=
  match specificAddress r with
  | none => p.allocateFallback s r
  | some addr =>
    match p.tryAllocateSpecific s addr with
    | (true, p) => (some ⟨r.requestId, r.ipVersion, addr, r.prefixLength⟩, p)
    | (false, p) => p.allocateFallback s r

def recycle (p : AddressPool) : IpAddr → AddressPool
  | .v4 a => { p with v4 := { p.v4 with toPool := p.v4.toPool.recycle a } }
  | .v6 a => { p with v6 := p.v6.map fun pool => { pool with toPool := pool.toPool.recycle a } }

def releaseOne (p : AddressPool) (addr : IpAddr) : AddressPool :=
  { p with allocated := p.allocated.remove addr }.recycle addr

def release (p : AddressPool) (s : SessionId) : AddressPool :=
  match p.allocations s with
  | none => p
  | some addrs => addrs.foldl releaseOne { p with allocations := p.allocations.remove s }

end AddressPool

end Straw
