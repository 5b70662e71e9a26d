import Mathlib.Data.Finset.Erase
import Mathlib.Data.Finset.Insert
import Straw.Types

/-!
# Allocation of public addresses

Ports are handed out round-robin across the configured addresses: every address is
tried at the current port before the port advances.
-/

namespace Straw

set_option autoImplicit false

structure PortAllocator where
  ips : List IpAddr
  portLo : UInt16
  portHi : UInt16
  ips_pos : 0 < ips.length
  ordered : portLo ≤ portHi
  inUse : Finset SocketAddr
  nextIp : Nat
  nextPort : UInt16

namespace PortAllocator

def new (ips : List IpAddr) (portLo portHi : UInt16) : Except String PortAllocator :=
  if hips : ips.length = 0 then .error "udp_bind allocator needs at least one public IP"
  else if hports : portHi < portLo then .error s!"inverted port range {portLo}..={portHi}"
  else .ok ⟨ips, portLo, portHi, Nat.pos_of_ne_zero hips, UInt16.not_lt.mp hports, ∅, 0, portLo⟩

def portAfter (a : PortAllocator) (port : UInt16) : UInt16 :=
  if a.portHi ≤ port then a.portLo else port + 1

def ipIndex (a : PortAllocator) (k : Nat) : Nat := (a.nextIp + k) % a.ips.length

def candidate (a : PortAllocator) (port : UInt16) (k : Nat) : SocketAddr :=
  SocketAddr.new (a.ips.get ⟨a.ipIndex k, Nat.mod_lt _ a.ips_pos⟩) port

def take (a : PortAllocator) (k : Nat) : PortAllocator :=
  let nextIp := (a.ipIndex k + 1) % a.ips.length
  { a with
    inUse := insert (a.candidate a.nextPort k) a.inUse
    nextIp
    nextPort := if nextIp = 0 then a.portAfter a.nextPort else a.nextPort }

/-- The first of the `n` ports from the cursor on at which some address is free. -/
def scan : Nat → PortAllocator → PortAllocator × Option SocketAddr
  | 0, a => (a, none)
  | n + 1, a =>
    match (List.range a.ips.length).find? fun k => a.candidate a.nextPort k ∉ a.inUse with
    | some k => (a.take k, some (a.candidate a.nextPort k))
    | none => scan n { a with nextPort := a.portAfter a.nextPort }

def allocate (a : PortAllocator) : PortAllocator × Option SocketAddr :=
  scan (a.portHi.toNat - a.portLo.toNat + 1) a

def release (a : PortAllocator) (addr : SocketAddr) : PortAllocator :=
  { a with inUse := a.inUse.erase addr }

theorem scan_some {n : Nat} {a b : PortAllocator} {addr : SocketAddr}
    (h : scan n a = (b, some addr)) : addr ∉ a.inUse ∧ b.inUse = insert addr a.inUse := by
  induction n generalizing a with
  | zero => cases h
  | succ n ih =>
    rw [scan] at h
    split at h
    · rename_i k hk
      cases h
      exact ⟨by simpa using List.find?_some hk, rfl⟩
    · have hlater := ih h
      exact hlater

theorem scan_none {n : Nat} {a b : PortAllocator} (h : scan n a = (b, none)) :
    b.inUse = a.inUse := by
  induction n generalizing a with
  | zero =>
    cases h
    rfl
  | succ n ih =>
    rw [scan] at h
    split at h
    · cases h
    · have hlater := ih h
      exact hlater

end PortAllocator

end Straw
