import Mathlib.Data.List.AList
import Straw.Capsule.Basic
import Straw.Lib.Table

/-!
# The session table
-/

namespace Straw

set_option autoImplicit false

structure TunnelSession where
  id : SessionId
  assignedAddresses : List AssignedAddress
  advertisedRoutes : List IpAddressRange
  clientRoutes : List IpAddressRange
  proxyAddresses : List AssignedAddress
  lastActivity : Nat

structure SessionManager where
  sessions : AList fun _ : SessionId => TunnelSession
  /-- Snapshot of the assigned addresses, read for every datagram. -/
  assigned : Table SessionId (List AssignedAddress)
  /-- Zero means no limit. -/
  maxSessions : Nat

namespace SessionManager

def new (maxSessions : Nat) : SessionManager := ⟨∅, Table.empty, maxSessions⟩

def len (m : SessionManager) : Nat := m.sessions.entries.length

def insert (m : SessionManager) (session : TunnelSession) : Option SessionManager :=
  if 0 < m.maxSessions ∧ m.maxSessions ≤ m.len then none
  else
    some { m with
      assigned := m.assigned.insert session.id session.assignedAddresses
      sessions := m.sessions.insert session.id session }

def modify (m : SessionManager) (id : SessionId) (f : TunnelSession → TunnelSession) :
    SessionManager :=
  match m.sessions.lookup id with
  | some s => { m with sessions := m.sessions.insert id (f s) }
  | none => m

def setAssigned (m : SessionManager) (id : SessionId) (addrs : List AssignedAddress) :
    SessionManager :=
  let m := m.modify id fun s => { s with assignedAddresses := addrs }
  { m with assigned := m.assigned.insert id addrs }

def setClientRoutes (m : SessionManager) (id : SessionId) (routes : List IpAddressRange) :
    SessionManager :=
  m.modify id fun s => { s with clientRoutes := routes }

def setProxyAddresses (m : SessionManager) (id : SessionId) (addrs : List AssignedAddress) :
    SessionManager :=
  m.modify id fun s => { s with proxyAddresses := addrs }

def assignedSnapshot (m : SessionManager) (id : SessionId) : Option (List AssignedAddress) :=
  m.assigned id

def touch (m : SessionManager) (id : SessionId) (now : Nat) : SessionManager :=
  m.modify id fun s => { s with lastActivity := now }

def remove (m : SessionManager) (id : SessionId) : SessionManager :=
  { m with sessions := m.sessions.erase id, assigned := m.assigned.remove id }

def idleSessions (m : SessionManager) (maxIdle now : Nat) : List SessionId :=
  (m.sessions.entries.filter fun e => maxIdle < now - e.2.lastActivity).map fun e => e.2.id

@[simp] theorem modify_assigned (m : SessionManager) (id : SessionId)
    (f : TunnelSession → TunnelSession) : (m.modify id f).assigned = m.assigned := by
  unfold modify
  split <;> rfl

end SessionManager

end Straw
