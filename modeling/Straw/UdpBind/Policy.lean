import Straw.Types

/-!
# Destinations of a bind session

The relay refuses destinations in the local ranges unless the operator allowed them, and
in every prefix the operator denied. The ranges are told apart by the family an address
is written in: an IPv4 address mapped into IPv6 is in none of them.
-/

namespace Straw

set_option autoImplicit false

structure DestinationPolicy where
  denied : List IpNet
  allowed : List IpNet
  allowAll : Bool

def IpAddr.isLocal : IpAddr → Bool
  | .v4 a => a.isPrivate || a.isLoopback || a.isLinkLocal || a.isMulticast || a.isBroadcast ||
      a.isUnspecified || a.first == 0
  | .v6 a => a.isLoopback || a.isMulticast || a.isUnspecified ||
      (a.segment0 &&& 0xffc0) == 0xfe80 || (a.segment0 &&& 0xfe00) == 0xfc00

namespace DestinationPolicy

def withDenied (denied : List IpNet) : DestinationPolicy := ⟨denied, [], false⟩

def new (allowed denied : List IpNet) : DestinationPolicy := ⟨denied, allowed, false⟩

def allows (p : DestinationPolicy) (addr : SocketAddr) : Bool :=
  if addr.port = 0 then false
  else if p.allowAll then true
  else if p.denied.any fun net => net.contains addr.ip then false
  else if p.allowed.any fun net => net.contains addr.ip then true
  else !addr.ip.isLocal

/-- The two constructors for operators; only tests set `allow_all`. -/
def Configured (p : DestinationPolicy) : Prop :=
  (∃ denied, p = withDenied denied) ∨ ∃ allowed denied, p = new allowed denied

theorem Configured.allowAll_eq {p : DestinationPolicy} (h : p.Configured) : p.allowAll = false := by
  rcases h with ⟨denied, rfl⟩ | ⟨allowed, denied, rfl⟩
  · rfl
  · rfl

theorem allows_iff {p : DestinationPolicy} (h : p.Configured) (addr : SocketAddr) :
    p.allows addr = true ↔
      addr.port ≠ 0 ∧ (∀ net ∈ p.denied, net.contains addr.ip = false) ∧
        ((∃ net ∈ p.allowed, net.contains addr.ip = true) ∨ addr.ip.isLocal = false) := by
  unfold allows
  rw [h.allowAll_eq]
  by_cases hport : addr.port = 0
  · simp [hport]
  by_cases hdenied : p.denied.any (fun net => net.contains addr.ip) = true
  · obtain ⟨net, hmem, hcontains⟩ := List.any_eq_true.mp hdenied
    have hnot : ¬ ∀ net ∈ p.denied, net.contains addr.ip = false := by
      intro hall
      rw [hall net hmem] at hcontains
      cases hcontains
    simp [hport, hdenied, hnot]
  · have hall : ∀ net ∈ p.denied, net.contains addr.ip = false := by
      simpa using hdenied
    by_cases hallowed : p.allowed.any (fun net => net.contains addr.ip) = true
    · have hex := List.any_eq_true.mp hallowed
      simp only [hport, hdenied, hallowed, if_false, if_true, Bool.false_eq_true, ne_eq,
        not_false_eq_true, true_and, true_iff]
      exact ⟨hall, Or.inl hex⟩
    · have hnone : ¬ ∃ net ∈ p.allowed, net.contains addr.ip = true :=
        fun hex => hallowed (List.any_eq_true.mpr hex)
      simp only [hport, hdenied, hallowed, if_false, Bool.false_eq_true, ne_eq,
        not_false_eq_true, true_and, Bool.not_eq_true']
      constructor
      · exact fun hlocal => ⟨hall, Or.inr hlocal⟩
      · rintro ⟨-, hex | hlocal⟩
        · exact absurd hex hnone
        · exact hlocal

end DestinationPolicy

/-- `::ffff:a.b.c.d`. -/
def Ipv4Addr.toIpv6Mapped (a : Ipv4Addr) : Ipv6Addr := BitVec.ofNat 128 (0xffff * 2 ^ 32 + a.toNat)

theorem Ipv4Addr.toNat_toIpv6Mapped (a : Ipv4Addr) :
    a.toIpv6Mapped.toNat = 0xffff * 2 ^ 32 + a.toNat := by
  have hlt := a.isLt
  rw [toIpv6Mapped, BitVec.toNat_ofNat]
  omega

/-- No IPv6 range that the relay knows has a mapped address in it. -/
theorem isLocal_toIpv6Mapped (a : Ipv4Addr) : (IpAddr.v6 a.toIpv6Mapped).isLocal = false := by
  have hnat := a.toNat_toIpv6Mapped
  have hlt := a.isLt
  have hsegment : Ipv6Addr.segment0 a.toIpv6Mapped = 0 := by
    rw [Ipv6Addr.segment0, hnat]
    omega
  have hloopback : Ipv6Addr.isLoopback a.toIpv6Mapped = false := by
    rw [Ipv6Addr.isLoopback, beq_eq_false_iff_ne]
    intro heq
    rw [heq] at hnat
    simp at hnat
    omega
  have hunspecified : Ipv6Addr.isUnspecified a.toIpv6Mapped = false := by
    rw [Ipv6Addr.isUnspecified, beq_eq_false_iff_ne]
    intro heq
    rw [heq] at hnat
    simp at hnat
    omega
  have hmulticast : Ipv6Addr.isMulticast a.toIpv6Mapped = false := by
    rw [Ipv6Addr.isMulticast, hnat, beq_eq_false_iff_ne]
    omega
  simp only [IpAddr.isLocal, hloopback, hmulticast, hunspecified, hsegment]
  decide

/-- The mapped form of a destination is refused only by port and by denied IPv6 prefixes. -/
theorem DestinationPolicy.allows_mapped_iff {p : DestinationPolicy} (h : p.Configured)
    (a : Ipv4Addr) (port : UInt16) :
    p.allows (.v6 a.toIpv6Mapped port 0 0) = true ↔
      port ≠ 0 ∧ ∀ net ∈ p.denied, net.contains (.v6 a.toIpv6Mapped) = false := by
  rw [allows_iff h]
  simp only [SocketAddr.port, SocketAddr.ip, isLocal_toIpv6Mapped, or_true, and_true]

/-- When spelling an IPv4 destination as IPv6 gains nothing: the mapped form is refused or
allowed by name, or the IPv4 form is no worse. -/
def DestinationPolicy.Spelled (p : DestinationPolicy) (a : Ipv4Addr) (port : UInt16) : Prop :=
  port = 0 ∨ (∃ net ∈ p.denied, net.contains (.v6 a.toIpv6Mapped) = true) ∨
    (∃ net ∈ p.allowed, net.contains (.v6 a.toIpv6Mapped) = true) ∨
    ((∀ net ∈ p.denied, net.contains (.v4 a) = false) ∧
      ((∃ net ∈ p.allowed, net.contains (.v4 a) = true) ∨ (IpAddr.v4 a).isLocal = false))

theorem DestinationPolicy.spelled_iff {p : DestinationPolicy} (h : p.Configured) (a : Ipv4Addr)
    (port : UInt16) :
    (p.allows (.v6 a.toIpv6Mapped port 0 0) = true →
        p.allows (.v4 a port) = true ∨
          ∃ net ∈ p.allowed, net.contains (.v6 a.toIpv6Mapped) = true) ↔ p.Spelled a port := by
  rw [allows_mapped_iff h, allows_iff h, Spelled]
  simp only [SocketAddr.port, SocketAddr.ip]
  by_cases hport : port = 0
  · simp [hport]
  by_cases hdenied : ∃ net ∈ p.denied, net.contains (.v6 a.toIpv6Mapped) = true
  · have hnot : ¬ ∀ net ∈ p.denied, net.contains (.v6 a.toIpv6Mapped) = false := by
      intro hall
      obtain ⟨net, hmem, hcontains⟩ := hdenied
      rw [hall net hmem] at hcontains
      cases hcontains
    simp [hnot, hdenied]
  · have hall : ∀ net ∈ p.denied, net.contains (.v6 a.toIpv6Mapped) = false := by
      intro net hmem
      exact Bool.eq_false_iff.mpr fun hcontains => hdenied ⟨net, hmem, hcontains⟩
    simp only [hport, hdenied, ne_eq, not_false_eq_true, true_and, false_or]
    constructor
    · intro himp
      exact (himp hall).symm
    · intro hor _
      exact hor.symm

end Straw
