import Straw.Session.Routes

/-!
# The flow scope of a request

What a request may reach, said of addresses and protocols: the target it names, or the
whole of what the proxy serves, for the protocol it names. The ranges that
`resolve_advertised_routes` computes contain exactly this.
-/

namespace Straw

open Codec Outcome
set_option autoImplicit false

/-- The proxy only serves families that it also assigns addresses of. -/
def RouteConfig.Serves (config : RouteConfig) (a : IpAddr) : Prop :=
  a.isIpv4 = true ∨ config.ipv6Pool.isSome = true

namespace RequestScope

def Reaches (config : RouteConfig) (pool : AddressPool) (resolver : Resolver)
    (scope : RequestScope) (a : IpAddr) : Prop :=
  match scope.target with
  | none => (∃ net ∈ pool.poolNets, net.contains a = true) ∨
      (config.splitRoutes = [] ∧ config.Serves a) ∨
      ∃ net ∈ config.splitRoutes, net.contains a = true
  | some (.prefixed ip prefixLen) =>
    ∃ net, IpNet.new ip prefixLen = some net ∧ net.contains a = true
  | some (.hostname host) =>
    ∃ addrs, resolver.lookupHost host = .ok addrs ∧ a ∈ addrs.map SocketAddr.ip ∧ config.Serves a

/-- Protocol 0 stands for all of them, and ICMP passes any protocol scope. -/
def Speaks (scope : RequestScope) (a : IpAddr) (proto : UInt8) : Prop :=
  scope.ipProto.getD 0 = 0 ∨ scope.ipProto = some proto ∨ proto = a.icmpProto

def Covers (config : RouteConfig) (pool : AddressPool) (resolver : Resolver)
    (scope : RequestScope) (a : IpAddr) (proto : UInt8) : Prop :=
  scope.Reaches config pool resolver a ∧ scope.Speaks a proto

theorem speaks_iff (scope : RequestScope) (a : IpAddr) (proto : UInt8) :
    scope.Speaks a proto ↔
      scope.ipProto.getD 0 = 0 ∨ scope.ipProto.getD 0 = proto ∨ proto = a.icmpProto := by
  cases hproto : scope.ipProto with
  | none =>
    simp only [Speaks, hproto, Option.getD_none, true_or]
  | some p => simp only [Speaks, hproto, Option.getD_some, Option.some.injEq]

end RequestScope

section Ranges

variable {a : IpAddr} {proto p : UInt8}

theorem IpAddressRange.contains_iff {r : IpAddressRange} :
    r.contains a proto = true ↔
      (r.ipVersion = a.version ∧ ipKey r.startIp ≤ ipKey a ∧ ipKey a ≤ ipKey r.endIp) ∧
        (r.ipProtocol = 0 ∨ r.ipProtocol = proto ∨ proto = a.icmpProto) := by
  simp only [contains, Bool.and_eq_true, Bool.or_eq_true, beq_iff_eq, decide_eq_true_eq, or_assoc]
  tauto

theorem IpNet.contains_iff_fromNet {net : IpNet} :
    net.contains a = true ↔
      (IpAddressRange.fromNet net p).ipVersion = a.version ∧
        ipKey (IpAddressRange.fromNet net p).startIp ≤ ipKey a ∧
        ipKey a ≤ ipKey (IpAddressRange.fromNet net p).endIp := by
  cases net with
  | v4 net =>
    cases a with
    | v4 a =>
      simp [contains, NetPrefix.contains, IpAddressRange.fromNet, IpAddr.version, ipKey,
        BitVec.le_def]
    | v6 a => simp [contains, IpAddressRange.fromNet, IpAddr.version]
  | v6 net =>
    cases a with
    | v4 a => simp [contains, IpAddressRange.fromNet, IpAddr.version]
    | v6 a =>
      simp [contains, NetPrefix.contains, IpAddressRange.fromNet, IpAddr.version, ipKey,
        BitVec.le_def]

theorem IpAddressRange.fromNet_contains_iff {net : IpNet} :
    (fromNet net p).contains a proto = true ↔
      net.contains a = true ∧ (p = 0 ∨ p = proto ∨ proto = a.icmpProto) := by
  rw [contains_iff, ← IpNet.contains_iff_fromNet, fromNet_ipProtocol]

theorem exists_fromNet_contains_iff {nets : List IpNet} :
    (∃ r ∈ nets.map fun net => IpAddressRange.fromNet net p, r.contains a proto = true) ↔
      (∃ net ∈ nets, net.contains a = true) ∧ (p = 0 ∨ p = proto ∨ proto = a.icmpProto) := by
  simp only [List.mem_map, exists_exists_and_eq_and, IpAddressRange.fromNet_contains_iff]
  constructor
  · rintro ⟨net, hnet, hcontains, hproto⟩
    exact ⟨⟨net, hnet, hcontains⟩, hproto⟩
  · rintro ⟨⟨net, hnet, hcontains⟩, hproto⟩
    exact ⟨net, hnet, hcontains, hproto⟩

/-- The full tunnel leaves out nothing but the addresses of a family without a pool. -/
theorem exists_fullTunnel_contains_iff {config : RouteConfig} :
    (∃ r ∈ (fullTunnelRoutes config.ipv6Pool.isSome).map fun r => { r with ipProtocol := p },
        r.contains a proto = true) ↔
      config.Serves a ∧ (p = 0 ∨ p = proto ∨ proto = a.icmpProto) := by
  have hv4 : ∀ x : Ipv4Addr, x.toNat ≤ 4294967295 := fun x => Nat.le_of_lt_succ x.isLt
  have hv6 : ∀ x : Ipv6Addr, x.toNat ≤ 340282366920938463463374607431768211455 :=
    fun x => Nat.le_of_lt_succ x.isLt
  simp only [List.mem_map, exists_exists_and_eq_and, IpAddressRange.contains_iff,
    fullTunnelRoutes, RouteConfig.Serves]
  cases config.ipv6Pool.isSome with
  | false =>
    cases a with
    | v4 x => simp [IpAddr.version, IpAddr.isIpv4, ipKey, hv4]
    | v6 x => simp [IpAddr.version, IpAddr.isIpv4]
  | true =>
    cases a with
    | v4 x => simp [IpAddr.version, ipKey, hv4]
    | v6 x => simp [IpAddr.version, ipKey, hv6]

theorem exists_host_contains_iff {ips : List IpAddr} :
    (∃ r ∈ ips.map fun ip => (⟨ip.version, ip, ip, p⟩ : IpAddressRange),
        r.contains a proto = true) ↔
      a ∈ ips ∧ (p = 0 ∨ p = proto ∨ proto = a.icmpProto) := by
  have hself : ∀ ip : IpAddr, (ip.version = a.version ∧ ipKey ip ≤ ipKey a ∧ ipKey a ≤ ipKey ip) ↔
      ip = a := by
    intro ip
    constructor
    · rintro ⟨hversion, hle, hge⟩
      have hkey := Nat.le_antisymm hle hge
      cases ip <;> cases a
      · exact congrArg IpAddr.v4 (BitVec.eq_of_toNat_eq hkey)
      · cases hversion
      · cases hversion
      · exact congrArg IpAddr.v6 (BitVec.eq_of_toNat_eq hkey)
    · rintro rfl
      exact ⟨rfl, Nat.le_refl _, Nat.le_refl _⟩
  simp only [List.mem_map, exists_exists_and_eq_and, IpAddressRange.contains_iff, hself]
  constructor
  · rintro ⟨ip, hip, rfl, hproto⟩
    exact ⟨hip, hproto⟩
  · rintro ⟨hmem, hproto⟩
    exact ⟨a, hmem, rfl, hproto⟩

end Ranges

section Resolution

variable {config : RouteConfig} {pool : AddressPool} {resolver : Resolver} {scope : RequestScope}

theorem exists_contains_append {xs ys : List IpAddressRange} {a : IpAddr} {proto : UInt8} :
    (∃ r ∈ xs ++ ys, r.contains a proto = true) ↔
      (∃ r ∈ xs, r.contains a proto = true) ∨ ∃ r ∈ ys, r.contains a proto = true := by
  simp only [List.mem_append, or_and_right, exists_or]

theorem advertisedRanges_covers {ranges : List IpAddressRange}
    (h : advertisedRanges config pool resolver scope = .ok ranges) (a : IpAddr) (proto : UInt8) :
    (∃ r ∈ ranges, r.contains a proto = true) ↔ scope.Covers config pool resolver a proto := by
  rw [RequestScope.Covers, RequestScope.speaks_iff, RequestScope.Reaches]
  unfold advertisedRanges at h
  cases htarget : scope.target with
  | none =>
    simp only [htarget] at h ⊢
    split at h
    · next hsplit =>
      obtain rfl := Except.ok.inj h
      rw [exists_contains_append, exists_fromNet_contains_iff, exists_fullTunnel_contains_iff,
        ← or_and_right, hsplit]
      simp
    · next hsplit =>
      obtain rfl := Except.ok.inj h
      rw [exists_contains_append, exists_fromNet_contains_iff, exists_fromNet_contains_iff,
        ← or_and_right]
      simp only [hsplit, false_and, false_or]
  | some target =>
    cases target with
    | prefixed ip prefixLen =>
      simp only [htarget] at h ⊢
      split at h
      · cases h
      · next net hnet =>
        obtain rfl := Except.ok.inj h
        simp only [hnet, Option.some.injEq, exists_eq_left', List.mem_singleton, exists_eq_left,
          IpAddressRange.fromNet_contains_iff]
    | hostname host =>
      simp only [htarget] at h ⊢
      split at h
      · cases h
      · next addrs haddrs =>
        split at h
        · cases h
        · obtain rfl := Except.ok.inj h
          rw [exists_host_contains_iff]
          simp only [haddrs, Except.ok.injEq, exists_eq_left', List.mem_filter, Bool.or_eq_true,
            RouteConfig.Serves]

/-- The routes of a session contain exactly what the scope of its request covers. -/
theorem resolveAdvertisedRoutes_covers {routes : List IpAddressRange}
    (h : resolveAdvertisedRoutes config pool resolver scope = .ok routes) (a : IpAddr)
    (proto : UInt8) :
    (∃ r ∈ routes, r.contains a proto = true) ↔ scope.Covers config pool resolver a proto := by
  obtain ⟨ranges, hranges, hout⟩ := bind_eq_ok.mp h
  obtain rfl := Except.ok.inj hout
  have hvalid : ∀ r ∈ ranges, r.Valid := fun r hr => (advertisedRanges_spec hranges r hr).1
  rw [mergeRanges_contains hvalid]
  exact advertisedRanges_covers hranges a proto

end Resolution

end Straw
