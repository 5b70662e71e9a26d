import Straw.AddressPool.Model
import Straw.Capsule.Merge

/-!
# The routes of a session

`resolve_advertised_routes` computes the ranges that a session advertises to its client
and enforces on the client's packets. All of them carry the protocol of the request, so
the merged ranges reach the client as they are.
-/

namespace Straw

open Codec Outcome
set_option autoImplicit false

def IpAddressRange.fromNet : IpNet → UInt8 → IpAddressRange
  | .v4 net, ipProtocol => ⟨4, .v4 net.network, .v4 net.broadcast, ipProtocol⟩
  | .v6 net, ipProtocol => ⟨6, .v6 net.network, .v6 net.broadcast, ipProtocol⟩

inductive Target where
  | hostname (host : String)
  | prefixed (ip : IpAddr) (prefixLen : Nat)

structure RequestScope where
  target : Option Target
  ipProto : Option UInt8

/-- The settings that route resolution reads. -/
structure RouteConfig where
  splitRoutes : List IpNet
  ipv6Pool : Option Ipv6Net

/-- What resolution asks of the libraries: `lookup_host` with its error text, and the
text of the error for a prefix longer than the address. -/
structure Resolver where
  lookupHost : String → Except String (List SocketAddr)
  prefixLenError : String

def fullTunnelRoutes (includeV6 : Bool) : List IpAddressRange :=
  ⟨4, .v4 0#32, .v4 (BitVec.allOnes 32), 0⟩ ::
    if includeV6 then [⟨6, .v6 0#128, .v6 (BitVec.allOnes 128), 0⟩] else []

def IpAddr.isIpv4 : IpAddr → Bool
  | .v4 _ => true
  | .v6 _ => false

/-- The ranges before they are merged. -/
def advertisedRanges (config : RouteConfig) (pool : AddressPool) (resolver : Resolver)
    (scope : RequestScope) : Except ProxyError (List IpAddressRange) :=
  let proto := scope.ipProto.getD 0
  match scope.target with
  | none =>
    let own := pool.poolNets.map fun net => IpAddressRange.fromNet net proto
    if config.splitRoutes = [] then
      .ok (own ++ (fullTunnelRoutes config.ipv6Pool.isSome).map fun r =>
        { r with ipProtocol := proto })
    else .ok (own ++ config.splitRoutes.map fun net => IpAddressRange.fromNet net proto)
  | some (.prefixed ip prefixLen) =>
    match IpNet.new ip prefixLen with
    | none => .error (.invalidRequest s!"invalid target prefix: {resolver.prefixLenError}")
    | some net => .ok [IpAddressRange.fromNet net proto]
  | some (.hostname host) =>
    match resolver.lookupHost host with
    | .error e => .error (.dnsFailure s!"{host}: {e}")
    | .ok addrs =>
      let hasV6 := config.ipv6Pool.isSome
      let ranges := ((addrs.map SocketAddr.ip).filter fun ip => ip.isIpv4 || hasV6).map
        fun ip => (⟨ip.version, ip, ip, proto⟩ : IpAddressRange)
      if ranges = [] then .error (.dnsFailure s!"{host}: no usable addresses") else .ok ranges

def resolveAdvertisedRoutes (config : RouteConfig) (pool : AddressPool) (resolver : Resolver)
    (scope : RequestScope) : Except ProxyError (List IpAddressRange) := do
  let ranges ← advertisedRanges config pool resolver scope
  .ok (mergeRanges ranges)

section Resolution

theorem IpAddressRange.fromNet_valid (net : IpNet) (proto : UInt8) : (fromNet net proto).Valid := by
  cases net with
  | v4 net =>
    refine ⟨⟨rfl, rfl⟩, ?_⟩
    change net.network.toNat ≤ net.broadcast.toNat
    rw [NetPrefix.toNat_broadcast]
    omega
  | v6 net =>
    refine ⟨⟨rfl, rfl⟩, ?_⟩
    change net.network.toNat ≤ net.broadcast.toNat
    rw [NetPrefix.toNat_broadcast]
    omega

theorem IpAddressRange.fromNet_ipProtocol (net : IpNet) (proto : UInt8) :
    (fromNet net proto).ipProtocol = proto := by
  cases net with
  | v4 net => rfl
  | v6 net => rfl

theorem fullTunnelRoutes_valid (includeV6 : Bool) (proto : UInt8) :
    ∀ r ∈ fullTunnelRoutes includeV6, ({ r with ipProtocol := proto } : IpAddressRange).Valid := by
  have hv4 : ipKey (.v4 0#32) ≤ ipKey (.v4 (BitVec.allOnes 32)) := by decide
  have hv6 : ipKey (.v6 0#128) ≤ ipKey (.v6 (BitVec.allOnes 128)) := by decide
  cases includeV6 with
  | false =>
    simp only [fullTunnelRoutes, Bool.false_eq_true, if_false, List.mem_singleton]
    rintro r rfl
    exact ⟨⟨rfl, rfl⟩, hv4⟩
  | true =>
    simp only [fullTunnelRoutes, if_true, List.mem_cons, List.not_mem_nil, or_false]
    rintro r (rfl | rfl)
    · exact ⟨⟨rfl, rfl⟩, hv4⟩
    · exact ⟨⟨rfl, rfl⟩, hv6⟩

variable {config : RouteConfig} {pool : AddressPool} {resolver : Resolver} {scope : RequestScope}
  {ranges : List IpAddressRange}

/-- Whatever the request asks for, its ranges are valid and of its protocol. -/
theorem advertisedRanges_spec (h : advertisedRanges config pool resolver scope = .ok ranges) :
    ∀ r ∈ ranges, r.Valid ∧ r.ipProtocol = scope.ipProto.getD 0 := by
  have hnets : ∀ nets : List IpNet,
      ∀ r ∈ nets.map fun net => IpAddressRange.fromNet net (scope.ipProto.getD 0),
        r.Valid ∧ r.ipProtocol = scope.ipProto.getD 0 := by
    intro nets r hr
    obtain ⟨net, -, rfl⟩ := List.mem_map.mp hr
    exact ⟨IpAddressRange.fromNet_valid net _, IpAddressRange.fromNet_ipProtocol net _⟩
  unfold advertisedRanges at h
  simp only at h
  split at h
  · split at h
    · obtain rfl := Except.ok.inj h
      intro r hr
      rcases List.mem_append.mp hr with hr | hr
      · exact hnets _ r hr
      · obtain ⟨r, hmem, rfl⟩ := List.mem_map.mp hr
        exact ⟨fullTunnelRoutes_valid _ _ r hmem, rfl⟩
    · obtain rfl := Except.ok.inj h
      intro r hr
      rcases List.mem_append.mp hr with hr | hr
      · exact hnets _ r hr
      · exact hnets _ r hr
  · split at h
    · cases h
    · rename_i net _
      obtain rfl := Except.ok.inj h
      exact hnets [net]
  · split at h
    · cases h
    · split at h
      · cases h
      · obtain rfl := Except.ok.inj h
        intro r hr
        obtain ⟨ip, -, rfl⟩ := List.mem_map.mp hr
        exact ⟨⟨⟨rfl, rfl⟩, Nat.le_refl _⟩, rfl⟩

end Resolution

section Agreement

variable {ε : Type} {ranges : List IpAddressRange}

theorem protocolsAscend_of_uniform {proto : UInt8} (h : ∀ r ∈ ranges, r.ipProtocol = proto) :
    ProtocolsAscend ranges := by
  intro a ha b hb _ _
  rw [h a ha, h b hb]
  exact UInt8.le_refl _

/-- Ranges of one protocol are advertised as they are enforced. -/
theorem mergeRanges_readBack (hvalid : ∀ r ∈ ranges, r.Valid) {proto : UInt8}
    (hproto : ∀ r ∈ ranges, r.ipProtocol = proto) :
    ∃ payload, ((Capsule.routeAdvertisement (mergeRanges ranges)).writtenPayload :
        Outcome ε Bytes) = .ok payload ∧
      (Capsule.routeAdvertisement (mergeRanges ranges)).ReadBack ε payload := by
  have hstrict := mergeRanges_strict hvalid (protocolsAscend_of_uniform hproto)
  have hsendable : (Capsule.routeAdvertisement (mergeRanges ranges)).Sendable := by
    refine ⟨mergeRanges_valid hvalid, hstrict.imp ?_⟩
    rintro a b ⟨-, hapart⟩ ⟨hversion, hprotocol, hab, hba⟩
    exact hapart ⟨hversion, hprotocol, Nat.le_succ_of_le hab, Nat.le_succ_of_le hba⟩
  obtain ⟨payload, hwritten, -, hread⟩ := Capsule.readBack_routeAdvertisement hsendable
  exact ⟨payload, hwritten, hread⟩

theorem sorted_mergeRanges (hvalid : ∀ r ∈ ranges, r.Valid) {proto : UInt8}
    (hproto : ∀ r ∈ ranges, r.ipProtocol = proto) :
    (Capsule.routeAdvertisement (mergeRanges ranges)).sorted =
      .routeAdvertisement (mergeRanges ranges) := by
  have hstrict := mergeRanges_strict hvalid (protocolsAscend_of_uniform hproto)
  exact congrArg Capsule.routeAdvertisement (sortRanges_of_strict (hstrict.imp fun hab => hab.1))

theorem EgressPolicy.allows_iff (dst : IpAddr) (proto : UInt8) :
    (EgressPolicy.mk ranges).allows dst proto = true ↔
      ∃ r ∈ ranges, r.contains dst proto = true := by
  rw [EgressPolicy.allows, List.any_eq_true]

/-- Merging never changes which packets are covered. Ranges of one protocol reach the
client exactly as the server enforces them, unless their payload is too long to encode. -/
theorem advertised_eq_enforced (hvalid : ∀ r ∈ ranges, r.Valid) :
    (∀ addr proto, (∃ r ∈ ranges, r.contains addr proto = true) ↔
      ∃ r ∈ mergeRanges ranges, r.contains addr proto = true) ∧
    ∀ proto, (∀ r ∈ ranges, r.ipProtocol = proto) →
      ∃ payload, ((Capsule.routeAdvertisement (mergeRanges ranges)).writtenPayload :
          Outcome ε Bytes) = .ok payload ∧
        ((2 ^ 62 ≤ payload.length ∧ (encodeCapsule (.routeAdvertisement (mergeRanges ranges)) :
            Outcome ε Bytes) = .error .panic) ∨
          ∃ bytes, (encodeCapsule (.routeAdvertisement (mergeRanges ranges)) :
              Outcome ε Bytes) = .ok bytes ∧
            ∀ rest, ∃ received,
              decodeCapsule (bytes ++ rest) = .ok (.routeAdvertisement received, rest) ∧
                received = mergeRanges ranges ∧
                ∀ addr proto, (∃ r ∈ received, r.contains addr proto = true) ↔
                  (EgressPolicy.mk (mergeRanges ranges)).allows addr proto = true) := by
  refine ⟨fun addr proto => (mergeRanges_contains hvalid addr proto).symm, ?_⟩
  intro proto hproto
  obtain ⟨payload, hwritten, hread⟩ := mergeRanges_readBack (ε := ε) hvalid hproto
  refine ⟨payload, hwritten, ?_⟩
  rcases hread with hpanic | ⟨bytes, hbytes, hdecode⟩
  · exact Or.inl hpanic
  · refine Or.inr ⟨bytes, hbytes, ?_⟩
    intro rest
    refine ⟨mergeRanges ranges, ?_, rfl, fun addr proto => (EgressPolicy.allows_iff _ _).symm⟩
    rw [hdecode rest, sorted_mergeRanges hvalid hproto]

theorem advertised_eq_enforced_testUniform :
    (∀ r ∈ testUniform, r.Valid) ∧ (∀ r ∈ testUniform, r.ipProtocol = 0) ∧
      ∃ bytes received, (encodeCapsule (.routeAdvertisement (mergeRanges testUniform)) :
          Outcome Unit Bytes) = .ok bytes ∧
        decodeCapsule bytes = .ok (.routeAdvertisement received, []) ∧
        received = mergeRanges testUniform := by
  have hvalid : ∀ r ∈ testUniform, r.Valid := by decide +kernel
  have hproto : ∀ r ∈ testUniform, r.ipProtocol = 0 := by decide +kernel
  refine ⟨hvalid, hproto, ?_⟩
  have hshort : ((Capsule.routeAdvertisement (mergeRanges testUniform)).writtenPayload :
      Outcome Unit Bytes).map List.length = .ok 44 := by decide +kernel
  obtain ⟨payload, hwritten, ⟨hlong, -⟩ | ⟨bytes, hbytes, hread⟩⟩ :=
    (advertised_eq_enforced (ε := Unit) hvalid).2 0 hproto
  · rw [hwritten] at hshort
    have hlen : payload.length = 44 := Except.ok.inj hshort
    omega
  · obtain ⟨received, hdecode, hsame, -⟩ := hread []
    rw [List.append_nil] at hdecode
    exact ⟨bytes, received, hbytes, hdecode, hsame⟩

/-- For every request that resolves, the client's view of the routes is the server's
policy. -/
theorem resolveAdvertisedRoutes_readBack {config : RouteConfig} {pool : AddressPool}
    {resolver : Resolver} {scope : RequestScope} {routes : List IpAddressRange}
    (h : resolveAdvertisedRoutes config pool resolver scope = .ok routes) :
    (∃ payload, ((Capsule.routeAdvertisement routes).writtenPayload : Outcome ε Bytes) =
        .ok payload ∧ (Capsule.routeAdvertisement routes).ReadBack ε payload) ∧
      (Capsule.routeAdvertisement routes).sorted = .routeAdvertisement routes := by
  obtain ⟨ranges, hranges, hout⟩ := bind_eq_ok.mp h
  obtain rfl := Except.ok.inj hout
  have hspec := advertisedRanges_spec hranges
  have hvalid : ∀ r ∈ ranges, r.Valid := fun r hr => (hspec r hr).1
  have hproto : ∀ r ∈ ranges, r.ipProtocol = scope.ipProto.getD 0 := fun r hr => (hspec r hr).2
  exact ⟨mergeRanges_readBack hvalid hproto, sorted_mergeRanges hvalid hproto⟩

end Agreement

end Straw
