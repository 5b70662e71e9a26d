import Straw.Forwarding.ClientRanges
import Straw.Forwarding.Lookup
import Straw.Session.Operations
import Straw.Session.Ownership

/-!
# Client routes and the address pool

A prefix route is installed only when it has no address in common with the pool nets.
So an address of the pool is reached through the table of client addresses or not at
all, whatever the clients advertise.
-/

namespace Straw

open Transition AddressPool
set_option autoImplicit false

namespace RouteTable

def Clear (t : RouteTable) (nets : List IpNet) : Prop :=
  ∀ r ∈ t.routes, ∀ net ∈ nets, overlaps net r.net = false

theorem Clear.lookup {t : RouteTable} {nets : List IpNet} (h : t.Clear nets) {net : IpNet}
    (hnet : net ∈ nets) {dst : IpAddr} (hdst : net.contains dst = true) {proto : UInt8}
    {s : SessionId} (hlookup : t.lookup dst proto = some s) : t.clientAddrs dst = some s := by
  rcases lookup_cases hlookup with hclient | ⟨r, hr, hcontains, -⟩
  · exact hclient
  · have hoverlap := overlaps_of_common hdst hcontains
    rw [h r hr net hnet] at hoverlap
    cases hoverlap

end RouteTable

theorem AddressPool.poolNets_congr {p q : AddressPool} (h : q.nets = p.nets) :
    q.poolNets = p.poolNets := by
  obtain ⟨hv4, hv6⟩ := Prod.mk.inj h
  have hmap : ∀ r : AddressPool, (r.v6.map fun pool => IpNet.v6 pool.net) =
      (r.v6.map V6Pool.net).map IpNet.v6 := by
    intro r
    rw [Option.map_map]
    rfl
  simp only [poolNets, hmap, hv4, hv6]

namespace Operation

variable {s : SessionId} {srv srv' : Server} {stage : Stage}

theorem nets_eq (h : Operation s srv stage srv') : srv'.pool.nets = srv.pool.nets := by
  cases h with
  | allocate hgrant => exact hgrant.nets_eq
  | release => exact release_nets _ _
  | refresh mtu =>
    unfold Server.refreshMtu
    split <;> rfl
  | adopt ranges =>
    unfold Server.adoptRoutes
    split <;> rfl
  | quiet | install | register | manage | removeRoutes | unregister => rfl

theorem clear (h : Operation s srv stage srv')
    (hclear : srv.engine.routeTable.Clear srv.pool.poolNets) :
    srv'.engine.routeTable.Clear srv'.pool.poolNets := by
  rw [poolNets_congr h.nets_eq]
  cases h with
  | adopt ranges =>
    unfold Server.adoptRoutes
    split
    · intro r hr
      rcases List.mem_append.mp hr with hold | hnew
      · exact hclear r (List.mem_of_mem_filter hold)
      · exact entriesFromClientRanges_clear hnew
    · exact hclear
  | removeRoutes => exact fun r hr => hclear r (List.mem_of_mem_filter hr)
  | refresh mtu =>
    unfold Server.refreshMtu
    split <;> exact hclear
  | quiet | allocate | install | register | manage | release | unregister => exact hclear

end Operation

theorem demux_frame (srv : Server) (d : Received) :
    (srv.demux d).pool = srv.pool ∧ (srv.demux d).engine = srv.engine := by
  unfold Server.demux
  split
  · exact ⟨rfl, rfl⟩
  · split <;> exact ⟨rfl, rfl⟩

section Runs

variable {config : ProxyConfig} {ipv4 : Ipv4Net} {ipv6 : Option Ipv6Net}
  {tunTx : Option (Bytes → Bool)} {icmpSource : IcmpSource} {limits : RateLimits}
  {maxSessions : Nat}

theorem clear_step {σ τ : ServerSys} {label : ServerLabel} (h : Fires serverStep σ label τ)
    (hσ : σ.shared.pool.nets = (ipv4, ipv6) ∧
      σ.shared.engine.routeTable.Clear σ.shared.pool.poolNets) :
    τ.shared.pool.nets = (ipv4, ipv6) ∧
      τ.shared.engine.routeTable.Clear τ.shared.pool.poolNets := by
  cases label with
  | task s act =>
    obtain ⟨⟨srv, stage⟩, hstep, rfl⟩ := Option.map_eq_some_iff.mp h
    have hop := handle_operation hstep
    exact ⟨hop.nets_eq.trans hσ.1, hop.clear hσ.2⟩
  | env d =>
    obtain ⟨srv, hstep, rfl⟩ := Option.map_eq_some_iff.mp h
    cases d with
    | datagram d =>
      obtain rfl := Option.some.inj hstep
      obtain ⟨hpool, hengine⟩ := demux_frame σ.shared d
      rw [hpool, hengine]
      exact hσ
    | reap s =>
      obtain rfl := Option.some.inj hstep
      exact hσ

/-- In every run a packet for an address of the pool goes to the session that the table of
client addresses names, and never along an advertised prefix. -/
theorem lookup_pool_address {labels : List ServerLabel} {σ : ServerSys}
    (h : Run (Fires serverStep)
      (Server.initial config ipv4 ipv6 tunTx icmpSource limits maxSessions) labels σ)
    {net : IpNet} (hnet : net ∈ (AddressPool.new ipv4 ipv6).poolNets) {dst : IpAddr}
    (hdst : net.contains dst = true) {proto : UInt8} {s : SessionId}
    (hlookup : σ.shared.engine.routeTable.lookup dst proto = some s) :
    σ.shared.engine.routeTable.clientAddrs dst = some s := by
  have hinv := h.invariant
    (fun σ => σ.shared.pool.nets = (ipv4, ipv6) ∧
      σ.shared.engine.routeTable.Clear σ.shared.pool.poolNets)
    (fun _ _ _ hσ hstep => clear_step hstep hσ)
    ⟨new_nets ipv4 ipv6, fun r hr => by cases hr⟩
  have hnets : (AddressPool.new ipv4 ipv6).poolNets = σ.shared.pool.poolNets :=
    poolNets_congr ((new_nets ipv4 ipv6).trans hinv.1.symm)
  exact hinv.2.lookup (hnets ▸ hnet) hdst hlookup

end Runs

/-- The range is a block of 16 bits, as in the advertisement below. -/
def routingServer : ServerSys :=
  Server.initial ⟨1400, true, fun start _ => (IpNet.new start 16).toList⟩ testNet none none
    ⟨0x0a640001#32, none⟩ ⟨0, 0⟩ 0

/-- A client advertises a range around the pool and another one; only the second becomes a
route. -/
theorem lookup_pool_address_advertised :
    ∃ labels σ, Run (Fires serverStep) routingServer labels σ ∧
      σ.shared.engine.routeTable.routes.length = 1 ∧
      σ.shared.engine.routeTable.clientAddrs (.v4 0x0a640002#32) = some ⟨0⟩ := by
  let ranges : List IpAddressRange :=
    [⟨4, .v4 0x0a640000#32, .v4 0x0a64ffff#32, 0⟩, ⟨4, .v4 0xc0a80000#32, .v4 0xc0a8ffff#32, 0⟩]
  let labels : List ServerLabel := openTunnel 0 ++
    [.task ⟨0⟩ (.chunk ⟨[.routeAdvertisement ranges], true⟩), .task ⟨0⟩ (.tick true 0)]
  have hexec : (exec serverStep routingServer labels).map (fun σ =>
      (σ.shared.engine.routeTable.routes.length,
        σ.shared.engine.routeTable.lookup (.v4 0x0a640002#32) 17)) = some (1, some ⟨0⟩) := by
    decide +kernel
  obtain ⟨σ, hσ, hpair⟩ := Option.map_eq_some_iff.mp hexec
  obtain ⟨hroutes, hlookup⟩ := Prod.mk.inj hpair
  have hrun := run_of_exec hσ
  have hnet : IpNet.v4 testNet ∈ (AddressPool.new testNet none).poolNets := by
    simp [poolNets, new]
  exact ⟨labels, σ, hrun, hroutes, lookup_pool_address hrun hnet (by decide) hlookup⟩

end Straw
