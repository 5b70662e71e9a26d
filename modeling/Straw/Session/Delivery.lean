import Straw.Forwarding.Accounting
import Straw.Forwarding.RateLimit
import Straw.Session.Ledger
import Straw.Session.Mtu
import Straw.Session.PoolRoutes
import Straw.Session.Wakeup

/-!
# Packets from the network to a session

The server with one more event: a packet read from the TUN device. A packet for an
address of the pool reaches the session that holds the address, over the tunnel its
handler opened and within the routes it was given. Only between the release of its
addresses and the removal of its routes can a session be handed a packet for an address
that it no longer holds.
-/

namespace Straw

open Outcome Packet Proc Transition AddressPool
set_option autoImplicit false

/-- The outcome of a packet from the network is only logged. -/
def Server.ingress (srv : Server) (packet : Bytes) : Server :=
  { srv with traffic := ((srv.engine.dispatchFromNetwork packet).exec srv.traffic).2 }

inductive Outside where
  | background (b : Background)
  | network (packet : Bytes)

def outside : Outside → Server → Option Server
  | .background b, srv => background b srv
  | .network packet, srv => some (srv.ingress packet)

abbrev NetworkLabel := Tasks.Label SessionId HandlerAct Outside

def networkStep : ServerSys → NetworkLabel → Option ServerSys := Tasks.step handle outside

namespace Stage

/-- The tunnel a stage works for; none before the request and in the teardown. -/
def serves : Stage → Option Tunnel
  | accept t | allocateV4 t | allocateV6 t _ | sendAssign t _ | sendRoutes t _ => some t
  | install t _ _ | register t _ | publish t _ | loop t _ | capsules t _ _ => some t
  | request t _ _ _ | installOne t _ _ _ _ | reply t _ _ => some t
  | _ => none

theorem phase_of_serves {stage : Stage} {t : Tunnel} (h : stage.serves = some t) :
    stage.phase = .serving := by
  cases stage <;> first | rfl | cases h

end Stage

namespace ForwardingEngine

/-- The engine knows session `s` by the tunnel `t`. -/
def Serves (e : ForwardingEngine) (s : SessionId) (t : Tunnel) : Prop :=
  e.sessionSinks s = some (.datagram t.conn t.qsid) ∧ e.policies s = some ⟨t.routes⟩

def Detached (e : ForwardingEngine) (s : SessionId) : Prop :=
  e.sessionSinks s = none ∧ e.policies s = none

end ForwardingEngine

/-- What a step of a session task does to its tunnel. -/
inductive TunnelStep (s : SessionId) (srv : Server) (stage : Stage) (srv' : Server) : Stage → Prop where
  | start (streamId : UInt64) (conn : DatagramConn) (routes : List IpAddressRange) :
      stage = .idle → srv'.engine = srv.engine →
      TunnelStep s srv stage srv' (.accept ⟨quarterStreamId streamId, conn, routes⟩)
  | register {t : Tunnel} {assigned : List AssignedAddress} (mtu now : Nat) :
      stage = .register t assigned →
      srv' = srv.registerSession s (.datagram t.conn t.qsid) ⟨t.routes⟩ mtu now →
      TunnelStep s srv stage srv' (.publish t assigned)
  | serve {stage' : Stage} {t : Tunnel} : stage'.serves = some t → stage.serves = some t →
      stage'.registered = stage.registered →
      srv'.engine.sessionSinks = srv.engine.sessionSinks →
      srv'.engine.policies = srv.engine.policies → TunnelStep s srv stage srv' stage'
  | finish : stage.phase = .serving → srv'.engine = srv.engine →
      (∀ a ∈ srv.pool.held s, a ∈ srv'.pool.held s) → TunnelStep s srv stage srv' .release
  | leave {stage' : Stage} : stage'.serves = none → stage' ≠ .release →
      (∀ sink, srv'.engine.sessionSinks s = some sink → srv.engine.sessionSinks s = some sink) →
      (∀ p, srv'.engine.policies s = some p → srv.engine.policies s = some p) →
      TunnelStep s srv stage srv' stage'

namespace TunnelStep

variable {s : SessionId} {srv srv' : Server} {stage stage' : Stage} {t : Tunnel}

theorem orTeardown (ok : Bool) {next : Stage} (hstage : stage.serves = some t)
    (hnext : next.serves = some t) (hreg : next.registered = stage.registered) :
    TunnelStep s srv stage srv (Stage.orTeardown ok next) := by
  unfold Stage.orTeardown
  split
  · exact .serve hnext hstage hreg rfl rfl
  · exact .finish (Stage.phase_of_serves hstage) rfl fun _ ha => ha

theorem handleCapsule {assigned : List AssignedAddress} {queue pending : Pending}
    (capsule : Capsule) :
    TunnelStep s srv (.capsules t assigned queue)
      (Stage.handleCapsule srv s t assigned pending capsule).1
      (Stage.handleCapsule srv s t assigned pending capsule).2 := by
  cases capsule with
  | addressRequest requests => exact .serve rfl rfl rfl rfl rfl
  | routeAdvertisement ranges =>
    have hsinks : (srv.adoptRoutes s ranges).engine.sessionSinks = srv.engine.sessionSinks := by
      unfold Server.adoptRoutes
      split <;> rfl
    exact .serve rfl rfl rfl hsinks (adoptRoutes_frame srv s ranges).2.1
  | addressAssign addrs => exact .serve rfl rfl rfl rfl rfl
  | unknown typeId data => exact .serve rfl rfl rfl rfl rfl

theorem of_tick {ok : Bool} {now : Nat} (h : stage.Ticks s ok now srv srv' stage') :
    TunnelStep s srv stage srv' stage' := by
  cases h with
  | accept t | sendAssign t | sendRoutes t | reply t => exact orTeardown ok (t := t) rfl rfl rfl
  | allocateV6 t assigned =>
    have hgrant := srv.pool.allocateV6_allocates s none
    split
    · refine .finish rfl rfl ?_
      intro a ha
      rw [hgrant.held_eq s, if_pos rfl]
      exact List.mem_append_left _ ha
    · exact .serve rfl rfl rfl rfl rfl
  | register => exact .register _ _ rfl rfl
  | broken => exact .finish rfl rfl fun _ ha => ha
  | capsule _ _ capsule => exact .handleCapsule capsule
  | allocateV4 | installed | install | publish | drained | answer | grant | deny | installOne =>
    exact .serve rfl rfl rfl rfl rfl
  | release | removeRoutes | remove =>
    exact .leave rfl (fun heq => by cases heq) (fun _ hsink => hsink) fun _ hp => hp
  | unregister =>
    refine .leave rfl (fun heq => by cases heq) ?_ ?_
    · intro sink hsink
      have hnone : (srv.unregisterSession s).engine.sessionSinks s = none := Table.remove_self _ _
      rw [hnone] at hsink
      cases hsink
    · intro p hp
      have hnone : (srv.unregisterSession s).engine.policies s = none := Table.remove_self _ _
      rw [hnone] at hp
      cases hp

theorem of_handle {act : HandlerAct} (h : handle s act srv stage = some (srv', stage')) :
    TunnelStep s srv stage srv' stage' := by
  cases handle_cases h with
  | tick htick => exact of_tick htick
  | start => exact .start _ _ _ rfl rfl
  | full => exact .leave rfl (fun heq => by cases heq) (fun _ hsink => hsink) fun _ hp => hp
  | chunk => exact .serve rfl rfl rfl rfl rfl
  | close => exact .finish rfl rfl fun _ ha => ha
  | refreshMtu max t assigned =>
    have hsinks : ∀ mtu, (srv.refreshMtu s mtu).engine.sessionSinks = srv.engine.sessionSinks := by
      intro mtu
      unfold Server.refreshMtu
      split <;> rfl
    exact .serve rfl rfl rfl (hsinks _) (refreshMtu_frame srv s _).2.1

end TunnelStep

/-- What holds of a session while the network sends packets to it. -/
structure Standing (s : SessionId) (srv : Server) (stage : Stage) : Prop where
  ledger : Ledger s srv stage.facts
  /-- The ledger is silent about a tunnel that has just ended. -/
  released : stage = .release →
    ∀ a, srv.engine.routeTable.clientAddrs a = some s → a ∈ srv.pool.held s
  framed : ∀ t, stage.serves = some t → t.qsid.toNat < 2 ^ 62
  served : ∀ t, stage.serves = some t → stage.registered = true →
    srv.engine.Serves s t ∨ srv.engine.Detached s
  sink : ∀ sink, srv.engine.sessionSinks s = some sink →
    ∃ conn qsid, sink = .datagram conn qsid ∧ qsid.toNat < 2 ^ 62

namespace Standing

variable {s t : SessionId} {srv srv' : Server} {stage stage' : Stage}

/-- Whoever the route table names for an address holds it, or has just given it back. -/
theorem holds (h : Standing s srv stage) {a : IpAddr}
    (ha : srv.engine.routeTable.clientAddrs a = some s) :
    a ∈ srv.pool.held s ∨ stage = .removeRoutes := by
  by_cases hrel : stage.facts.phase = .releasing
  · have hrelease : stage = .release := by
      cases stage <;> first | rfl | cases hrel
    exact Or.inl (h.released hrelease a ha)
  by_cases hun : stage.facts.phase = .unrouting
  · right
    cases stage <;> first | rfl | cases hun
  obtain ⟨installed, hsplit, hiff⟩ := h.ledger.addrs hrel hun
  left
  rw [h.ledger.held hrel, hsplit, List.map_append]
  exact List.mem_append_left _ ((hiff a).mp ha)

theorem clientAddrs_iff {t : Tunnel} {assigned : List AssignedAddress}
    (h : Standing s srv (.loop t assigned)) (a : IpAddr) :
    srv.engine.routeTable.clientAddrs a = some s ↔ a ∈ assigned.map (·.ipAddress) := by
  obtain ⟨installed, hsplit, hiff⟩ := h.ledger.addrs
    (by simp [Stage.facts, Stage.phase]) (by simp [Stage.facts, Stage.phase])
  have hinstalled : assigned = installed := hsplit.trans (List.append_nil installed)
  rw [hinstalled]
  exact hiff a

theorem allows_iff {t : Tunnel} {assigned : List AssignedAddress}
    (h : Standing s srv (.loop t assigned)) (a : IpAddr) (proto : UInt8) :
    srv.engine.allows s a proto = true ↔
      (srv.engine.policies s).isSome ∧ ∃ r ∈ t.routes, r.contains a proto = true := by
  rw [ForwardingEngine.allows]
  rcases h.served t rfl rfl with ⟨-, hpolicy⟩ | ⟨-, hnone⟩
  · rw [hpolicy]
    simp only [Option.isSome_some, true_and]
    exact List.any_eq_true
  · rw [hnone]
    simp

theorem own {act : HandlerAct} (h : Standing s srv stage)
    (hstep : handle s act srv stage = some (srv', stage')) : Standing s srv' stage' := by
  have hledger := h.ledger.own hstep
  cases TunnelStep.of_handle hstep with
  | start streamId conn routes hidle hengine =>
    refine ⟨hledger, fun heq => (by cases heq), ?_, fun _ _ hreg => (by cases hreg), hengine ▸ h.sink⟩
    intro t ht
    obtain rfl := Option.some.inj ht
    exact quarterStreamId_lt streamId
  | @register t assigned mtu now hstage hsrv =>
    subst hstage hsrv
    have hlt := h.framed t rfl
    refine ⟨hledger, fun heq => (by cases heq), fun u hu => Option.some.inj hu ▸ hlt, ?_, ?_⟩
    · intro u hu _
      obtain rfl := Option.some.inj hu
      exact Or.inl ⟨Table.insert_self _ _ _, Table.insert_self _ _ _⟩
    · intro sink hsink
      have hnew : (srv.registerSession s (.datagram t.conn t.qsid) ⟨t.routes⟩ mtu now).engine.sessionSinks
          s = some (.datagram t.conn t.qsid) := Table.insert_self _ _ _
      obtain rfl := Option.some.inj (hnew.symm.trans hsink)
      exact ⟨t.conn, t.qsid, rfl, hlt⟩
  | @serve _ t hserves hbefore hreg hsinks hpolicies =>
    refine ⟨hledger, ?_, fun u hu => h.framed u (hbefore.trans (hserves.symm.trans hu)), ?_,
      hsinks ▸ h.sink⟩
    · rintro rfl
      cases hserves
    · intro u hu hregistered
      have hold := h.served u (hbefore.trans (hserves.symm.trans hu)) (hreg ▸ hregistered)
      rw [ForwardingEngine.Serves, ForwardingEngine.Detached, hsinks, hpolicies]
      exact hold
  | finish hserving hengine hheld =>
    refine ⟨hledger, ?_, fun _ ht => (by cases ht), fun _ ht => (by cases ht), hengine ▸ h.sink⟩
    intro _ a ha
    rw [hengine] at ha
    rcases h.holds ha with hmem | rfl
    · exact hheld a hmem
    · cases hserving
  | leave hserves hne hsink hpolicy =>
    refine ⟨hledger, fun heq => absurd heq hne, ?_, ?_, fun sink hs => h.sink sink (hsink sink hs)⟩
    · intro t ht
      rw [hserves] at ht
      cases ht
    · intro t ht
      rw [hserves] at ht
      cases ht

/-- The parts of the server that a session's standing depends on. -/
theorem congr (h : Standing s srv stage) (hledger : Ledger s srv' stage.facts)
    (haddrs : ∀ a, srv'.engine.routeTable.clientAddrs a = some s →
      srv.engine.routeTable.clientAddrs a = some s)
    (hheld : srv'.pool.held s = srv.pool.held s)
    (hengine : srv'.engine.sessionSinks s = srv.engine.sessionSinks s ∧
        srv'.engine.policies s = srv.engine.policies s ∨ srv'.engine.Detached s) :
    Standing s srv' stage := by
  refine ⟨hledger, ?_, h.framed, ?_, ?_⟩
  · intro hrelease a ha
    rw [hheld]
    exact h.released hrelease a (haddrs a ha)
  · intro t ht hreg
    rcases hengine with ⟨hsinks, hpolicies⟩ | hdetached
    · rw [ForwardingEngine.Serves, ForwardingEngine.Detached, hsinks, hpolicies]
      exact h.served t ht hreg
    · exact Or.inr hdetached
  · intro sink hsink
    rcases hengine with ⟨hsinks, -⟩ | ⟨hnone, -⟩
    · exact h.sink sink (hsinks ▸ hsink)
    · rw [hnone] at hsink
      cases hsink

theorem other {stage stage' mine : Stage} {act : HandlerAct} (hst : s ≠ t)
    (hk : Standing t srv stage) (hi : Standing s srv mine)
    (hstep : handle t act srv stage = some (srv', stage')) : Standing s srv' mine := by
  have hledger := Ledger.other hst hk.ledger hi.ledger hstep
  rcases (handle_operation hstep).frame hi.ledger.consistent with ⟨a, ha, rfl⟩ | hkeeps
  · refine hi.congr hledger ?_ rfl (Or.inl ⟨rfl, rfl⟩)
    intro b hb
    have hinsert : (srv.insertClientAddr a.ipAddress t).engine.routeTable.clientAddrs b =
        if b = a.ipAddress then some t else srv.engine.routeTable.clientAddrs b :=
      Table.insert_apply _ _ _ _
    rw [hinsert] at hb
    split at hb
    · exact absurd (Option.some.inj hb).symm hst
    · exact hb
  · have hk := hkeeps s hst
    refine hi.congr hledger (fun b hb => (hk.clientAddrs b).mp hb) ?_ (Or.inl ⟨hk.sink, hk.policy⟩)
    rw [AddressPool.held, AddressPool.held, hk.allocations]

theorem ingress (h : Standing s srv stage) (packet : Bytes) :
    Standing s (srv.ingress packet) stage := by
  refine h.congr ?_ (fun _ ha => ha) rfl (Or.inl ⟨rfl, rfl⟩)
  refine h.ledger.congr h.ledger.consistent rfl (fun _ _ _ => Iff.rfl) (fun r hr _ => hr) ?_ rfl rfl
  rintro ⟨hsink, hpolicy, hmtu, hlimiter⟩
  exact ⟨hsink, hpolicy, hmtu,
    srv.engine.dispatchFromNetwork_limiters (P := fun table => table s = none) packet srv.traffic
      hlimiter⟩

theorem outside {d : Outside} (h : Standing s srv stage)
    (hstep : Straw.outside d srv = some srv') : Standing s srv' stage := by
  cases d with
  | network packet => exact Option.some.inj hstep ▸ h.ingress packet
  | background b =>
    have hledger := h.ledger.outside hstep
    cases b with
    | datagram d =>
      obtain rfl := Option.some.inj hstep
      obtain ⟨hpool, hengine⟩ := demux_frame srv d
      exact h.congr hledger (fun a ha => hengine ▸ ha) (by rw [hpool])
        (Or.inl (by rw [hengine]; exact ⟨rfl, rfl⟩))
    | reap t =>
      obtain rfl := Option.some.inj hstep
      refine h.congr hledger (fun _ ha => ha) rfl ?_
      by_cases hst : s = t
      · subst hst
        exact Or.inr ⟨Table.remove_self _ _, Table.remove_self _ _⟩
      · exact Or.inl ⟨Table.remove_of_ne _ hst, Table.remove_of_ne _ hst⟩

end Standing

/-- The connection of the tunnel takes the packet as a datagram. -/
def Tunnel.Takes (t : Tunnel) (packet : Bytes) : Prop :=
  ∃ wire, (encodeQuicDatagram t.qsid (.ipPacket packet) : Outcome ForwardingError Bytes) =
      .ok wire ∧ t.conn.maxDatagramSize.any (· < wire.length) = false ∧
    t.conn.sendDatagram wire = true

theorem ForwardingEngine.deliverToSession_of_oversize {e : ForwardingEngine} {s : SessionId}
    {conn : DatagramConn} {qsid : UInt64} {packet wire : Bytes}
    (hsink : e.sessionSinks s = some (.datagram conn qsid))
    (hwire : (encodeQuicDatagram qsid (.ipPacket packet) : Outcome ForwardingError Bytes) =
      .ok wire)
    (hover : conn.maxDatagramSize.any (· < wire.length) = true) (traffic : Traffic) :
    ((e.deliverToSession s packet).exec traffic).1 = .error (.err .mtuExceeded) := by
  rw [deliverToSession, exec_bind, handToSink_of_wire hsink hwire, sendWire, if_pos hover]
  rfl

theorem ForwardingEngine.Serves.deliver_iff {e : ForwardingEngine} {s : SessionId} {t : Tunnel}
    (h : e.Serves s t) (hframed : t.qsid.toNat < 2 ^ 62) (packet : Bytes) (traffic : Traffic) :
    ((e.deliverToSession s packet).exec traffic).1 = .ok () ↔ t.Takes packet := by
  obtain ⟨wire, hwire, -⟩ := encodeQuicDatagram_length (ε := ForwardingError) hframed packet
  cases hfits : t.conn.maxDatagramSize.any (· < wire.length) with
  | false =>
    rw [deliverToSession_of_fits h.1 hwire hfits]
    constructor
    · intro hok
      refine ⟨wire, hwire, hfits, ?_⟩
      split at hok
      · assumption
      · cases hok
    · rintro ⟨wire', hwire', -, hsend⟩
      obtain rfl := Except.ok.inj (hwire.symm.trans hwire')
      rw [if_pos hsend]
  | true =>
    constructor
    · intro hok
      rw [deliverToSession_of_oversize h.1 hwire hfits] at hok
      cases hok
    · rintro ⟨wire', hwire', hfits', -⟩
      obtain rfl := Except.ok.inj (hwire.symm.trans hwire')
      rw [hfits] at hfits'
      cases hfits'

/-- Every token bucket has the configured rates and holds at most a second of them. -/
def Metered (limits : RateLimits) (table : Table SessionId SessionLimiter) : Prop :=
  ∀ s limiter, table s = some limiter → limiter.Bounded ∧ limiter.limits = limits

structure Rated (limits : RateLimits) (srv : Server) : Prop where
  engine : srv.engine.limits = limits
  buckets : Metered limits srv.traffic.limiters

namespace Rated

variable {limits : RateLimits} {srv srv' : Server} {s : SessionId}

theorem keptByCalls_metered (limits : RateLimits) :
    ForwardingEngine.KeptByCalls (Metered limits) := by
  intro table id limiter bytes now admitted after htable hlimiter hcall s other hother
  by_cases hs : s = id
  · rw [hs, Table.insert_self] at hother
    obtain rfl := Option.some.inj hother
    obtain ⟨hbounded, hlimits⟩ := htable id limiter hlimiter
    have hafter : (limiter.tryConsumeAt bytes now).2 = after :=
      congrArg Prod.snd (SessionLimiter.tryConsume_eq_ok hcall)
    rw [← hafter]
    exact ⟨hbounded.tryConsumeAt bytes now, SessionLimiter.limits_tryConsumeAt.trans hlimits⟩
  · rw [Table.insert_of_ne _ _ hs] at hother
    exact htable s other hother

theorem register (h : Rated limits srv) (sink : SessionSink) (policy : EgressPolicy)
    (mtu now : Nat) : Rated limits (srv.registerSession s sink policy mtu now) := by
  refine ⟨h.engine, ?_⟩
  intro t limiter hlimiter
  simp only [Server.registerSession] at hlimiter
  split at hlimiter
  · exact h.buckets t limiter hlimiter
  · rw [Table.insert_apply] at hlimiter
    split at hlimiter
    · obtain rfl := Option.some.inj hlimiter
      exact ⟨SessionLimiter.bounded_new _ now, h.engine⟩
    · exact h.buckets t limiter hlimiter

theorem unregister (h : Rated limits srv) (s : SessionId) :
    Rated limits (srv.unregisterSession s) := by
  refine ⟨h.engine, ?_⟩
  intro t limiter hlimiter
  simp only [Server.unregisterSession, Table.remove_apply] at hlimiter
  split at hlimiter
  · cases hlimiter
  · exact h.buckets t limiter hlimiter

theorem operation {stage : Stage} (h : Rated limits srv) (hop : Operation s srv stage srv') :
    Rated limits srv' := by
  cases hop with
  | quiet => exact h
  | allocate hgrant => exact ⟨h.engine, h.buckets⟩
  | install ha => exact ⟨h.engine, h.buckets⟩
  | register sink policy mtu now => exact h.register sink policy mtu now
  | refresh mtu =>
    unfold Server.refreshMtu
    split
    · exact ⟨h.engine, h.buckets⟩
    · exact h
  | adopt ranges =>
    unfold Server.adoptRoutes
    split
    · exact ⟨h.engine, h.buckets⟩
    · exact ⟨h.engine, h.buckets⟩
  | manage hsame => exact ⟨h.engine, h.buckets⟩
  | release => exact ⟨h.engine, h.buckets⟩
  | removeRoutes => exact ⟨h.engine, h.buckets⟩
  | unregister => exact h.unregister s

theorem demux (h : Rated limits srv) (d : Received) : Rated limits (srv.demux d) := by
  have hforward : ∀ {s packet now r}, srv.forward s packet now = some r →
      Metered limits r.2.limiters := by
    intro s packet now r hr
    obtain ⟨assigned, -, rfl⟩ := Option.map_eq_some_iff.mp hr
    exact ForwardingEngine.forwardFromClient_limiters (keptByCalls_metered limits) srv.engine
      assigned packet now srv.traffic h.buckets
  unfold Server.demux
  split
  · exact h
  · split
    · exact h
    · exact ⟨h.engine, hforward ‹_›⟩
    · exact ⟨h.engine, hforward ‹_›⟩

theorem step {σ τ : ServerSys} {label : NetworkLabel} (h : Rated limits σ.shared)
    (hstep : Fires networkStep σ label τ) : Rated limits τ.shared := by
  cases label with
  | task s act =>
    obtain ⟨⟨srv, stage⟩, hact, rfl⟩ := Option.map_eq_some_iff.mp hstep
    exact h.operation (handle_operation hact)
  | env d =>
    obtain ⟨srv, hact, rfl⟩ := Option.map_eq_some_iff.mp hstep
    cases d with
    | network packet =>
      obtain rfl := Option.some.inj hact
      exact ⟨h.engine, ForwardingEngine.dispatchFromNetwork_limiters (P := Metered limits) _
        packet _ h.buckets⟩
    | background b =>
      cases b with
      | datagram d =>
        obtain rfl := Option.some.inj hact
        exact h.demux d
      | reap s =>
        obtain rfl := Option.some.inj hact
        exact h.unregister s

end Rated

section Runs

variable {config : ProxyConfig} {ipv4 : Ipv4Net} {ipv6 : Option Ipv6Net}
  {tunTx : Option (Bytes → Bool)} {icmpSource : IcmpSource} {limits : RateLimits}
  {maxSessions : Nat} {labels : List NetworkLabel} {σ : ServerSys}

theorem standing_run
    (h : Run (Fires networkStep)
      (Server.initial config ipv4 ipv6 tunTx icmpSource limits maxSessions) labels σ)
    (s : SessionId) : Standing s σ.shared (σ.task s) := by
  refine Tasks.run_keeps_all (J := Standing) ?_ ?_ ?_ h ?_ s
  · intro k act srv srv' stage stage' hown hstep
    exact hown.own hstep
  · intro k act srv srv' stage stage' i other hne hk hi hstep
    exact Standing.other hne hk hi hstep
  · intro d srv srv' i stage hi hstep
    exact hi.outside hstep
  · intro k
    exact ⟨ledger_initial k, fun heq => (by cases heq), fun _ ht => (by cases ht),
      fun _ ht => (by cases ht), fun _ hsink => (by cases hsink)⟩

theorem clear_networkStep {σ τ : ServerSys} {label : NetworkLabel}
    (h : Fires networkStep σ label τ)
    (hσ : σ.shared.pool.nets = (ipv4, ipv6) ∧
      σ.shared.engine.routeTable.Clear σ.shared.pool.poolNets) :
    τ.shared.pool.nets = (ipv4, ipv6) ∧
      τ.shared.engine.routeTable.Clear τ.shared.pool.poolNets := by
  cases label with
  | task s act =>
    have hstep : Fires serverStep σ (.task s act) τ := h
    exact clear_step hstep hσ
  | env d =>
    cases d with
    | background b =>
      have hstep : Fires serverStep σ (.env b) τ := h
      exact clear_step hstep hσ
    | network packet =>
      obtain rfl := Option.some.inj h
      exact hσ

/-- A packet for an address of the pool goes to a client address or nowhere. -/
theorem lookup_network
    (h : Run (Fires networkStep)
      (Server.initial config ipv4 ipv6 tunTx icmpSource limits maxSessions) labels σ)
    {net : IpNet} (hnet : net ∈ (AddressPool.new ipv4 ipv6).poolNets) {dst : IpAddr}
    (hdst : net.contains dst = true) {proto : UInt8} {s : SessionId} :
    σ.shared.engine.routeTable.lookup dst proto = some s ↔
      σ.shared.engine.routeTable.clientAddrs dst = some s := by
  have hinv := h.invariant
    (fun σ => σ.shared.pool.nets = (ipv4, ipv6) ∧
      σ.shared.engine.routeTable.Clear σ.shared.pool.poolNets)
    (fun _ _ _ hσ hstep => clear_networkStep hstep hσ)
    ⟨new_nets ipv4 ipv6, fun r hr => by cases hr⟩
  have hnets : (AddressPool.new ipv4 ipv6).poolNets = σ.shared.pool.poolNets :=
    poolNets_congr ((new_nets ipv4 ipv6).trans hinv.1.symm)
  exact ⟨hinv.2.lookup (hnets ▸ hnet) hdst, RouteTable.lookup_of_client⟩

theorem framed_run
    (h : Run (Fires networkStep)
      (Server.initial config ipv4 ipv6 tunTx icmpSource limits maxSessions) labels σ) :
    σ.shared.engine.Framed := by
  intro s conn qsid hsink
  obtain ⟨conn', qsid', heq, hlt⟩ := (standing_run h s).sink _ hsink
  cases heq
  exact hlt

theorem rated_run
    (h : Run (Fires networkStep)
      (Server.initial config ipv4 ipv6 tunTx icmpSource limits maxSessions) labels σ) :
    Rated limits σ.shared :=
  h.invariant (fun σ => Rated limits σ.shared) (fun _ _ _ hσ hstep => hσ.step hstep)
    ⟨rfl, fun _ _ hlimiter => by cases hlimiter⟩

/-- No packet makes the server panic, whoever sends it and whatever its bytes are, as long as
the sums of the rate limiter fit: rates of up to 2^32 do for 2^31 seconds. -/
theorem packets_never_panic
    (h : Run (Fires networkStep)
      (Server.initial config ipv4 ipv6 tunTx icmpSource limits maxSessions) labels σ)
    (packet : Bytes) :
    ((σ.shared.engine.dispatchFromNetwork packet).exec σ.shared.traffic).1 ≠ .error .panic ∧
      ((∀ b : Bucket, b.rate limits ≤ 4294967296) →
        ∀ s now r, now < 2147483648000000000 → σ.shared.forward s packet now = some r →
          r.1 ≠ .error .panic) := by
  have hframed := framed_run h
  refine ⟨ForwardingEngine.dispatchFromNetwork_noPanic hframed packet _, ?_⟩
  intro hrates s now r hnow hr
  obtain ⟨assigned, -, rfl⟩ := Option.map_eq_some_iff.mp hr
  refine ForwardingEngine.forwardFromClient_ne_panic hframed ?_ assigned packet
  intro limiter hlimiter
  obtain ⟨hbounded, hlimits⟩ := (rated_run h).buckets s limiter hlimiter
  exact (hbounded.fits (by rwa [hlimits]) (by omega)).refillFits

/-- A run without packets from the network. -/
def NetworkLabel.ofServer : ServerLabel → NetworkLabel
  | .task s act => .task s act
  | .env b => .env (.background b)

/-- Two tunnels, and a packet of the network for the address of the second. -/
def testNetwork : List NetworkLabel :=
  (openTunnel 0 ++ openTunnel 4).map NetworkLabel.ofServer ++
    [.env (.network ForwardingEngine.barePacket)]

theorem packets_never_panic_two_tunnels :
    ∃ σ r, Run (Fires networkStep) testServer testNetwork σ ∧
      σ.shared.forward ⟨0⟩ ForwardingEngine.barePacket 0 = some r ∧ r.1 ≠ .error .panic := by
  have hexec : ((exec networkStep testServer testNetwork).bind fun σ =>
      σ.shared.forward ⟨0⟩ ForwardingEngine.barePacket 0).isSome = true := by decide +kernel
  obtain ⟨r, hr⟩ := Option.isSome_iff_exists.mp hexec
  obtain ⟨σ, hσ, hforward⟩ := Option.bind_eq_some_iff.mp hr
  exact ⟨σ, r, run_of_exec hσ, hforward,
    (packets_never_panic (run_of_exec hσ) ForwardingEngine.barePacket).2
      (fun b => by cases b <;> decide) ⟨0⟩ 0 r (by decide) hforward⟩

/-- A packet that the network delivers for an address of the pool goes, one hop older, to the
holder of the address, or to a session that has just given the address back. A packet that
is refused is not answered. -/
theorem network_delivers_to_holder
    (h : Run (Fires networkStep)
      (Server.initial config ipv4 ipv6 tunTx icmpSource limits maxSessions) labels σ)
    {net : IpNet} (hnet : net ∈ (AddressPool.new ipv4 ipv6).poolNets) {packet : Bytes}
    {info : PacketInfo} (hparse : parsePacket packet = .ok info)
    (hdst : net.contains info.dst = true) {r : Outcome ForwardingError SessionId} {t' : Traffic}
    (hexec : (σ.shared.engine.dispatchFromNetwork packet).exec σ.shared.traffic = (r, t')) :
    (∃ s out em, r = .ok s ∧ HopOf packet out ∧ Carries em (some s) out ∧
      t'.emitted = σ.shared.traffic.emitted ++ [em] ∧
      (info.dst ∈ σ.shared.pool.held s ∨ σ.task s = .removeRoutes)) ∨
    ((∃ err, r = .error (.err err)) ∧ t'.emitted = σ.shared.traffic.emitted) := by
  rcases ForwardingEngine.dispatchFromNetwork_cases hexec with
    ⟨info', s, out, em, hparse', hadmits, hout, rfl, hem, hsent⟩ | ⟨⟨fault, rfl⟩, hquiet⟩
  · obtain rfl := Except.ok.inj (hparse.symm.trans hparse')
    have hwf := wellFormed_of_parsePacket hparse
    rw [decrementTtl_of_wellFormed hwf] at hout
    split at hout
    · cases hout
    · rename_i httl
      obtain rfl := Except.ok.inj hout
      have hclient := (lookup_network h hnet hdst).mp hadmits.route
      exact Or.inl ⟨s, _, em, rfl, hopOf_afterHop hwf (UInt8.not_le.mp httl), hem, hsent,
        (standing_run h s).holds hclient⟩
  · have hnot := ForwardingEngine.dispatchFromNetwork_noPanic (framed_run h) packet σ.shared.traffic
    rw [hexec] at hnot
    cases fault with
    | err err => exact Or.inr ⟨⟨err, rfl⟩, hquiet⟩
    | panic => exact absurd rfl hnot

theorem testNet_mem : IpNet.v4 testNet ∈ (AddressPool.new testNet none).poolNets := by
  simp [poolNets, new]

theorem parsePacket_barePacket : parsePacket ForwardingEngine.barePacket =
    .ok ⟨4, .v4 0x0a640002#32, .v4 0x0a640003#32, 17⟩ := by decide +kernel

theorem network_delivers_to_holder_second :
    ∃ σ out em t', Run (Fires networkStep) testServer testNetwork σ ∧
      (σ.shared.engine.dispatchFromNetwork ForwardingEngine.barePacket).exec σ.shared.traffic =
        (.ok ⟨4⟩, t') ∧
      HopOf ForwardingEngine.barePacket out ∧ Carries em (some ⟨4⟩) out ∧
      (IpAddr.v4 0x0a640003#32 ∈ σ.shared.pool.held ⟨4⟩ ∨ σ.task ⟨4⟩ = .removeRoutes) := by
  have hexec : (exec networkStep testServer testNetwork).map (fun σ =>
      ((σ.shared.engine.dispatchFromNetwork ForwardingEngine.barePacket).exec
        σ.shared.traffic).1) = some (.ok ⟨4⟩) := by decide +kernel
  obtain ⟨σ, hσ, hok⟩ := Option.map_eq_some_iff.mp hexec
  have hrun := run_of_exec hσ
  rcases hres : (σ.shared.engine.dispatchFromNetwork ForwardingEngine.barePacket).exec
    σ.shared.traffic with ⟨r, t'⟩
  rw [hres] at hok
  obtain rfl := hok
  rcases network_delivers_to_holder hrun testNet_mem parsePacket_barePacket (by decide) hres with
    ⟨s, out, em, hs, hhop, hem, -, hholds⟩ | ⟨⟨err, herr⟩, -⟩
  · obtain rfl := Except.ok.inj hs
    exact ⟨σ, out, em, t', hrun, hres, hhop, hem, hholds⟩
  · cases herr

/-- A session at work is handed a packet for an address of the pool exactly when the address
is assigned to it, its source lies in the session's routes, the packet fits the session's
MTU, has a hop left, and the connection takes it; and when the reaper has not closed the
session. -/
theorem network_delivers_iff
    (h : Run (Fires networkStep)
      (Server.initial config ipv4 ipv6 tunTx icmpSource limits maxSessions) labels σ)
    {s : SessionId} {t : Tunnel} {assigned : List AssignedAddress}
    (hloop : σ.task s = .loop t assigned)
    {net : IpNet} (hnet : net ∈ (AddressPool.new ipv4 ipv6).poolNets) {packet : Bytes}
    {info : PacketInfo} (hparse : parsePacket packet = .ok info)
    (hdst : net.contains info.dst = true) :
    ((σ.shared.engine.dispatchFromNetwork packet).exec σ.shared.traffic).1 = .ok s ↔
      info.dst ∈ assigned.map (·.ipAddress) ∧ (σ.shared.engine.policies s).isSome ∧
        (∃ r ∈ t.routes, r.contains info.src info.protocol = true) ∧
        packet.length ≤ σ.shared.engine.sessionMtu s ∧ 1 < ttl packet ∧
        t.Takes (afterHop packet) := by
  have hstanding := standing_run h s
  rw [hloop] at hstanding
  have hwf := wellFormed_of_parsePacket hparse
  have haddrs := hstanding.clientAddrs_iff info.dst
  have hallows := hstanding.allows_iff info.src info.protocol
  have hserved := hstanding.served t rfl rfl
  have hframed := hstanding.framed t rfl
  constructor
  · intro hok
    rcases hexec : (σ.shared.engine.dispatchFromNetwork packet).exec σ.shared.traffic with ⟨r, t'⟩
    rw [hexec] at hok
    obtain rfl := hok
    rcases ForwardingEngine.dispatchFromNetwork_cases hexec with
      ⟨info', s', out, em, hparse', hadmits, hout, hr, -, -⟩ | ⟨⟨fault, hfault⟩, -⟩
    · obtain rfl := Except.ok.inj (hparse.symm.trans hparse')
      obtain rfl := Except.ok.inj hr
      have hclient := (lookup_network h hnet hdst).mp hadmits.route
      rcases hserved with hs | ⟨-, hnone⟩
      · rw [ForwardingEngine.dispatchFromNetwork_of_admits hparse hadmits hout] at hexec
        rw [decrementTtl_of_wellFormed hwf] at hout
        split at hout
        · cases hout
        · rename_i httl
          obtain rfl := Except.ok.inj hout
          obtain ⟨hpolicy, hroute⟩ := hallows.mp hadmits.policy
          refine ⟨haddrs.mp hclient, hpolicy, hroute, hadmits.fits, UInt8.not_le.mp httl,
            (hs.deliver_iff hframed (afterHop packet) σ.shared.traffic).mp ?_⟩
          rcases exec_bind_cases hexec with ⟨_, u, hdeliver, -⟩ | ⟨fault, -, hfault⟩
          · rw [hdeliver]
          · cases hfault
      · have hpolicy := hadmits.policy
        rw [ForwardingEngine.allows, hnone] at hpolicy
        cases hpolicy
    · cases hfault
  · rintro ⟨hassigned, hpolicy, hroute, hfits, httl, htakes⟩
    rcases hserved with hs | ⟨-, hnone⟩
    · have hadmits : σ.shared.engine.Admits s packet info :=
        ⟨RouteTable.lookup_of_client (haddrs.mpr hassigned), hallows.mpr ⟨hpolicy, hroute⟩, hfits⟩
      have hout : decrementTtl packet = .ok (afterHop packet) := by
        rw [decrementTtl_of_wellFormed hwf, if_neg (UInt8.not_le.mpr httl)]
      rw [ForwardingEngine.dispatchFromNetwork_of_admits hparse hadmits hout]
      have hdeliver := (hs.deliver_iff hframed (afterHop packet) σ.shared.traffic).mpr htakes
      rw [exec_bind]
      split
      · rfl
      · rename_i fault u hfault
        rw [hfault] at hdeliver
        cases hdeliver
    · rw [hnone] at hpolicy
      cases hpolicy

theorem network_delivers_iff_second :
    ∃ σ t assigned, Run (Fires networkStep) testServer testNetwork σ ∧
      σ.task ⟨4⟩ = .loop t assigned ∧
      ((σ.shared.engine.dispatchFromNetwork ForwardingEngine.barePacket).exec
        σ.shared.traffic).1 = .ok ⟨4⟩ ∧
      IpAddr.v4 0x0a640003#32 ∈ assigned.map (·.ipAddress) ∧
      t.Takes (afterHop ForwardingEngine.barePacket) := by
  have hexec : (exec networkStep testServer testNetwork).map (fun σ =>
      ((σ.task ⟨4⟩).isLoop, ((σ.shared.engine.dispatchFromNetwork
        ForwardingEngine.barePacket).exec σ.shared.traffic).1)) =
      some (true, .ok ⟨4⟩) := by decide +kernel
  obtain ⟨σ, hσ, hpair⟩ := Option.map_eq_some_iff.mp hexec
  obtain ⟨hisLoop, hok⟩ := Prod.mk.inj hpair
  obtain ⟨t, assigned, hloop⟩ := Stage.isLoop_iff.mp hisLoop
  have hrun := run_of_exec hσ
  obtain ⟨hassigned, -, -, -, -, htakes⟩ :=
    (network_delivers_iff hrun hloop testNet_mem parsePacket_barePacket (by decide)).mp hok
  exact ⟨σ, t, assigned, hrun, hloop, hok, hassigned, htakes⟩

end Runs

end Straw
