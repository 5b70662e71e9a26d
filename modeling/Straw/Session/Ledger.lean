import Straw.Session.Operations
import Straw.Session.Ownership

/-!
# What the server holds for a session

For each point of a session's life, which entries the pool, the route table, the engine
and the session table have for it. The stages of the handler enter only through a few
facts; a step that changes neither the facts nor the server has nothing to prove.
-/

namespace Straw

open Transition AddressPool
set_option autoImplicit false

inductive Phase where
  | idle
  | serving
  /-- The tunnel is over and the pool still holds its addresses. -/
  | releasing
  /-- The addresses are back in the pool and the route table still names the session. -/
  | unrouting
  | leaving
deriving DecidableEq

structure Facts where
  phase : Phase
  assigned : List AssignedAddress
  toInstall : List AssignedAddress
  registered : Bool
  /-- The client may have advertised routes. -/
  routable : Bool
  /-- The session table lists the handler's addresses. -/
  settled : Bool

namespace Stage

def phase : Stage → Phase
  | idle => .idle
  | release => .releasing
  | removeRoutes => .unrouting
  | unregister => .leaving
  | remove => .leaving
  | _ => .serving

def routable : Stage → Bool
  | loop _ _ => true
  | capsules _ _ _ => true
  | request _ _ _ _ => true
  | installOne _ _ _ _ _ => true
  | reply _ _ _ => true
  | release => true
  | removeRoutes => true
  | _ => false

def settled : Stage → Bool
  | loop _ _ => true
  | capsules _ _ _ => true
  | reply _ _ _ => true
  | _ => false

def facts (stage : Stage) : Facts :=
  ⟨stage.phase, stage.assigned, stage.toInstall, stage.registered, stage.routable, stage.settled⟩

end Stage

/-- The route table has the session's addresses, up to those still to be installed. -/
def Facts.Installed (f : Facts) (s : SessionId) (t : RouteTable) : Prop :=
  ∃ installed, f.assigned = installed ++ f.toInstall ∧
    ∀ a, t.clientAddrs a = some s ↔ a ∈ installed.map (·.ipAddress)

def Unregistered (s : SessionId) (srv : Server) : Prop :=
  srv.engine.sessionSinks s = none ∧ srv.engine.policies s = none ∧
    srv.engine.sessionMtus s = none ∧ srv.traffic.limiters s = none

structure Ledger (s : SessionId) (srv : Server) (f : Facts) : Prop where
  consistent : srv.pool.Consistent
  entry : srv.pool.allocations s ≠ some []
  held : f.phase ≠ .releasing → srv.pool.held s = f.assigned.map (·.ipAddress)
  addrs : f.phase ≠ .releasing → f.phase ≠ .unrouting → f.Installed s srv.engine.routeTable
  routes : f.routable = false → ∀ r ∈ srv.engine.routeTable.routes, r.sessionId ≠ s
  engine : f.registered = false → Unregistered s srv
  absent : f.phase = .idle →
    srv.sessions.sessions.lookup s = none ∧ srv.sessions.assigned s = none
  present : f.phase ≠ .idle → (srv.sessions.sessions.lookup s).isSome
  published : f.settled = true → srv.sessions.assigned s = some f.assigned ∧
    (srv.sessions.sessions.lookup s).map (·.assignedAddresses) = some f.assigned

/-- No entry of the pool's map is empty. -/
theorem AddressPool.Allocates.entry {p q : AddressPool} {s : SessionId} {named got : Option IpAddr}
    (h : Allocates p s named got q) (hp : p.allocations s ≠ some []) :
    q.allocations s ≠ some [] := by
  cases h with
  | refused hdrawn => rwa [hdrawn.allocations]
  | fromPool hdrawn => simp [record]
  | specific hname hgrant => simp [record]

namespace Ledger

variable {s t : SessionId} {srv srv' : Server} {f : Facts}

/-- The entries that other sessions may change, and in which direction. -/
theorem congr (h : Ledger s srv f) (hcons : srv'.pool.Consistent)
    (hpool : srv'.pool.allocations s = srv.pool.allocations s)
    (haddrs : f.phase ≠ .releasing → f.phase ≠ .unrouting → ∀ a,
      srv'.engine.routeTable.clientAddrs a = some s ↔ srv.engine.routeTable.clientAddrs a = some s)
    (hroutes : ∀ r ∈ srv'.engine.routeTable.routes, r.sessionId = s →
      r ∈ srv.engine.routeTable.routes)
    (hengine : Unregistered s srv → Unregistered s srv')
    (hsnapshot : srv'.sessions.assigned s = srv.sessions.assigned s)
    (hsession : (srv'.sessions.sessions.lookup s).map (·.assignedAddresses) =
      (srv.sessions.sessions.lookup s).map (·.assignedAddresses)) : Ledger s srv' f := by
  have hsome : (srv'.sessions.sessions.lookup s).isSome = (srv.sessions.sessions.lookup s).isSome := by
    simpa using congrArg Option.isSome hsession
  refine ⟨hcons, hpool ▸ h.entry, ?_, ?_, ?_, fun hreg => hengine (h.engine hreg), ?_, ?_, ?_⟩
  · intro hphase
    rw [AddressPool.held, hpool]
    exact h.held hphase
  · intro hrel hun
    obtain ⟨installed, hsplit, hiff⟩ := h.addrs hrel hun
    exact ⟨installed, hsplit, fun a => (haddrs hrel hun a).trans (hiff a)⟩
  · intro hroutable r hr hrs
    exact h.routes hroutable r (hroutes r hr hrs) hrs
  · intro hidle
    obtain ⟨hlookup, hassigned⟩ := h.absent hidle
    refine ⟨?_, hsnapshot.trans hassigned⟩
    rw [← Option.not_isSome_iff_eq_none, hsome, hlookup]
    simp
  · intro hphase
    rw [hsome]
    exact h.present hphase
  · intro hsettled
    rw [hsnapshot, hsession]
    exact h.published hsettled

theorem keeps (h : Ledger s srv f) (hcons : srv'.pool.Consistent) (hk : Keeps s srv srv') :
    Ledger s srv' f := by
  refine h.congr hcons hk.allocations (fun _ _ => hk.clientAddrs) ?_ ?_ hk.snapshot
    (by rw [hk.session])
  · intro r hr hrs
    have hmem : r ∈ srv'.engine.routeTable.routes.filter (·.sessionId = s) :=
      List.mem_filter.mpr ⟨hr, by simpa using hrs⟩
    rw [hk.routes] at hmem
    exact List.mem_of_mem_filter hmem
  · rintro ⟨hsink, hpolicy, hmtu, hlimiter⟩
    exact ⟨hk.sink.trans hsink, hk.policy.trans hpolicy, hk.mtu.trans hmtu,
      hk.limiter.trans hlimiter⟩

section Own

/-- Ending the tunnel at any point leaves the rest to the teardown. -/
theorem finish (h : Ledger s srv f) (hphase : f.phase = .serving) :
    Ledger s srv Stage.release.facts where
  consistent := h.consistent
  entry := h.entry
  held hne := absurd rfl hne
  addrs hne := absurd rfl hne
  routes hroutable := by cases hroutable
  engine hreg := by cases hreg
  absent hidle := by cases hidle
  present _ := h.present (by simp [hphase])
  published hsettled := by cases hsettled

theorem orTeardown (next : Stage) (h : Ledger s srv next.facts) (hphase : next.phase = .serving)
    (ok : Bool) : Ledger s srv (Stage.orTeardown ok next).facts := by
  unfold Stage.orTeardown
  split
  · exact h
  · exact h.finish hphase

theorem grant (h : Ledger s srv f) (hphase : f.phase = .serving) {named : Option IpAddr}
    (got : Option AssignedAddress) {pool : AddressPool}
    (hgrant : Allocates srv.pool s named (got.map (·.ipAddress)) pool) :
    Ledger s { srv with pool } { f with
      assigned := f.assigned ++ got.toList
      toInstall := f.toInstall ++ got.toList
      settled := false } where
  consistent := hgrant.consistent h.consistent
  entry := hgrant.entry h.entry
  held _ := by
    have hold := h.held (by simp [hphase])
    simp only [List.map_append, ← hold]
    rw [hgrant.held_eq s, if_pos rfl]
    cases got <;> rfl
  addrs hrel hun := by
    obtain ⟨installed, hsplit, hiff⟩ := h.addrs hrel hun
    exact ⟨installed, by rw [hsplit, List.append_assoc], hiff⟩
  routes := h.routes
  engine := h.engine
  absent := h.absent
  present := h.present
  published hsettled := by cases hsettled

theorem install (h : Ledger s srv f) {a : AssignedAddress}
    {rest : List AssignedAddress} (hnext : f.toInstall = a :: rest) (hsettled : f.settled = false) :
    Ledger s (srv.insertClientAddr a.ipAddress s) { f with toInstall := rest } where
  consistent := h.consistent
  entry := h.entry
  held := h.held
  addrs hrel hun := by
    obtain ⟨installed, hsplit, hiff⟩ := h.addrs hrel hun
    refine ⟨installed ++ [a], by simp [hsplit, hnext], ?_⟩
    intro b
    have hinsert : (srv.insertClientAddr a.ipAddress s).engine.routeTable.clientAddrs b =
        if b = a.ipAddress then some s else srv.engine.routeTable.clientAddrs b :=
      Table.insert_apply _ _ _ _
    rw [hinsert, List.map_append, List.mem_append, ← hiff b]
    by_cases hb : b = a.ipAddress
    · simp [hb]
    · simp [hb]
  routes := h.routes
  engine := h.engine
  absent := h.absent
  present := h.present
  published htrue := by rw [hsettled] at htrue; cases htrue

theorem register (h : Ledger s srv f) (sink : SessionSink) (policy : EgressPolicy) (mtu now : Nat) :
    Ledger s (srv.registerSession s sink policy mtu now) { f with registered := true } where
  consistent := h.consistent
  entry := h.entry
  held := h.held
  addrs := h.addrs
  routes := h.routes
  engine hreg := by cases hreg
  absent := h.absent
  present := h.present
  published := h.published

/-- The session table takes over the handler's list. -/
theorem publish (h : Ledger s srv f) (hphase : f.phase = .serving) (settled routable : Bool)
    (hroutable : routable = false → f.routable = false) :
    Ledger s { srv with sessions := srv.sessions.setAssigned s f.assigned }
      { f with settled, routable } where
  consistent := h.consistent
  entry := h.entry
  held := h.held
  addrs := h.addrs
  routes hnot := h.routes (hroutable hnot)
  engine := h.engine
  absent hidle := by simp [hphase] at hidle
  present hne := by
    rw [SessionManager.lookup_setAssigned, if_pos rfl, Option.isSome_map]
    exact h.present hne
  published _ := by
    refine ⟨by simp [SessionManager.setAssigned], ?_⟩
    rw [SessionManager.lookup_setAssigned, if_pos rfl, Option.map_map]
    obtain ⟨session, hsession⟩ := Option.isSome_iff_exists.mp (h.present (by simp [hphase]))
    simp [hsession]

/-- Changes to a session record other than its addresses. -/
theorem modify (h : Ledger s srv f) (t : SessionId) {g : TunnelSession → TunnelSession}
    (hg : ∀ session, (g session).assignedAddresses = session.assignedAddresses) :
    Ledger s { srv with sessions := srv.sessions.modify t g } f := by
  refine h.congr h.consistent rfl (fun _ _ _ => Iff.rfl) (fun r hr _ => hr) id
    (by simp) ?_
  simp only [SessionManager.lookup_modify]
  split
  · rw [Option.map_map]
    congr 1
    funext session
    exact hg session
  · rfl

theorem adopt (h : Ledger s srv f) (hroutable : f.routable = true) (ranges : List IpAddressRange) :
    Ledger s (srv.adoptRoutes s ranges) f := by
  have hreplaced : ∀ entries, Ledger s
      (srv.updateRoutes fun routes => routes.replaceSessionRoutes s entries) f := fun entries =>
    ⟨h.consistent, h.entry, h.held, h.addrs, fun hnot => by simp [hroutable] at hnot, h.engine,
      h.absent, h.present, h.published⟩
  unfold Server.adoptRoutes
  split
  · exact (hreplaced _).modify s fun _ => rfl
  · exact h.modify s fun _ => rfl

theorem refresh (h : Ledger s srv f) (mtu : Nat) : Ledger s (srv.refreshMtu s mtu) f := by
  unfold Server.refreshMtu
  split
  · rename_i old hold
    refine h.congr h.consistent rfl (fun _ _ _ => Iff.rfl) (fun r hr _ => hr) ?_ rfl rfl
    rintro ⟨-, -, hnone, -⟩
    rw [hold] at hnone
    cases hnone
  · exact h

theorem release (h : Ledger s srv f) (hphase : f.phase ≠ .idle) :
    Ledger s { srv with pool := srv.pool.release s } Stage.removeRoutes.facts where
  consistent := h.consistent.release s
  entry := by
    change (srv.pool.release s).allocations s ≠ some []
    rw [release_eq, releaseAll_allocations]
    simp
  held _ := by
    change (srv.pool.release s).held s = []
    rw [held_release, if_pos rfl]
  addrs _ hne := absurd rfl hne
  routes hroutable := by cases hroutable
  engine hreg := by cases hreg
  absent hidle := by cases hidle
  present _ := h.present hphase
  published hsettled := by cases hsettled

theorem removeRoutes (h : Ledger s srv Stage.removeRoutes.facts) :
    Ledger s (srv.updateRoutes fun routes => routes.removeSession s) Stage.unregister.facts where
  consistent := h.consistent
  entry := h.entry
  held _ := h.held (by simp [Stage.facts, Stage.phase])
  addrs _ _ := by
    refine ⟨[], rfl, ?_⟩
    intro a
    change (srv.engine.routeTable.clientAddrs.retain fun _ u => u != s) a = some s ↔ _
    simp only [Table.retain, List.map_nil, List.not_mem_nil, iff_false]
    cases srv.engine.routeTable.clientAddrs a with
    | none => simp
    | some u => simp [Option.filter_eq_some_iff]
  routes _ r hr := by
    obtain ⟨-, hne⟩ := List.mem_filter.mp hr
    simpa using hne
  engine hreg := by cases hreg
  absent hidle := by cases hidle
  present _ := h.present (by simp [Stage.facts, Stage.phase])
  published hsettled := by cases hsettled

theorem unregister (h : Ledger s srv Stage.unregister.facts) :
    Ledger s (srv.unregisterSession s) Stage.remove.facts where
  consistent := h.consistent
  entry := h.entry
  held := h.held
  addrs := h.addrs
  routes := h.routes
  engine _ := by simp [Unregistered, Server.unregisterSession]
  absent hidle := by cases hidle
  present := h.present
  published hsettled := by cases hsettled

theorem forget (h : Ledger s srv Stage.remove.facts) :
    Ledger s { srv with sessions := srv.sessions.remove s } Stage.idle.facts where
  consistent := h.consistent
  entry := h.entry
  held _ := h.held (by simp [Stage.facts, Stage.phase])
  addrs _ _ := h.addrs (by simp [Stage.facts, Stage.phase]) (by simp [Stage.facts, Stage.phase])
  routes := h.routes
  engine := h.engine
  absent _ := ⟨by rw [SessionManager.lookup_remove, if_pos rfl], Table.remove_self _ _⟩
  present hne := absurd rfl hne
  published hsettled := by cases hsettled

theorem start (h : Ledger s srv Stage.idle.facts) {session : TunnelSession}
    {sessions : SessionManager} (hid : session.id = s)
    (hinsert : srv.sessions.insert session = some sessions) (t : Tunnel) :
    Ledger s { srv with sessions } (Stage.accept t).facts := by
  obtain rfl := SessionManager.insert_eq_some hinsert
  subst hid
  exact
    { consistent := h.consistent
      entry := h.entry
      held := fun _ => h.held (by simp [Stage.facts, Stage.phase])
      addrs := fun _ _ =>
        h.addrs (by simp [Stage.facts, Stage.phase]) (by simp [Stage.facts, Stage.phase])
      routes := h.routes
      engine := h.engine
      absent := fun hidle => by cases hidle
      present := fun _ => by simp [AList.lookup_insert]
      published := fun hsettled => by cases hsettled }

theorem handleCapsule {t : Tunnel} {assigned : List AssignedAddress} {pending queue : Pending}
    (h : Ledger s srv (Stage.capsules t assigned queue).facts) (capsule : Capsule) :
    Ledger s (Stage.handleCapsule srv s t assigned pending capsule).1
      (Stage.handleCapsule srv s t assigned pending capsule).2.facts := by
  cases capsule with
  | addressRequest requests =>
    exact ⟨h.consistent, h.entry, h.held, h.addrs, h.routes, h.engine, h.absent, h.present,
      fun hsettled => by cases hsettled⟩
  | routeAdvertisement ranges => exact h.adopt rfl ranges
  | addressAssign addrs => exact h.modify s fun _ => rfl
  | unknown typeId data => exact h

theorem tick {stage stage' : Stage} {ok : Bool} {now : Nat} (h : Ledger s srv stage.facts)
    (hstep : stage.Ticks s ok now srv srv' stage') : Ledger s srv' stage'.facts := by
  cases hstep with
  | accept t => exact orTeardown (.allocateV4 t) h rfl ok
  | allocateV4 => exact h.grant rfl _ (srv.pool.allocateV4_allocates s none)
  | allocateV6 =>
    have hgrant := h.grant rfl _ (srv.pool.allocateV6_allocates s none)
    split
    · exact hgrant.finish rfl
    · exact hgrant
  | sendAssign t assigned => exact orTeardown (.sendRoutes t assigned) h rfl ok
  | sendRoutes t assigned => exact orTeardown (.install t assigned assigned) h rfl ok
  | installed => exact h
  | install | installOne => exact h.install rfl rfl
  | register => exact h.register _ _ _ _
  | publish | answer => exact h.publish rfl true true (by simp)
  | drained => exact h.modify s fun _ => rfl
  | broken => exact h.finish rfl
  | capsule _ _ capsule => exact h.handleCapsule capsule
  | grant _ _ r _ _ hr =>
    have hgrant := srv.pool.allocateForRequest_allocates s r
    rw [hr] at hgrant
    exact h.grant rfl (some _) hgrant
  | deny _ _ r _ _ hr =>
    have hgrant := srv.pool.allocateForRequest_allocates s r
    rw [hr] at hgrant
    have hsame := h.grant rfl none hgrant
    simp only [Option.toList_none, List.append_nil] at hsame
    exact hsame
  | reply t assigned pending => exact orTeardown (.capsules t assigned pending) h rfl ok
  | release => exact h.release (by simp [Stage.facts, Stage.phase])
  | removeRoutes => exact h.removeRoutes
  | unregister => exact h.unregister
  | remove => exact h.forget

theorem own {stage stage' : Stage} {act : HandlerAct} (h : Ledger s srv stage.facts)
    (hstep : handle s act srv stage = some (srv', stage')) : Ledger s srv' stage'.facts := by
  cases handle_cases hstep with
  | tick htick => exact h.tick htick
  | start _ _ _ _ _ _ hinsert => exact h.start rfl hinsert _
  | full | chunk => exact h
  | close => exact h.finish rfl
  | refreshMtu => exact h.refresh _

end Own

section Others

/-- An address a session is about to install is not installed for a session that serves. -/
theorem not_installed {stage : Stage} (hk : Ledger t srv stage.facts) (hi : Ledger s srv f)
    (hst : s ≠ t) (hrel : f.phase ≠ .releasing) (hun : f.phase ≠ .unrouting)
    {a : AssignedAddress} (ha : a ∈ stage.toInstall) :
    srv.engine.routeTable.clientAddrs a.ipAddress ≠ some s := by
  intro howned
  have hserving : stage.phase = .serving := by
    cases stage <;> first | rfl | cases ha
  have hphase : stage.facts.phase = .serving := hserving
  obtain ⟨installed, hsplit, -⟩ := hk.addrs (by simp [hphase]) (by simp [hphase])
  have hmem : a.ipAddress ∈ srv.pool.held t := by
    rw [hk.held (by simp [hphase]), hsplit]
    exact List.mem_map_of_mem (List.mem_append_right _ ha)
  obtain ⟨installed', hsplit', hiff⟩ := hi.addrs hrel hun
  have hmem' : a.ipAddress ∈ srv.pool.held s := by
    rw [hi.held hrel, hsplit', List.map_append]
    exact List.mem_append_left _ ((hiff _).mp howned)
  have hsame := ((hi.consistent.iff _ _).mpr hmem').symm.trans ((hk.consistent.iff _ _).mpr hmem)
  exact hst (Option.some.inj hsame)

theorem other {stage stage' : Stage} {act : HandlerAct} (hst : s ≠ t)
    (hk : Ledger t srv stage.facts) (hi : Ledger s srv f)
    (hstep : handle t act srv stage = some (srv', stage')) : Ledger s srv' f := by
  rcases (handle_operation hstep).frame hi.consistent with ⟨a, ha, rfl⟩ | hkeeps
  · refine hi.congr hi.consistent rfl ?_ (fun r hr _ => hr) id rfl rfl
    intro hrel hun
    exact (Keeps.install (hk.not_installed hi hst hrel hun ha) hst).clientAddrs
  · exact hi.keeps (hk.own hstep).consistent (hkeeps s hst)

theorem reap (h : Ledger s srv f) (t : SessionId) : Ledger s (srv.unregisterSession t) f := by
  refine h.congr h.consistent rfl (fun _ _ _ => Iff.rfl) (fun r hr _ => hr) ?_ rfl rfl
  rintro ⟨hsink, hpolicy, hmtu, hlimiter⟩
  refine ⟨?_, ?_, ?_, ?_⟩
  · simp [Server.unregisterSession, Table.remove_apply, hsink]
  · simp [Server.unregisterSession, Table.remove_apply, hpolicy]
  · simp [Server.unregisterSession, Table.remove_apply, hmtu]
  · simp [Server.unregisterSession, Table.remove_apply, hlimiter]

theorem demux (h : Ledger s srv f) (d : Received) : Ledger s (srv.demux d) f := by
  have htraffic : ∀ {t packet now r}, srv.forward t packet now = some r →
      Ledger s { srv with traffic := r.2 } f := by
    intro t packet now r hforward
    refine h.congr h.consistent rfl (fun _ _ _ => Iff.rfl) (fun r hr _ => hr) ?_ rfl rfl
    rintro ⟨hsink, hpolicy, hmtu, hlimiter⟩
    obtain ⟨assigned, -, rfl⟩ := Option.map_eq_some_iff.mp hforward
    exact ⟨hsink, hpolicy, hmtu,
      ForwardingEngine.forwardFromClient_limiters (ForwardingEngine.keptByCalls_absent s)
        srv.engine assigned packet now srv.traffic hlimiter⟩
  unfold Server.demux
  split
  · exact h
  · split
    · exact h
    · rename_i hforward
      exact (htraffic hforward).modify _ fun _ => rfl
    · rename_i hforward
      exact htraffic hforward

theorem outside {d : Background} (h : Ledger s srv f) (hstep : background d srv = some srv') :
    Ledger s srv' f := by
  cases d with
  | datagram d => exact Option.some.inj hstep ▸ h.demux d
  | reap t => exact Option.some.inj hstep ▸ h.reap t

end Others

end Ledger

section Runs

variable {config : ProxyConfig} {ipv4 : Ipv4Net} {ipv6 : Option Ipv6Net}
  {tunTx : Option (Bytes → Bool)} {icmpSource : IcmpSource} {limits : RateLimits}
  {maxSessions : Nat}

theorem ledger_initial (s : SessionId) :
    Ledger s (Server.initial config ipv4 ipv6 tunTx icmpSource limits maxSessions).shared
      Stage.idle.facts where
  consistent := (attached_initial s).consistent
  entry := by simp [Server.initial, new]
  held _ := rfl
  addrs _ _ := ⟨[], rfl, by simp [Server.initial, RouteTable.new]⟩
  routes _ := by simp [Server.initial, RouteTable.new]
  engine _ := ⟨rfl, rfl, rfl, rfl⟩
  absent _ := ⟨rfl, rfl⟩
  present hne := absurd rfl hne
  published hsettled := by cases hsettled

theorem ledger_run {labels : List ServerLabel} {σ : ServerSys}
    (h : Run (Fires serverStep)
      (Server.initial config ipv4 ipv6 tunTx icmpSource limits maxSessions) labels σ)
    (s : SessionId) : Ledger s σ.shared (σ.task s).facts := by
  refine Tasks.run_keeps_all (J := fun s srv stage => Ledger s srv stage.facts) ?_ ?_ ?_ h
    ledger_initial s
  · intro k act srv srv' stage stage' hown hstep
    exact hown.own hstep
  · intro k act srv srv' stage stage' i other hne hk hi hstep
    exact hk.other hne hi hstep
  · intro d srv srv' i stage hi hstep
    exact hi.outside hstep

end Runs

end Straw
