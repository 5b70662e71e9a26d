import Straw.Forwarding.Safety
import Straw.Session.Handler

/-!
# Who owns the source of a forwarded packet

While a session is registered with the engine, the snapshot its datagrams are checked
against lists addresses that the pool has given to it. The teardown breaks this: it
returns the addresses to the pool before it takes the session out of the engine, and
datagrams that arrive in between are still forwarded.
-/

namespace Straw

open Outcome Packet Proc Transition AddressPool
set_option autoImplicit false

namespace Stage

def assigned : Stage → List AssignedAddress
  | allocateV6 _ assigned => assigned
  | sendAssign _ assigned => assigned
  | sendRoutes _ assigned => assigned
  | install _ assigned _ => assigned
  | register _ assigned => assigned
  | publish _ assigned => assigned
  | loop _ assigned => assigned
  | capsules _ assigned _ => assigned
  | request _ assigned _ _ => assigned
  | installOne _ assigned a _ _ => assigned ++ [a]
  | reply _ assigned _ => assigned
  | _ => []

def registered : Stage → Bool
  | publish _ _ => true
  | loop _ _ => true
  | capsules _ _ _ => true
  | request _ _ _ _ => true
  | installOne _ _ _ _ _ => true
  | reply _ _ _ => true
  | release => true
  | removeRoutes => true
  | unregister => true
  | _ => false

def released : Stage → Bool
  | removeRoutes => true
  | unregister => true
  | remove => true
  | _ => false

/-- The addresses are back in the pool and the engine still knows the session. -/
def stale : Stage → Bool
  | removeRoutes => true
  | unregister => true
  | _ => false

theorem stale_of_registered {stage : Stage} (hreg : stage.registered = true) :
    stage.released = stage.stale := by
  cases stage <;> first | rfl | cases hreg

/-- The next stage is no less registered, no more released, and lists nothing new. -/
structure Follows (stage stage' : Stage) : Prop where
  registered : stage.registered = true → stage'.registered = true
  released : stage'.released = stage.released
  assigned : ∀ a ∈ stage'.assigned, a ∈ stage.assigned

end Stage

/-- What a step of a session task does to the state that ownership depends on. -/
inductive HandlerEffect (s : SessionId) (srv : Server) (stage : Stage) (srv' : Server)
    (stage' : Stage) : Prop where
  | quiet : srv'.pool = srv.pool → srv'.engine.policies = srv.engine.policies →
      srv'.sessions.assigned = srv.sessions.assigned → stage.Follows stage' →
      HandlerEffect s srv stage srv' stage'
  | grant (named : Option IpAddr) (got : Option AssignedAddress) :
      Allocates srv.pool s named (got.map (·.ipAddress)) srv'.pool →
      (∀ a, got = some a → a.prefixLength = a.ipAddress.width) →
      srv'.engine = srv.engine → srv'.sessions = srv.sessions →
      (stage.registered = true → stage'.registered = true) →
      stage.released = false → stage'.released = false →
      (∀ a ∈ stage'.assigned, a ∈ stage.assigned ∨ got = some a) →
      HandlerEffect s srv stage srv' stage'
  | register (policy : EgressPolicy) : srv'.pool = srv.pool →
      srv'.engine.policies = srv.engine.policies.insert s policy →
      srv'.sessions = srv.sessions → stage'.registered = true → stage.Follows stage' →
      HandlerEffect s srv stage srv' stage'
  | publish (addrs : List AssignedAddress) : srv'.pool = srv.pool →
      srv'.engine = srv.engine →
      srv'.sessions.assigned = srv.sessions.assigned.insert s addrs →
      (∀ a ∈ addrs, a ∈ stage.assigned) → stage.Follows stage' →
      HandlerEffect s srv stage srv' stage'
  | release : stage = .release → stage' = .removeRoutes →
      srv' = { srv with pool := srv.pool.release s } → HandlerEffect s srv stage srv' stage'
  | unregister : stage = .unregister → stage' = .remove →
      srv' = srv.unregisterSession s → HandlerEffect s srv stage srv' stage'
  | forget : stage = .remove → stage' = .idle →
      srv' = { srv with sessions := srv.sessions.remove s } →
      HandlerEffect s srv stage srv' stage'

section Effects

variable {s : SessionId} {srv srv' : Server} {stage stage' : Stage}

theorem Stage.follows_orTeardown {ok : Bool} {next : Stage} (h : stage.Follows next)
    (hreleased : stage.released = false) : stage.Follows (Stage.orTeardown ok next) := by
  unfold Stage.orTeardown
  split
  · exact h
  · exact ⟨fun _ => rfl, hreleased.symm, by simp [Stage.assigned]⟩

theorem adoptRoutes_frame (srv : Server) (s : SessionId) (ranges : List IpAddressRange) :
    (srv.adoptRoutes s ranges).pool = srv.pool ∧
      (srv.adoptRoutes s ranges).engine.policies = srv.engine.policies ∧
      (srv.adoptRoutes s ranges).sessions.assigned = srv.sessions.assigned := by
  unfold Server.adoptRoutes
  split
  · exact ⟨rfl, rfl, by simp [SessionManager.setClientRoutes, Server.updateRoutes]⟩
  · exact ⟨rfl, rfl, by simp [SessionManager.setClientRoutes]⟩

theorem refreshMtu_frame (srv : Server) (s : SessionId) (mtu : Nat) :
    (srv.refreshMtu s mtu).pool = srv.pool ∧
      (srv.refreshMtu s mtu).engine.policies = srv.engine.policies ∧
      (srv.refreshMtu s mtu).sessions = srv.sessions := by
  unfold Server.refreshMtu
  split
  · exact ⟨rfl, rfl, rfl⟩
  · exact ⟨rfl, rfl, rfl⟩

theorem handleCapsule_effect {t : Tunnel} {addrs : List AssignedAddress} {pending : Pending}
    {capsule : Capsule} {queue : Pending} :
    HandlerEffect s srv (.capsules t addrs queue)
      (Stage.handleCapsule srv s t addrs pending capsule).1
      (Stage.handleCapsule srv s t addrs pending capsule).2 := by
  cases capsule with
  | addressRequest requests =>
    exact .quiet rfl rfl rfl ⟨fun _ => rfl, rfl, fun _ h => h⟩
  | routeAdvertisement ranges =>
    obtain ⟨hpool, hpolicies, hassigned⟩ := adoptRoutes_frame srv s ranges
    exact .quiet hpool hpolicies hassigned ⟨fun _ => rfl, rfl, fun _ h => h⟩
  | addressAssign assignedAddresses =>
    exact .quiet rfl rfl (by simp [Stage.handleCapsule, SessionManager.setProxyAddresses])
      ⟨fun _ => rfl, rfl, fun _ h => h⟩
  | unknown typeId data =>
    exact .quiet rfl rfl rfl ⟨fun _ => rfl, rfl, fun _ h => h⟩

theorem tick_effect {ok : Bool} {now : Nat} (h : stage.Ticks s ok now srv srv' stage') :
    HandlerEffect s srv stage srv' stage' := by
  cases h with
  | accept t =>
    exact .quiet rfl rfl rfl
      (Stage.follows_orTeardown ⟨by simp [Stage.registered], rfl, by simp [Stage.assigned]⟩ rfl)
  | allocateV4 t =>
    exact .grant none _ (srv.pool.allocateV4_allocates s none) (fun a ha => allocateV4_host ha)
      rfl rfl (by simp [Stage.registered]) rfl rfl (by simp [Stage.assigned])
  | allocateV6 t addrs =>
    refine .grant none _ (srv.pool.allocateV6_allocates s none) (fun a ha => allocateV6_host ha)
      rfl rfl (by simp [Stage.registered]) rfl ?_ ?_
    · split <;> rfl
    · split
      · simp [Stage.assigned]
      · simp [Stage.assigned]
  | sendAssign | sendRoutes =>
    exact .quiet rfl rfl rfl
      (Stage.follows_orTeardown ⟨by simp [Stage.registered], rfl, fun _ ha => ha⟩ rfl)
  | installed | install =>
    exact .quiet rfl rfl rfl ⟨by simp [Stage.registered], rfl, fun _ ha => ha⟩
  | register t addrs =>
    exact .register ⟨t.routes⟩ rfl rfl rfl rfl ⟨fun _ => rfl, rfl, fun _ ha => ha⟩
  | publish t addrs | answer t addrs =>
    exact .publish addrs rfl rfl (by simp [SessionManager.setAssigned]) (fun _ ha => ha)
      ⟨fun _ => rfl, rfl, fun _ ha => ha⟩
  | drained =>
    exact .quiet rfl rfl (by simp [SessionManager.touch]) ⟨fun _ => rfl, rfl, fun _ ha => ha⟩
  | broken => exact .quiet rfl rfl rfl ⟨fun _ => rfl, rfl, by simp [Stage.assigned]⟩
  | capsule => exact handleCapsule_effect
  | grant _ _ r _ _ hr =>
    have hgrant := srv.pool.allocateForRequest_allocates s r
    rw [hr] at hgrant
    exact .grant _ _ hgrant (fun b hb => allocateForRequest_host (r := r) (by rw [hr]; exact hb))
      rfl rfl (fun _ => rfl) rfl rfl (by simp [Stage.assigned, eq_comm])
  | deny _ _ r _ _ hr =>
    have hgrant := srv.pool.allocateForRequest_allocates s r
    rw [hr] at hgrant
    exact .grant _ none hgrant (by simp) rfl rfl (fun _ => rfl) rfl rfl (by simp [Stage.assigned])
  | installOne | removeRoutes => exact .quiet rfl rfl rfl ⟨fun _ => rfl, rfl, fun _ ha => ha⟩
  | reply =>
    exact .quiet rfl rfl rfl (Stage.follows_orTeardown ⟨fun _ => rfl, rfl, fun _ ha => ha⟩ rfl)
  | release => exact .release rfl rfl rfl
  | unregister => exact .unregister rfl rfl rfl
  | remove => exact .forget rfl rfl rfl

theorem handle_effect {act : HandlerAct} (h : handle s act srv stage = some (srv', stage')) :
    HandlerEffect s srv stage srv' stage' := by
  cases handle_cases h with
  | tick htick => exact tick_effect htick
  | start _ _ _ _ _ _ hinsert =>
    unfold SessionManager.insert at hinsert
    split at hinsert
    · cases hinsert
    · obtain rfl := Option.some.inj hinsert
      exact .publish [] rfl rfl rfl (by simp)
        ⟨by simp [Stage.registered], rfl, by simp [Stage.assigned]⟩
  | full => exact .quiet rfl rfl rfl ⟨fun hreg => hreg, rfl, fun _ ha => ha⟩
  | chunk => exact .quiet rfl rfl rfl ⟨fun _ => rfl, rfl, fun _ ha => ha⟩
  | close => exact .quiet rfl rfl rfl ⟨fun _ => rfl, rfl, by simp [Stage.assigned]⟩
  | refreshMtu max t addrs =>
    obtain ⟨hpool, hpolicies, hsessions⟩ := refreshMtu_frame srv s (srv.effectiveMtu max t.qsid)
    exact .quiet hpool hpolicies (by rw [hsessions]) ⟨fun _ => rfl, rfl, fun _ ha => ha⟩

end Effects

def HostOf (p : AddressPool) (s : SessionId) (a : AssignedAddress) : Prop :=
  a.ipAddress ∈ p.held s ∧ a.prefixLength = a.ipAddress.width

/-- The pool, the snapshot, the engine and the task agree about session `s`. -/
structure Attached (s : SessionId) (srv : Server) (stage : Stage) : Prop where
  consistent : srv.pool.Consistent
  registered : (srv.engine.policies s).isSome → stage.registered = true
  snapshot : stage.released = false → ∀ addrs, srv.sessions.assigned s = some addrs →
    ∀ a ∈ addrs, HostOf srv.pool s a
  listed : ∀ a ∈ stage.assigned, HostOf srv.pool s a
  emptied : stage.released = true → srv.pool.held s = []

section Invariant

variable {s t : SessionId} {srv srv' : Server} {stage stage' stage'' : Stage}

theorem HostOf.grant {p q : AddressPool} {named got : Option IpAddr}
    (hgrant : Allocates p t named got q) {a : AssignedAddress} (h : HostOf p s a) :
    HostOf q s a := by
  refine ⟨?_, h.2⟩
  rw [hgrant.held_eq s]
  split
  · rename_i hst
    exact List.mem_append_left _ (hst ▸ h.1)
  · exact h.1

theorem Attached.own {act : HandlerAct} (h : Attached s srv stage)
    (hstep : handle s act srv stage = some (srv', stage')) : Attached s srv' stage' := by
  cases handle_effect hstep with
  | quiet hpool hpolicies hassigned hfollows =>
    refine ⟨hpool ▸ h.consistent, ?_, ?_, ?_, ?_⟩
    · intro hsome
      exact hfollows.registered (h.registered (hpolicies ▸ hsome))
    · intro hrel addrs haddrs
      rw [hpool]
      exact h.snapshot (hfollows.released ▸ hrel) addrs (hassigned ▸ haddrs)
    · intro a ha
      exact hpool ▸ h.listed a (hfollows.assigned a ha)
    · intro hrel
      exact hpool ▸ h.emptied (hfollows.released ▸ hrel)
  | grant named got hgrant hhost hengine hsessions hreg hrel hrel' hlist =>
    refine ⟨hgrant.consistent h.consistent, ?_, ?_, ?_, ?_⟩
    · rw [hengine]
      exact fun hsome => hreg (h.registered hsome)
    · rw [hsessions]
      exact fun _ addrs haddrs a ha => (h.snapshot hrel addrs haddrs a ha).grant hgrant
    · intro a ha
      rcases hlist a ha with hold | hnew
      · exact (h.listed a hold).grant hgrant
      · refine ⟨?_, hhost a hnew⟩
        rw [hgrant.held_eq s, if_pos rfl, hnew]
        exact List.mem_append_right _ (List.mem_singleton_self _)
    · rw [hrel']
      exact fun hfalse => by cases hfalse
  | register policy hpool hpolicies hsessions hreg hfollows =>
    refine ⟨hpool ▸ h.consistent, fun _ => hreg, ?_, ?_, ?_⟩
    · rw [hpool, hsessions]
      exact fun hrel => h.snapshot (hfollows.released ▸ hrel)
    · intro a ha
      exact hpool ▸ h.listed a (hfollows.assigned a ha)
    · intro hrel
      exact hpool ▸ h.emptied (hfollows.released ▸ hrel)
  | publish addrs hpool hengine hassigned hsub hfollows =>
    refine ⟨hpool ▸ h.consistent, ?_, ?_, ?_, ?_⟩
    · rw [hengine]
      exact fun hsome => hfollows.registered (h.registered hsome)
    · intro _ addrs' haddrs a ha
      rw [hassigned, Table.insert_self] at haddrs
      obtain rfl := Option.some.inj haddrs
      exact hpool ▸ h.listed a (hsub a ha)
    · intro a ha
      exact hpool ▸ h.listed a (hfollows.assigned a ha)
    · intro hrel
      exact hpool ▸ h.emptied (hfollows.released ▸ hrel)
  | release hstage hstage' hsrv =>
    subst hstage hstage' hsrv
    refine ⟨h.consistent.release s, fun _ => rfl, ?_, ?_, ?_⟩
    · intro hrel
      cases hrel
    · intro a ha
      cases ha
    · intro _
      change (srv.pool.release s).held s = []
      rw [held_release, if_pos rfl]
  | unregister hstage hstage' hsrv =>
    subst hstage hstage' hsrv
    refine ⟨h.consistent, ?_, ?_, ?_, h.emptied⟩
    · intro hsome
      simp [Server.unregisterSession] at hsome
    · intro hrel
      cases hrel
    · intro a ha
      cases ha
  | forget hstage hstage' hsrv =>
    subst hstage hstage' hsrv
    refine ⟨h.consistent, h.registered, ?_, ?_, ?_⟩
    · intro _ addrs haddrs
      simp [SessionManager.remove] at haddrs
    · intro a ha
      cases ha
    · intro hrel
      cases hrel

theorem Attached.congr (h : Attached s srv stage) (hcons : srv'.pool.Consistent)
    (hheld : srv'.pool.held s = srv.pool.held s)
    (hpolicies : (srv'.engine.policies s).isSome → (srv.engine.policies s).isSome)
    (hassigned : srv'.sessions.assigned s = srv.sessions.assigned s) : Attached s srv' stage := by
  refine ⟨hcons, fun hsome => h.registered (hpolicies hsome), ?_, ?_, ?_⟩
  · intro hrel addrs haddrs a ha
    have hhost := h.snapshot hrel addrs (hassigned ▸ haddrs) a ha
    exact ⟨hheld ▸ hhost.1, hhost.2⟩
  · intro a ha
    exact ⟨hheld ▸ (h.listed a ha).1, (h.listed a ha).2⟩
  · intro hrel
    exact hheld ▸ h.emptied hrel

theorem Attached.other {act : HandlerAct} (hst : s ≠ t) (h : Attached s srv stage)
    (hstep : handle t act srv stage' = some (srv', stage'')) : Attached s srv' stage := by
  cases handle_effect hstep with
  | quiet hpool hpolicies hassigned _ =>
    exact h.congr (hpool ▸ h.consistent) (by rw [hpool]) (by rw [hpolicies]; exact id)
      (by rw [hassigned])
  | grant named got hgrant _ hengine hsessions _ _ _ _ =>
    exact h.congr (hgrant.consistent h.consistent) (by rw [hgrant.held_eq s, if_neg hst])
      (by rw [hengine]; exact id) (by rw [hsessions])
  | register policy hpool hpolicies hsessions _ _ =>
    exact h.congr (hpool ▸ h.consistent) (by rw [hpool])
      (by rw [hpolicies, Table.insert_of_ne _ _ hst]; exact id) (by rw [hsessions])
  | publish addrs hpool hengine hassigned _ _ =>
    exact h.congr (hpool ▸ h.consistent) (by rw [hpool]) (by rw [hengine]; exact id)
      (by rw [hassigned, Table.insert_of_ne _ _ hst])
  | release _ _ hsrv =>
    subst hsrv
    exact h.congr (h.consistent.release t)
      (by change (srv.pool.release t).held s = _; rw [held_release, if_neg hst]) id rfl
  | unregister _ _ hsrv =>
    subst hsrv
    have hsame : (srv.unregisterSession t).engine.policies s = srv.engine.policies s :=
      Table.remove_of_ne _ hst
    exact h.congr h.consistent rfl (by rw [hsame]; exact id) rfl
  | forget _ _ hsrv =>
    subst hsrv
    exact h.congr h.consistent rfl id (Table.remove_of_ne _ hst)

theorem Attached.outside {d : Background} (h : Attached s srv stage)
    (hstep : background d srv = some srv') : Attached s srv' stage := by
  cases d with
  | datagram d =>
    obtain rfl := Option.some.inj hstep
    unfold Server.demux
    split
    · exact h
    · split
      · exact h
      · exact h.congr h.consistent rfl id (by simp [SessionManager.touch])
      · exact h.congr h.consistent rfl id rfl
  | reap t =>
    obtain rfl := Option.some.inj hstep
    refine h.congr h.consistent rfl ?_ rfl
    intro hsome
    change (srv.engine.policies.remove t s).isSome = true at hsome
    rw [Table.remove_apply] at hsome
    split at hsome
    · cases hsome
    · exact hsome

end Invariant

/-- The datagram is a packet of session `s`, and handling it now forwards it. -/
def Forwards (srv : Server) (d : Received) (s : SessionId) (packet : Bytes) : Prop :=
  d.toForward = some (s, packet) ∧ ∃ f traffic, srv.forward s packet d.now = some (.ok f, traffic)

def SourceOwned (srv : Server) (s : SessionId) (packet : Bytes) : Prop :=
  ∃ info, parsePacket packet = .ok info ∧ srv.pool.allocated info.src = some s ∧
    ∀ t, info.src ∈ srv.pool.held t → t = s

section Forward

variable {s : SessionId} {srv : Server} {stage : Stage} {d : Received} {packet : Bytes}

theorem Forwards.source (h : Forwards srv d s packet) :
    (srv.engine.policies s).isSome ∧ ∃ info addrs, parsePacket packet = .ok info ∧
      srv.sessions.assigned s = some addrs ∧ ∃ a ∈ addrs, ∃ net,
        IpNet.new a.ipAddress a.prefixLength = some net ∧ net.contains info.src = true := by
  obtain ⟨-, f, traffic, hforward⟩ := h
  obtain ⟨addrs, haddrs, hcall⟩ := Option.map_eq_some_iff.mp hforward
  rcases ForwardingEngine.forwardFromClient_cases hcall with ⟨⟨fault, hfault⟩, -⟩ | ⟨u, u', hv, -⟩
  · cases hfault
  · rcases ForwardingEngine.forwardValidated_cases hv with
      ⟨info, out, f', em, hcleared, -⟩ | ⟨⟨fault, hfault⟩, -⟩
    · refine ⟨?_, info, addrs, hcleared.parsed, haddrs, hcleared.source⟩
      have hpolicy := hcleared.policy
      unfold ForwardingEngine.allows at hpolicy
      split at hpolicy
      · rename_i policy hsome
        simp [hsome]
      · cases hpolicy
    · cases hfault

/-- A forwarded packet has a source of its own session unless the session is half torn down. -/
theorem Forwards.owned_iff (hattached : Attached s srv stage) (h : Forwards srv d s packet) :
    SourceOwned srv s packet ↔ stage.stale = false := by
  obtain ⟨hpolicy, info, addrs, hparse, haddrs, a, ha, net, hnet, hcontains⟩ := h.source
  have hstale := Stage.stale_of_registered (hattached.registered hpolicy)
  have hcons := hattached.consistent
  constructor
  · intro howned
    obtain ⟨info', hparse', halloc, -⟩ := howned
    by_contra hne
    have hempty := hattached.emptied (by rw [hstale]; simpa using hne)
    have hmem := (hcons.iff _ _).mp halloc
    rw [hempty] at hmem
    cases hmem
  · intro hfalse
    have hhost := hattached.snapshot (by rw [hstale, hfalse]) addrs haddrs a ha
    rw [hhost.2] at hnet
    obtain hsrc : info.src = a.ipAddress := (IpNet.new_width_contains_iff hnet).mp hcontains
    have halloc : srv.pool.allocated info.src = some s := by
      rw [hsrc]
      exact (hcons.iff _ _).mpr hhost.1
    refine ⟨info, hparse, halloc, ?_⟩
    intro t ht
    exact Option.some.inj (((hcons.iff _ _).mpr ht).symm.trans halloc)

end Forward

section Runs

variable {config : ProxyConfig} {ipv4 : Ipv4Net} {ipv6 : Option Ipv6Net}
  {tunTx : Option (Bytes → Bool)} {icmpSource : IcmpSource} {limits : RateLimits}
  {maxSessions : Nat}

theorem attached_initial (s : SessionId) :
    Attached s (Server.initial config ipv4 ipv6 tunTx icmpSource limits maxSessions).shared
      ((Server.initial config ipv4 ipv6 tunTx icmpSource limits maxSessions).task s) := by
  refine ⟨⟨by simp [Server.initial, new, held], by simp [Server.initial, new, held]⟩, ?_, ?_, ?_, ?_⟩
  · intro hsome
    simp [Server.initial] at hsome
  · intro _ addrs haddrs
    simp [Server.initial, SessionManager.new] at haddrs
  · intro a ha
    cases ha
  · intro hrel
    cases hrel

theorem attached_run {labels : List ServerLabel} {σ : ServerSys}
    (h : Run (Fires serverStep)
      (Server.initial config ipv4 ipv6 tunTx icmpSource limits maxSessions) labels σ)
    (s : SessionId) : Attached s σ.shared (σ.task s) := by
  have hguarded : Run (Guarded (fun _ _ => True) (Fires serverStep))
      (Server.initial config ipv4 ipv6 tunTx icmpSource limits maxSessions) labels σ :=
    h.mono fun _ _ _ hstep => ⟨trivial, hstep⟩
  exact Tasks.run_keeps (J := Attached) (fun hown _ hstep => hown.own hstep)
    (fun hne _ hi _ hstep => hi.other hne hstep) (fun hi _ hstep => hi.outside hstep)
    hguarded attached_initial s

/-- No datagram of a session is handled between `pool.release` and
`engine.unregister_session` of its teardown. -/
def OutsideTeardown (σ : ServerSys) : ServerLabel → Prop
  | .env (.datagram d) =>
    match d.toForward with
    | some (s, _) => (σ.task s).stale = false
    | none => True
  | _ => True

/-- Along every run that handles no datagram of a session in the middle of its teardown,
each forwarded packet has a source that the pool has given to its session alone. -/
theorem forwarded_source_owned {labels : List ServerLabel} {τ : ServerSys}
    (h : Run (Guarded OutsideTeardown (Fires serverStep))
      (Server.initial config ipv4 ipv6 tunTx icmpSource limits maxSessions) labels τ)
    {before after : List ServerLabel} {d : Received} {σ : ServerSys}
    (hlabels : labels = before ++ .env (.datagram d) :: after)
    (hbefore : Run (Fires serverStep)
      (Server.initial config ipv4 ipv6 tunTx icmpSource limits maxSessions) before σ)
    {s : SessionId} {packet : Bytes} (hforwards : Forwards σ.shared d s packet) :
    SourceOwned σ.shared s packet := by
  rw [hlabels, List.append_cons] at h
  obtain ⟨ρ, hρ, -⟩ := h.append_inv
  obtain ⟨σ', hσ', hguard, -⟩ := hρ.snoc_inv
  obtain rfl := run_unique hbefore hσ'.unguarded
  have hfresh : (σ.task s).stale = false := by
    simpa only [OutsideTeardown, hforwards.1] using hguard
  exact (hforwards.owned_iff (attached_run hbefore s)).mpr hfresh

end Runs

section Example

instance (σ : ServerSys) (label : ServerLabel) : Decidable (OutsideTeardown σ label) :=
  match label with
  | .env (.datagram d) =>
    match h : d.toForward with
    | some (s, _) =>
      decidable_of_iff ((σ.task s).stale = false) (by simp only [OutsideTeardown, h])
    | none => .isTrue (by simp only [OutsideTeardown, h])
  | .env (.reap _) => .isTrue trivial
  | .task _ _ => .isTrue trivial

def testServer : ServerSys :=
  Server.initial ⟨1400, false, fun _ _ => []⟩ testNet none none ⟨0x0a640001#32, none⟩ ⟨0, 0⟩ 0

def openTunnel (streamId : UInt64) : List ServerLabel :=
  let s := SessionId.compose 0 streamId
  .task s (.start 0 streamId ⟨none, fun _ => true⟩ [⟨4, .v4 0#32, .v4 0xffffffff#32, 0⟩] 0) ::
    List.replicate 9 (.task s (.tick true 0))

/-- A datagram on stream 0 with a packet from `10.100.0.2` to `10.100.0.3`. -/
def testDatagram : Received := ⟨0, 0 :: 0 :: ForwardingEngine.barePacket, false, 0⟩

theorem forwards_of_result {srv : Server} {f : Forwarded}
    (h : (srv.forward ⟨0⟩ ForwardingEngine.barePacket 0).map Prod.fst = some (.ok f)) :
    Forwards srv testDatagram ⟨0⟩ ForwardingEngine.barePacket := by
  obtain ⟨r, hr, hok⟩ := Option.map_eq_some_iff.mp h
  refine ⟨by decide +kernel, f, r.2, ?_⟩
  have hpair : r = (.ok f, r.2) := Prod.ext hok rfl
  exact hpair ▸ hr

theorem forwarded_source_owned_two_tunnels :
    ∃ σ, Run (Fires serverStep) testServer (openTunnel 0 ++ openTunnel 4) σ ∧
      Forwards σ.shared testDatagram ⟨0⟩ ForwardingEngine.barePacket ∧
      SourceOwned σ.shared ⟨0⟩ ForwardingEngine.barePacket := by
  have hexec : ((exec (restrict OutsideTeardown serverStep) testServer
      (openTunnel 0 ++ openTunnel 4 ++ [.env (.datagram testDatagram)])).isSome,
      (exec serverStep testServer (openTunnel 0 ++ openTunnel 4)).bind fun σ =>
        (σ.shared.forward ⟨0⟩ ForwardingEngine.barePacket 0).map Prod.fst) =
      (true, some (.ok (.hairpin ⟨4⟩))) := by decide +kernel
  obtain ⟨hguarded, hforward⟩ := Prod.mk.inj hexec
  obtain ⟨τ, hτ⟩ := Option.isSome_iff_exists.mp hguarded
  obtain ⟨σ, hσ, hresult⟩ := Option.bind_eq_some_iff.mp hforward
  have hforwards := forwards_of_result hresult
  exact ⟨σ, run_of_exec hσ, hforwards,
    forwarded_source_owned (guarded_run_of_exec hτ) rfl (run_of_exec hσ) hforwards⟩

/-- The first session has returned `10.100.0.2`, a third one has it, and a packet of the
first from that address is still forwarded. -/
theorem released_source_forwarded :
    ∃ labels σ, Run (Fires serverStep) testServer labels σ ∧
      Forwards σ.shared testDatagram ⟨0⟩ ForwardingEngine.barePacket ∧
      σ.shared.pool.allocated (.v4 0x0a640002#32) = some ⟨8⟩ ∧
      ¬ SourceOwned σ.shared ⟨0⟩ ForwardingEngine.barePacket := by
  let labels := openTunnel 0 ++ openTunnel 4 ++
    [.task ⟨0⟩ .close, .task ⟨0⟩ (.tick true 0)] ++ (openTunnel 8).take 3
  have hexec : (exec serverStep testServer labels).bind (fun σ =>
      (σ.shared.forward ⟨0⟩ ForwardingEngine.barePacket 0).map fun r =>
        (r.1, σ.shared.pool.allocated (.v4 0x0a640002#32))) =
      some (.ok (.hairpin ⟨4⟩), some ⟨8⟩) := by decide +kernel
  obtain ⟨σ, hσ, hresult⟩ := Option.bind_eq_some_iff.mp hexec
  obtain ⟨r, hr, hpair⟩ := Option.map_eq_some_iff.mp hresult
  obtain ⟨hok, halloc⟩ := Prod.mk.inj hpair
  have hforwards : Forwards σ.shared testDatagram ⟨0⟩ ForwardingEngine.barePacket :=
    forwards_of_result (f := .hairpin ⟨4⟩) (by rw [hr, Option.map_some, hok])
  refine ⟨labels, σ, run_of_exec hσ, hforwards, halloc, ?_⟩
  intro howned
  obtain ⟨info, hparse, hinfo, -⟩ := howned
  have hsrc : parsePacket ForwardingEngine.barePacket =
      .ok ⟨4, .v4 0x0a640002#32, .v4 0x0a640003#32, 17⟩ := by decide +kernel
  obtain rfl := Except.ok.inj (hparse.symm.trans hsrc)
  have hsame := halloc.symm.trans hinfo
  cases hsame

end Example

end Straw
