import Straw.Session.Handler

/-!
# What a session task does to the server

Every step of a session task is one operation on the pool, the engine or the session
table, on behalf of its own session. What the server holds for the other sessions
stays as it is; only a new owner of an address takes it over in the route table.
-/

namespace Straw

open Transition AddressPool
set_option autoImplicit false

namespace SessionManager

variable (m : SessionManager) {id t : SessionId}

theorem lookup_modify (id t : SessionId) (f : TunnelSession → TunnelSession) :
    (m.modify id f).sessions.lookup t =
      if t = id then (m.sessions.lookup t).map f else m.sessions.lookup t := by
  unfold modify
  split
  · rename_i session hsession
    by_cases ht : t = id
    · subst ht
      rw [AList.lookup_insert, if_pos rfl, hsession, Option.map_some]
    · rw [AList.lookup_insert_ne ht, if_neg ht]
  · rename_i hsession
    split
    · rename_i ht
      rw [ht, hsession, Option.map_none]
    · rfl

theorem lookup_setAssigned (id t : SessionId) (addrs : List AssignedAddress) :
    (m.setAssigned id addrs).sessions.lookup t =
      if t = id then (m.sessions.lookup t).map fun s => { s with assignedAddresses := addrs }
      else m.sessions.lookup t :=
  m.lookup_modify id t _

theorem lookup_remove (id t : SessionId) :
    (m.remove id).sessions.lookup t = if t = id then none else m.sessions.lookup t := by
  change (m.sessions.erase id).lookup t = _
  split
  · rename_i ht
    rw [ht, AList.lookup_erase]
  · rename_i ht
    rw [AList.lookup_erase_ne ht]

/-- The two tables say the same about every session but `id`. -/
def SameExcept (id : SessionId) (m m' : SessionManager) : Prop :=
  ∀ t, t ≠ id → m'.sessions.lookup t = m.sessions.lookup t ∧ m'.assigned t = m.assigned t

theorem sameExcept_modify (id : SessionId) (f : TunnelSession → TunnelSession) :
    SameExcept id m (m.modify id f) := by
  intro t ht
  exact ⟨by rw [lookup_modify, if_neg ht], by rw [modify_assigned]⟩

theorem sameExcept_setAssigned (id : SessionId) (addrs : List AssignedAddress) :
    SameExcept id m (m.setAssigned id addrs) := by
  intro t ht
  refine ⟨by rw [lookup_setAssigned, if_neg ht], ?_⟩
  simp only [setAssigned, modify_assigned, Table.insert_of_ne _ _ ht]

theorem sameExcept_remove (id : SessionId) : SameExcept id m (m.remove id) := by
  intro t ht
  exact ⟨by rw [lookup_remove, if_neg ht], Table.remove_of_ne _ ht⟩

variable {m}

theorem insert_eq_some {m' : SessionManager} {session : TunnelSession}
    (h : m.insert session = some m') :
    m' = { m with
      assigned := m.assigned.insert session.id session.assignedAddresses
      sessions := m.sessions.insert session.id session } := by
  unfold insert at h
  split at h
  · cases h
  · exact (Option.some.inj h).symm

theorem sameExcept_insert {m' : SessionManager} {session : TunnelSession}
    (h : m.insert session = some m') : SameExcept session.id m m' := by
  obtain rfl := insert_eq_some h
  intro t ht
  exact ⟨AList.lookup_insert_ne ht, Table.insert_of_ne _ _ ht⟩

end SessionManager

/-- The addresses on the handler's list that its next steps put into the route table. -/
def Stage.toInstall : Stage → List AssignedAddress
  | .allocateV6 _ assigned => assigned
  | .sendAssign _ assigned => assigned
  | .sendRoutes _ assigned => assigned
  | .install _ _ rest => rest
  | .installOne _ _ a _ _ => [a]
  | _ => []

inductive Operation (s : SessionId) (srv : Server) (stage : Stage) : Server → Prop where
  | quiet : Operation s srv stage srv
  | allocate {named got : Option IpAddr} {pool : AddressPool} :
      Allocates srv.pool s named got pool → Operation s srv stage { srv with pool }
  | install {a : AssignedAddress} : a ∈ stage.toInstall →
      Operation s srv stage (srv.insertClientAddr a.ipAddress s)
  | register (sink : SessionSink) (policy : EgressPolicy) (mtu now : Nat) :
      Operation s srv stage (srv.registerSession s sink policy mtu now)
  | refresh (mtu : Nat) : Operation s srv stage (srv.refreshMtu s mtu)
  | adopt (ranges : List IpAddressRange) : Operation s srv stage (srv.adoptRoutes s ranges)
  | manage {sessions : SessionManager} : SessionManager.SameExcept s srv.sessions sessions →
      Operation s srv stage { srv with sessions }
  | release : Operation s srv stage { srv with pool := srv.pool.release s }
  | removeRoutes :
      Operation s srv stage (srv.updateRoutes fun routes => routes.removeSession s)
  | unregister : Operation s srv stage (srv.unregisterSession s)

section Steps

variable {s : SessionId} {srv srv' : Server} {stage stage' : Stage}

theorem handleCapsule_operation {t : Tunnel} {assigned : List AssignedAddress}
    {pending : Pending} (capsule : Capsule) :
    Operation s srv stage (Stage.handleCapsule srv s t assigned pending capsule).1 := by
  cases capsule with
  | addressRequest requests => exact .quiet
  | routeAdvertisement ranges => exact .adopt ranges
  | addressAssign addrs => exact .manage (SessionManager.sameExcept_modify _ s _)
  | unknown typeId data => exact .quiet

theorem tick_operation {ok : Bool} {now : Nat} (h : stage.Ticks s ok now srv srv' stage') :
    Operation s srv stage srv' := by
  cases h with
  | accept | sendAssign | sendRoutes | reply | installed | broken => exact .quiet
  | allocateV4 => exact .allocate (srv.pool.allocateV4_allocates s none)
  | allocateV6 => exact .allocate (srv.pool.allocateV6_allocates s none)
  | install => exact .install List.mem_cons_self
  | register => exact .register _ _ _ _
  | publish | answer => exact .manage (SessionManager.sameExcept_setAssigned _ s _)
  | drained => exact .manage (SessionManager.sameExcept_modify _ s _)
  | capsule _ _ capsule => exact handleCapsule_operation capsule
  | grant _ _ r _ _ hr | deny _ _ r _ _ hr =>
    have hgrant := srv.pool.allocateForRequest_allocates s r
    rw [hr] at hgrant
    exact .allocate hgrant
  | installOne _ _ a => exact .install (List.mem_singleton_self a)
  | release => exact .release
  | removeRoutes => exact .removeRoutes
  | unregister => exact .unregister
  | remove => exact .manage (SessionManager.sameExcept_remove _ s)

theorem handle_operation {act : HandlerAct} (h : handle s act srv stage = some (srv', stage')) :
    Operation s srv stage srv' := by
  cases handle_cases h with
  | tick htick => exact tick_operation htick
  | start _ _ _ _ _ _ hinsert => exact .manage (SessionManager.sameExcept_insert hinsert)
  | full | chunk | close => exact .quiet
  | refreshMtu => exact .refresh _

end Steps

/-- Everything the server holds for session `t` is the same in both states. -/
structure Keeps (t : SessionId) (srv srv' : Server) : Prop where
  allocations : srv'.pool.allocations t = srv.pool.allocations t
  allocated : ∀ a, srv'.pool.allocated a = some t ↔ srv.pool.allocated a = some t
  clientAddrs : ∀ a, srv'.engine.routeTable.clientAddrs a = some t ↔
    srv.engine.routeTable.clientAddrs a = some t
  routes : srv'.engine.routeTable.routes.filter (·.sessionId = t) =
    srv.engine.routeTable.routes.filter (·.sessionId = t)
  sink : srv'.engine.sessionSinks t = srv.engine.sessionSinks t
  policy : srv'.engine.policies t = srv.engine.policies t
  mtu : srv'.engine.sessionMtus t = srv.engine.sessionMtus t
  limiter : srv'.traffic.limiters t = srv.traffic.limiters t
  session : srv'.sessions.sessions.lookup t = srv.sessions.sessions.lookup t
  snapshot : srv'.sessions.assigned t = srv.sessions.assigned t

namespace Keeps

variable {s t : SessionId} {srv : Server}

theorem refl (t : SessionId) (srv : Server) : Keeps t srv srv :=
  ⟨rfl, fun _ => Iff.rfl, fun _ => Iff.rfl, rfl, rfl, rfl, rfl, rfl, rfl, rfl⟩

theorem trans {srv' srv'' : Server} (h : Keeps t srv srv') (h' : Keeps t srv' srv'') :
    Keeps t srv srv'' where
  allocations := h'.allocations.trans h.allocations
  allocated a := (h'.allocated a).trans (h.allocated a)
  clientAddrs a := (h'.clientAddrs a).trans (h.clientAddrs a)
  routes := h'.routes.trans h.routes
  sink := h'.sink.trans h.sink
  policy := h'.policy.trans h.policy
  mtu := h'.mtu.trans h.mtu
  limiter := h'.limiter.trans h.limiter
  session := h'.session.trans h.session
  snapshot := h'.snapshot.trans h.snapshot

theorem filter_other (hts : t ≠ s) (routes : List RouteEntry) :
    (routes.filter fun r => r.sessionId != s).filter (·.sessionId = t) =
      routes.filter (·.sessionId = t) := by
  rw [List.filter_filter]
  congr 1
  funext r
  by_cases hr : r.sessionId = t
  · simp [hr, hts]
  · simp [hr]

theorem pool {pool : AddressPool} (hallocations : pool.allocations t = srv.pool.allocations t)
    (hallocated : ∀ a, pool.allocated a = some t ↔ srv.pool.allocated a = some t) :
    Keeps t srv { srv with pool } :=
  { refl t srv with allocations := hallocations, allocated := hallocated }

theorem updateRoutes {f : RouteTable → RouteTable}
    (haddrs : ∀ a, (f srv.engine.routeTable).clientAddrs a = some t ↔
      srv.engine.routeTable.clientAddrs a = some t)
    (hroutes : (f srv.engine.routeTable).routes.filter (·.sessionId = t) =
      srv.engine.routeTable.routes.filter (·.sessionId = t)) :
    Keeps t srv (srv.updateRoutes f) :=
  { refl t srv with clientAddrs := haddrs, routes := hroutes }

theorem manage {sessions : SessionManager}
    (hsame : SessionManager.SameExcept s srv.sessions sessions) (hts : t ≠ s) :
    Keeps t srv { srv with sessions } :=
  { refl t srv with session := (hsame t hts).1, snapshot := (hsame t hts).2 }

theorem allocate {named got : Option IpAddr} {pool : AddressPool}
    (h : Allocates srv.pool s named got pool) (hts : t ≠ s) : Keeps t srv { srv with pool } := by
  have hrecord : ∀ {p : AddressPool} {a : IpAddr}, p.allocations = srv.pool.allocations →
      p.allocated = srv.pool.allocated → srv.pool.allocated a = none →
      Keeps t srv { srv with pool := p.record s a } := by
    intro p a hallocations hallocated hfree
    refine .pool ?_ ?_
    · simp only [record, Table.insert_of_ne _ _ hts, hallocations]
    · intro b
      rw [record_allocated, hallocated]
      split
      · rename_i hb
        simp [hb, hfree, Ne.symm hts]
      · rfl
  cases h with
  | refused hdrawn =>
    exact .pool (by rw [hdrawn.allocations]) (fun a => by rw [hdrawn.allocated])
  | fromPool hdrawn =>
    exact hrecord hdrawn.allocations hdrawn.allocated (hdrawn.fresh _ rfl).1
  | specific hname hgrant => exact hrecord rfl rfl hgrant.2.2

theorem release (hcons : srv.pool.Consistent) (hts : t ≠ s) :
    Keeps t srv { srv with pool := srv.pool.release s } := by
  refine .pool ?_ ?_
  · rw [release_eq, releaseAll_allocations]
    exact Table.remove_of_ne _ hts
  · intro a
    rw [release_allocated]
    split
    · rename_i hmem
      simp [(hcons.iff a s).mpr hmem, Ne.symm hts]
    · rfl

theorem install {addr : IpAddr} (hother : srv.engine.routeTable.clientAddrs addr ≠ some t)
    (hts : t ≠ s) : Keeps t srv (srv.insertClientAddr addr s) := by
  refine .updateRoutes ?_ rfl
  intro a
  simp only [RouteTable.insertClientAddr, Table.insert_apply]
  split
  · rename_i ha
    simp [ha, hother, Ne.symm hts]
  · rfl

theorem removeRoutes (hts : t ≠ s) :
    Keeps t srv (srv.updateRoutes fun routes => routes.removeSession s) := by
  refine .updateRoutes ?_ ?_
  · intro a
    simp only [RouteTable.removeSession, Table.retain]
    cases srv.engine.routeTable.clientAddrs a with
    | none => rfl
    | some u =>
      by_cases hu : u = t
      · simp [hu, hts]
      · simp [hu, Option.filter_eq_some_iff]
  · exact filter_other hts _

theorem replaceRoutes {entries : List RouteEntry} (hentries : ∀ r ∈ entries, r.sessionId = s)
    (hts : t ≠ s) : Keeps t srv (srv.updateRoutes fun routes => routes.replaceSessionRoutes s entries) := by
  refine .updateRoutes (fun _ => Iff.rfl) ?_
  have hnone : entries.filter (·.sessionId = t) = [] := by
    rw [List.filter_eq_nil_iff]
    intro r hr
    simp [hentries r hr, Ne.symm hts]
  simp only [RouteTable.replaceSessionRoutes, List.filter_append, hnone, List.append_nil]
  exact filter_other hts _

theorem adopt (ranges : List IpAddressRange) (hts : t ≠ s) :
    Keeps t srv (srv.adoptRoutes s ranges) := by
  have hentries : ∀ r ∈ entriesFromClientRanges srv.config.subnets s ranges srv.pool.poolNets,
      r.sessionId = s := fun r hr => entriesFromClientRanges_session hr
  unfold Server.adoptRoutes
  split
  · exact (replaceRoutes hentries hts).trans (.manage (SessionManager.sameExcept_modify _ s _) hts)
  · exact .manage (SessionManager.sameExcept_modify _ s _) hts

theorem refresh (mtu : Nat) (hts : t ≠ s) : Keeps t srv (srv.refreshMtu s mtu) := by
  unfold Server.refreshMtu
  split
  · exact { refl t srv with mtu := Table.insert_of_ne _ _ hts }
  · exact refl t srv

theorem register (sink : SessionSink) (policy : EgressPolicy) (mtu now : Nat) (hts : t ≠ s) :
    Keeps t srv (srv.registerSession s sink policy mtu now) := by
  refine { refl t srv with
    sink := Table.insert_of_ne _ _ hts
    policy := Table.insert_of_ne _ _ hts
    mtu := Table.insert_of_ne _ _ hts
    limiter := ?_ }
  simp only [Server.registerSession]
  split
  · rfl
  · exact Table.insert_of_ne _ _ hts

theorem unregister (hts : t ≠ s) : Keeps t srv (srv.unregisterSession s) :=
  { refl t srv with
    sink := Table.remove_of_ne _ hts
    policy := Table.remove_of_ne _ hts
    mtu := Table.remove_of_ne _ hts
    limiter := Table.remove_of_ne _ hts }

end Keeps

/-- A step of session `s` leaves the other sessions alone, or it makes the route table name
`s` for one of its addresses. -/
theorem Operation.frame {s : SessionId} {srv srv' : Server} {stage : Stage}
    (h : Operation s srv stage srv') (hcons : srv.pool.Consistent) :
    (∃ a ∈ stage.toInstall, srv' = srv.insertClientAddr a.ipAddress s) ∨
      ∀ t, t ≠ s → Keeps t srv srv' := by
  cases h with
  | install ha => exact Or.inl ⟨_, ha, rfl⟩
  | quiet => exact Or.inr fun t _ => .refl t srv
  | allocate hgrant => exact Or.inr fun _ hts => .allocate hgrant hts
  | register sink policy mtu now => exact Or.inr fun _ hts => .register sink policy mtu now hts
  | refresh mtu => exact Or.inr fun _ hts => .refresh mtu hts
  | adopt ranges => exact Or.inr fun _ hts => .adopt ranges hts
  | manage hsame => exact Or.inr fun _ hts => .manage hsame hts
  | release => exact Or.inr fun _ hts => .release hcons hts
  | removeRoutes => exact Or.inr fun _ hts => .removeRoutes hts
  | unregister => exact Or.inr fun _ hts => .unregister hts

end Straw
