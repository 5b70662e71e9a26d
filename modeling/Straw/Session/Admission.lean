import Straw.Session.Delivery
import Straw.Session.Request

/-!
# The server behind its gate

A session begins with a request that was validated, authenticated and resolved. The
routes computed then are the policy of the session for its whole life, so whatever the
server forwards for it lies within the scope that the request asked for.
-/

namespace Straw

open Outcome Packet Proc Transition AddressPool
set_option autoImplicit false

/-- A request on its stream, and what the resolver answers while it is judged. -/
structure Arrival where
  req : Request
  peerCert : Option Bytes
  resolver : Resolver
  connSeq : UInt64
  streamId : UInt64
  conn : DatagramConn
  now : Nat

structure Front where
  server : Server
  authFailuresTotal : UInt64

/-- A session task with the request that opened it. -/
structure Visit where
  stage : Stage
  opened : Option (Arrival × Grant)

inductive FrontAct where
  | request (arrival : Arrival)
  | serve (act : HandlerAct)

namespace Front

def refuse (front : Front) (refusal : Refusal) : Front :=
  match refusal.status with
  | .unauthorized => { front with authFailuresTotal := front.authFailuresTotal + 1 }
  | _ => front

end Front

namespace Visit

def idle : Visit := ⟨.idle, none⟩

/-- The scope and the routes of a session leave the table with it. -/
def of : Stage → Option (Arrival × Grant) → Visit
  | .idle, _ => idle
  | stage, opened => ⟨stage, opened⟩

@[simp] theorem of_stage (stage : Stage) (opened : Option (Arrival × Grant)) :
    (of stage opened).stage = stage := by
  cases stage <;> rfl

/-- The requests that `handle_connection` leaves to the CONNECT-IP handler. -/
def handle (gate : Gate) (s : SessionId) : FrontAct → Front → Visit → Option (Front × Visit)
  | .request a, front, ⟨.idle, _⟩ =>
    if a.req.protocol = some connectUdpProtocol then none
    else
      match gate.judge front.server.pool a.resolver a.req a.peerCert with
      | .error refusal => some (front.refuse refusal, idle)
      | .ok grant =>
        (Straw.handle s (.start a.connSeq a.streamId a.conn grant.routes a.now) front.server
          .idle).map fun r => ({ front with server := r.1 }, of r.2 (some (a, grant)))
  | .serve (.start ..), _, _ => none
  | .serve act, front, visit =>
    (Straw.handle s act front.server visit.stage).map fun r =>
      ({ front with server := r.1 }, of r.2 visit.opened)
  | _, _, _ => none

end Visit

abbrev FrontSys := Tasks SessionId Front Visit

abbrev FrontLabel := Tasks.Label SessionId FrontAct Outside

def Front.outside (d : Outside) (front : Front) : Option Front :=
  (Straw.outside d front.server).map fun server => { front with server }

def frontStep (gate : Gate) : FrontSys → FrontLabel → Option FrontSys :=
  Tasks.step (Visit.handle gate) Front.outside

def Front.initial (config : ProxyConfig) (ipv4 : Ipv4Net) (ipv6 : Option Ipv6Net)
    (tunTx : Option (Bytes → Bool)) (icmpSource : IcmpSource) (limits : RateLimits)
    (maxSessions : Nat) : FrontSys where
  shared := ⟨(Server.initial config ipv4 ipv6 tunTx icmpSource limits maxSessions).shared, 0⟩
  task := fun _ => .idle

/-! What a step can do -/

inductive VisitStep (gate : Gate) (s : SessionId) (front : Front) (visit : Visit) :
    FrontAct → Front → Visit → Prop where
  | refused (a : Arrival) (front' : Front) : visit.stage = .idle →
      front'.server = front.server → VisitStep gate s front visit (.request a) front' .idle
  | opened (a : Arrival) (grant : Grant) (server : Server) (stage : Stage) : visit.stage = .idle →
      gate.judge front.server.pool a.resolver a.req a.peerCert = .ok grant →
      SessionId.compose a.connSeq a.streamId = s →
      Straw.handle s (.start a.connSeq a.streamId a.conn grant.routes a.now) front.server .idle =
        some (server, stage) →
      server.engine = front.server.engine →
      (stage = .idle ∨ stage = .accept ⟨quarterStreamId a.streamId, a.conn, grant.routes⟩) →
      VisitStep gate s front visit (.request a) { front with server } (.of stage (some (a, grant)))
  | served (act : HandlerAct) (server : Server) (stage : Stage) :
      Straw.handle s act front.server visit.stage = some (server, stage) →
      visit.stage ≠ .idle →
      VisitStep gate s front visit (.serve act) { front with server } (.of stage visit.opened)

section Steps

variable {gate : Gate} {s : SessionId} {front front' : Front} {visit visit' : Visit}

theorem Front.refuse_server (front : Front) (refusal : Refusal) :
    (front.refuse refusal).server = front.server := by
  unfold Front.refuse
  split <;> rfl

theorem handle_start_cases {connSeq streamId : UInt64} {conn : DatagramConn}
    {routes : List IpAddressRange} {now : Nat} {srv srv' : Server} {stage : Stage}
    (h : Straw.handle s (.start connSeq streamId conn routes now) srv .idle = some (srv', stage)) :
    SessionId.compose connSeq streamId = s ∧ srv'.engine = srv.engine ∧
      (stage = .idle ∨ stage = .accept ⟨quarterStreamId streamId, conn, routes⟩) := by
  cases Straw.handle_cases h with
  | start _ _ _ _ _ hid => exact ⟨hid, rfl, .inr rfl⟩
  | full _ _ _ _ _ hid => exact ⟨hid, rfl, .inl rfl⟩

theorem Visit.handle_cases {act : FrontAct}
    (h : visit.handle gate s act front = some (front', visit')) :
    VisitStep gate s front visit act front' visit' := by
  obtain ⟨stage, opened⟩ := visit
  cases act with
  | request a =>
    cases stage with
    | idle =>
      simp only [handle] at h
      split at h
      · cases h
      · split at h
        · obtain ⟨rfl, rfl⟩ := Prod.mk.inj (Option.some.inj h)
          exact .refused a _ rfl (front.refuse_server _)
        · next grant hgrant =>
          obtain ⟨⟨server, stage⟩, hstart, heq⟩ := Option.map_eq_some_iff.mp h
          obtain ⟨rfl, rfl⟩ := Prod.mk.inj heq
          obtain ⟨hid, hengine, hstage⟩ := handle_start_cases hstart
          exact .opened a grant server stage rfl hgrant hid hstart hengine hstage
    | _ => cases h
  | serve act =>
    have hserve : ∀ {act : HandlerAct}, stage ≠ .idle →
        (Straw.handle s act front.server stage).map (fun r =>
          ({ front with server := r.1 }, of r.2 opened)) = some (front', visit') →
        VisitStep gate s front ⟨stage, opened⟩ (.serve act) front' visit' := by
      intro act hidle h
      obtain ⟨⟨server, stage'⟩, hstep, heq⟩ := Option.map_eq_some_iff.mp h
      obtain ⟨rfl, rfl⟩ := Prod.mk.inj heq
      exact .served act server stage' hstep hidle
    have hidle : stage ≠ .idle := by
      rintro rfl
      cases act <;> cases h
    cases act with
    | start connSeq streamId conn routes now => cases h
    | tick ok now => exact hserve hidle h
    | chunk pending => exact hserve hidle h
    | close => exact hserve hidle h
    | refreshMtu max => exact hserve hidle h

theorem handle_policies_other {t : SessionId} (hst : s ≠ t) {act : HandlerAct}
    {srv srv' : Server} {stage stage' : Stage} (hcons : srv.pool.Consistent)
    (h : Straw.handle t act srv stage = some (srv', stage')) :
    srv'.engine.policies s = srv.engine.policies s := by
  rcases (handle_operation h).frame hcons with ⟨a, -, rfl⟩ | hkeeps
  · rfl
  · exact (hkeeps s hst).policy

theorem outside_frame {d : Outside} {srv srv' : Server} (h : Straw.outside d srv = some srv') :
    srv'.pool = srv.pool ∧
      ∀ p, srv'.engine.policies s = some p → srv.engine.policies s = some p := by
  cases d with
  | network packet =>
    obtain rfl := Option.some.inj h
    exact ⟨rfl, fun _ hp => hp⟩
  | background b =>
    cases b with
    | datagram d =>
      obtain rfl := Option.some.inj h
      obtain ⟨hpool, hengine⟩ := demux_frame srv d
      exact ⟨hpool, fun p hp => hengine ▸ hp⟩
    | reap t =>
      obtain rfl := Option.some.inj h
      refine ⟨rfl, fun p hp => ?_⟩
      by_cases hst : s = t
      · subst hst
        have hnone : (srv.unregisterSession s).engine.policies s = none := Table.remove_self _ _
        rw [hnone] at hp
        cases hp
      · exact (Table.remove_of_ne srv.engine.policies hst).symm.trans hp

end Steps

/-! What holds of every session -/

/-- The pool is read for its prefixes only. -/
theorem Gate.judge_congr (gate : Gate) {pool pool' : AddressPool} (h : pool'.nets = pool.nets)
    (resolver : Resolver) (req : Request) (peerCert : Option Bytes) :
    gate.judge pool' resolver req peerCert = gate.judge pool resolver req peerCert := by
  have hroutes : ∀ scope, resolveAdvertisedRoutes gate.routes pool' resolver scope =
      resolveAdvertisedRoutes gate.routes pool resolver scope := by
    intro scope
    simp only [resolveAdvertisedRoutes, advertisedRanges, poolNets_congr h]
  simp only [Gate.judge, hroutes]

/-- The routes of a session, in its tunnel and in its policy, are those of its grant. -/
structure Backed (gate : Gate) (pool : AddressPool) (s : SessionId) (front : Front)
    (visit : Visit) : Prop where
  standing : Standing s front.server visit.stage
  nets : front.server.pool.nets = pool.nets
  granted : ∀ a grant, visit.opened = some (a, grant) →
    SessionId.compose a.connSeq a.streamId = s ∧
      gate.judge pool a.resolver a.req a.peerCert = .ok grant
  tunnel : ∀ t, visit.stage.serves = some t →
    ∃ a grant, visit.opened = some (a, grant) ∧ t.routes = grant.routes
  policy : ∀ p, front.server.engine.policies s = some p →
    ∃ a grant, visit.opened = some (a, grant) ∧ p = ⟨grant.routes⟩

namespace Backed

variable {gate : Gate} {pool : AddressPool} {s t : SessionId} {front front' : Front}
  {visit visit' : Visit}

theorem policies_of_idle (h : Standing s front.server .idle) :
    front.server.engine.policies s = none :=
  (h.ledger.engine rfl).2.1

theorem of_idle (hstanding : Standing s front.server .idle)
    (hnets : front.server.pool.nets = pool.nets) : Backed gate pool s front .idle where
  standing := hstanding
  nets := hnets
  granted _ _ h := by cases h
  tunnel _ h := by cases h
  policy p hp := by
    rw [policies_of_idle hstanding] at hp
    cases hp

/-- Once the stage is not idle, the grant stays. -/
theorem of_stage {stage : Stage} {opened : Option (Arrival × Grant)}
    (hstanding : Standing s front.server stage) (hnets : front.server.pool.nets = pool.nets)
    (hgranted : ∀ a grant, opened = some (a, grant) →
      SessionId.compose a.connSeq a.streamId = s ∧
        gate.judge pool a.resolver a.req a.peerCert = .ok grant)
    (htunnel : ∀ t, stage.serves = some t →
      ∃ a grant, opened = some (a, grant) ∧ t.routes = grant.routes)
    (hpolicy : ∀ p, front.server.engine.policies s = some p →
      ∃ a grant, opened = some (a, grant) ∧ p = ⟨grant.routes⟩) :
    Backed gate pool s front (.of stage opened) := by
  cases stage with
  | idle => exact of_idle hstanding hnets
  | _ => exact ⟨hstanding, hnets, hgranted, htunnel, hpolicy⟩

theorem own {act : FrontAct} (h : Backed gate pool s front visit)
    (hstep : visit.handle gate s act front = some (front', visit')) :
    Backed gate pool s front' visit' := by
  cases Visit.handle_cases hstep with
  | refused a front' hidle hserver =>
    have hstanding := h.standing
    rw [hidle, ← hserver] at hstanding
    exact of_idle hstanding (hserver ▸ h.nets)
  | opened a grant server stage hidle hgrant hid hstart hengine hstage =>
    have hstanding := h.standing
    rw [hidle] at hstanding
    refine of_stage (hstanding.own hstart) ((handle_operation hstart).nets_eq.trans h.nets) ?_ ?_ ?_
    · rintro a' grant' ⟨rfl⟩
      rw [gate.judge_congr h.nets] at hgrant
      exact ⟨hid, hgrant⟩
    · intro t ht
      obtain rfl | rfl := hstage
      · cases ht
      · obtain rfl := Option.some.inj ht
        exact ⟨a, grant, rfl, rfl⟩
    · intro p hp
      have hnone := policies_of_idle hstanding
      simp only [hengine, hnone] at hp
      cases hp
  | served act server stage hact hbusy =>
    refine of_stage (h.standing.own hact) ((handle_operation hact).nets_eq.trans h.nets)
      h.granted ?_ ?_
    · intro t ht
      cases TunnelStep.of_handle hact with
      | start streamId conn routes hidle _ => exact absurd hidle hbusy
      | register mtu now hstage _ =>
        obtain rfl := Option.some.inj ht
        exact h.tunnel _ (by rw [hstage]; rfl)
      | serve hserves hbefore =>
        obtain rfl := Option.some.inj (hserves.symm.trans ht)
        exact h.tunnel _ hbefore
      | finish => cases ht
      | leave hserves =>
        rw [hserves] at ht
        cases ht
    · intro p hp
      cases TunnelStep.of_handle hact with
      | start streamId conn routes hidle _ => exact absurd hidle hbusy
      | @register t assigned mtu now hstage hsrv =>
        obtain ⟨a, grant, hopened, hroutes⟩ := h.tunnel t (by rw [hstage]; rfl)
        have hnew : server.engine.policies s = some ⟨t.routes⟩ := by
          rw [hsrv]
          exact Table.insert_self _ _ _
        obtain rfl := Option.some.inj (hnew.symm.trans hp)
        exact ⟨a, grant, hopened, by rw [hroutes]⟩
      | serve _ _ _ _ hpolicies =>
        simp only [hpolicies] at hp
        exact h.policy p hp
      | finish _ hengine =>
        simp only [hengine] at hp
        exact h.policy p hp
      | leave _ _ _ hpolicies => exact h.policy p (hpolicies p hp)

theorem other {act : FrontAct} {mine : Visit} (hst : s ≠ t) (hk : Backed gate pool t front visit)
    (hi : Backed gate pool s front mine)
    (hstep : visit.handle gate t act front = some (front', visit')) :
    Backed gate pool s front' mine := by
  have hhandle : ∀ {act : HandlerAct} {server : Server} {stage : Stage},
      Straw.handle t act front.server visit.stage = some (server, stage) →
      Backed gate pool s { front with server } mine := by
    intro act server stage hact
    have hpolicy := handle_policies_other hst hi.standing.ledger.consistent hact
    exact ⟨Standing.other hst hk.standing hi.standing hact,
      (handle_operation hact).nets_eq.trans hi.nets, hi.granted, hi.tunnel,
      fun p hp => hi.policy p (hpolicy.symm.trans hp)⟩
  cases Visit.handle_cases hstep with
  | refused a front' hidle hserver =>
    exact ⟨hserver ▸ hi.standing, hserver ▸ hi.nets, hi.granted, hi.tunnel, hserver ▸ hi.policy⟩
  | opened a grant server stage hidle hgrant hid hstart =>
    rw [← hidle] at hstart
    exact hhandle hstart
  | served act server stage hact hbusy => exact hhandle hact

theorem outside {d : Outside} (h : Backed gate pool s front visit)
    (hstep : front.outside d = some front') : Backed gate pool s front' visit := by
  obtain ⟨server, hserver, rfl⟩ := Option.map_eq_some_iff.mp hstep
  obtain ⟨hpool, hpolicies⟩ := outside_frame hserver
  exact ⟨h.standing.outside hserver, by rw [hpool]; exact h.nets, h.granted, h.tunnel,
    fun p hp => h.policy p (hpolicies p hp)⟩

/-- What the policy of a session allows lies in the scope of its grant. -/
theorem covers (h : Backed gate pool s front visit) {a : IpAddr} {proto : UInt8}
    (hallows : front.server.engine.allows s a proto = true) :
    ∃ arrival grant, visit.opened = some (arrival, grant) ∧
      SessionId.compose arrival.connSeq arrival.streamId = s ∧
      gate.judge pool arrival.resolver arrival.req arrival.peerCert = .ok grant ∧
      grant.scope.Covers gate.routes pool arrival.resolver a proto := by
  rw [ForwardingEngine.allows] at hallows
  split at hallows
  · next p hp =>
    obtain ⟨arrival, grant, hopened, rfl⟩ := h.policy p hp
    obtain ⟨hid, hgrant⟩ := h.granted arrival grant hopened
    refine ⟨arrival, grant, hopened, hid, hgrant, ?_⟩
    have hroutes := (Gate.judge_eq_ok_iff.mp hgrant).2.2
    exact (resolveAdvertisedRoutes_covers hroutes a proto).mp
      ((EgressPolicy.allows_iff a proto).mp hallows)
  · cases hallows

end Backed

section Runs

variable {gate : Gate} {config : ProxyConfig} {ipv4 : Ipv4Net} {ipv6 : Option Ipv6Net}
  {tunTx : Option (Bytes → Bool)} {icmpSource : IcmpSource} {limits : RateLimits}
  {maxSessions : Nat} {labels : List FrontLabel} {σ : FrontSys}

theorem backed_run
    (h : Run (Fires (frontStep gate))
      (Front.initial config ipv4 ipv6 tunTx icmpSource limits maxSessions) labels σ)
    (s : SessionId) : Backed gate (AddressPool.new ipv4 ipv6) s σ.shared (σ.task s) := by
  refine Tasks.run_keeps_all (J := Backed gate (AddressPool.new ipv4 ipv6)) ?_ ?_ ?_ h ?_ s
  · intro k act front front' visit visit' hown hstep
    exact hown.own hstep
  · intro k act front front' visit visit' i mine hne hk hi hstep
    exact Backed.other hne hk hi hstep
  · intro d front front' i visit hi hstep
    exact hi.outside hstep
  · intro k
    exact Backed.of_idle (standing_run (.nil _) k) rfl

/-- The request of a session is one of the run. -/
theorem opened_mem
    (h : Run (Fires (frontStep gate))
      (Front.initial config ipv4 ipv6 tunTx icmpSource limits maxSessions) labels σ)
    {s : SessionId} {a : Arrival} {grant : Grant} (hopened : (σ.task s).opened = some (a, grant)) :
    .task s (.request a) ∈ labels := by
  have hof : ∀ {stage : Stage} {opened : Option (Arrival × Grant)},
      (Visit.of stage opened).opened = some (a, grant) → opened = some (a, grant) := by
    intro stage opened hof
    cases stage <;> first | exact hof | cases hof
  have hown : ∀ {k act front front' visit visit'},
      Visit.handle gate k act front visit = some (front', visit') →
      visit'.opened = some (a, grant) → visit.opened = some (a, grant) ∨ act = .request a := by
    intro k act front front' visit visit' hstep hopened
    cases Visit.handle_cases hstep with
    | refused a' front' => cases hopened
    | opened a' grant' server stage =>
      obtain ⟨rfl, rfl⟩ := Prod.mk.inj (Option.some.inj (hof hopened))
      exact Or.inr rfl
    | served act server stage => exact Or.inl (hof hopened)
  obtain ⟨act, hact, hmem⟩ := Tasks.run_origin (Q := fun v => v.opened = some (a, grant))
    (R := fun act => act = .request a) hown h nofun hopened
  exact hact ▸ hmem

/-- Some request of the run opened session `s` with a scope that covers the address and the
protocol. -/
def Vetted (gate : Gate) (pool : AddressPool) (labels : List FrontLabel) (s : SessionId)
    (a : IpAddr) (proto : UInt8) : Prop :=
  ∃ arrival scope context, .task s (.request arrival) ∈ labels ∧
    SessionId.compose arrival.connSeq arrival.streamId = s ∧
    arrival.req.validateRequest = .ok scope ∧
    gate.auth.authenticate gate.base64 gate.sha256 arrival.req.headers arrival.peerCert =
      .ok context ∧
    scope.Covers gate.routes pool arrival.resolver a proto

theorem vetted_of_allows
    (h : Run (Fires (frontStep gate))
      (Front.initial config ipv4 ipv6 tunTx icmpSource limits maxSessions) labels σ)
    {s : SessionId} {a : IpAddr} {proto : UInt8}
    (hallows : σ.shared.server.engine.allows s a proto = true) :
    Vetted gate (AddressPool.new ipv4 ipv6) labels s a proto := by
  obtain ⟨arrival, grant, hopened, hid, hgrant, hcovers⟩ := (backed_run h s).covers hallows
  obtain ⟨hscope, hauth, -⟩ := Gate.judge_eq_ok_iff.mp hgrant
  exact ⟨arrival, grant.scope, grant.auth, opened_mem h hopened, hid, hscope, hauth, hcovers⟩

/-- Nothing is forwarded for a session outside the scope of a request that was valid and
authenticated. What a client sends stays within its own scope, and what reaches a client,
from another one or from the network, comes from within the scope of the receiver. -/
theorem forwarded_in_scope
    (h : Run (Fires (frontStep gate))
      (Front.initial config ipv4 ipv6 tunTx icmpSource limits maxSessions) labels σ)
    (packet : Bytes) :
    (∀ s now forwarded traffic,
      σ.shared.server.forward s packet now = some (.ok forwarded, traffic) →
      ∃ info, parsePacket packet = .ok info ∧
        Vetted gate (AddressPool.new ipv4 ipv6) labels s info.dst info.protocol ∧
        ∀ t, forwarded = .hairpin t →
          Vetted gate (AddressPool.new ipv4 ipv6) labels t info.src info.protocol) ∧
    ∀ t traffic,
      (σ.shared.server.engine.dispatchFromNetwork packet).exec σ.shared.server.traffic =
        (.ok t, traffic) →
      ∃ info, parsePacket packet = .ok info ∧
        Vetted gate (AddressPool.new ipv4 ipv6) labels t info.src info.protocol := by
  constructor
  · intro s now forwarded traffic hforward
    obtain ⟨assigned, -, hexec⟩ := Option.map_eq_some_iff.mp hforward
    rcases ForwardingEngine.forwardFromClient_cases hexec with
      ⟨⟨fault, hfault⟩, -⟩ | ⟨u, u', hvalidated, -, -⟩
    · cases hfault
    · rcases ForwardingEngine.forwardValidated_cases hvalidated with
        ⟨info, out, f, em, hcleared, -, hok, hrouted, -⟩ | ⟨⟨fault, hfault⟩, -⟩
      · obtain rfl := Except.ok.inj hok
        refine ⟨info, hcleared.parsed, vetted_of_allows h hcleared.policy, ?_⟩
        rintro t rfl
        rcases hrouted with ⟨target, -, hf, -, hallows, -⟩ | ⟨-, hf, -⟩
        · obtain rfl := Forwarded.hairpin.inj hf
          exact vetted_of_allows h hallows
        · cases hf
      · cases hfault
  · intro t traffic hexec
    rcases ForwardingEngine.dispatchFromNetwork_cases hexec with
      ⟨info, target, out, em, hparse, hadmits, -, hok, -⟩ | ⟨⟨fault, hfault⟩, -⟩
    · obtain rfl := Except.ok.inj hok
      exact ⟨info, hparse, vetted_of_allows h hadmits.policy⟩
    · cases hfault

def openGate : Gate := ⟨.standard, id, ⟨.none, [], []⟩, ⟨[], none⟩⟩

/-- A request for UDP to `10.100.0.0/29`, and the setup of its tunnel. -/
def openVisit (streamId : UInt64) : List FrontLabel :=
  let s := SessionId.compose 0 streamId
  .task s (.request
    { req := ⟨.connect, some connectIpProtocol, "/.well-known/masque/ip/10.100.0.0%2F29/17/",
        [("capsule-protocol", Text.asBytes "?1")]⟩
      peerCert := none
      resolver := ⟨fun _ => .error "no such host", "invalid prefix length"⟩
      connSeq := 0
      streamId
      conn := ⟨none, fun _ => true⟩
      now := 0 }) :: List.replicate 9 (.task s (.serve (.tick true 0)))

def testFront : FrontSys :=
  Front.initial ⟨1400, false, fun _ _ => []⟩ testNet none none ⟨0x0a640001#32, none⟩ ⟨0, 0⟩ 0

theorem forwarded_in_scope_two_requests :
    ∃ σ r, Run (Fires (frontStep openGate)) testFront (openVisit 0 ++ openVisit 4) σ ∧
      σ.shared.server.forward ⟨0⟩ ForwardingEngine.barePacket 0 = some r ∧
      Vetted openGate (AddressPool.new testNet none) (openVisit 0 ++ openVisit 4) ⟨0⟩
        (.v4 0x0a640003#32) 17 ∧
      Vetted openGate (AddressPool.new testNet none) (openVisit 0 ++ openVisit 4) ⟨4⟩
        (.v4 0x0a640002#32) 17 := by
  have hexec : ((exec (frontStep openGate) testFront (openVisit 0 ++ openVisit 4)).bind fun σ =>
      σ.shared.server.forward ⟨0⟩ ForwardingEngine.barePacket 0).map Prod.fst =
        some (.ok (.hairpin ⟨4⟩)) := by decide +kernel
  obtain ⟨⟨outcome, traffic⟩, hr, rfl⟩ := Option.map_eq_some_iff.mp hexec
  obtain ⟨σ, hσ, hforward⟩ := Option.bind_eq_some_iff.mp hr
  obtain ⟨info, hparse, hsent, hreceived⟩ :=
    (forwarded_in_scope (run_of_exec hσ) ForwardingEngine.barePacket).1 ⟨0⟩ 0 _ traffic hforward
  obtain rfl := Except.ok.inj (parsePacket_barePacket.symm.trans hparse)
  exact ⟨σ, _, run_of_exec hσ, hforward, hsent, hreceived ⟨4⟩ rfl⟩

end Runs

end Straw
