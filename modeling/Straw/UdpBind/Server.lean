import Straw.Config
import Straw.Session.Request
import Straw.UdpBind.AllocRuns
import Straw.UdpBind.Firewall
import Straw.UdpBind.Release

/-!
# The relay behind its gate

The tasks of a bind session together with the datagrams they carry and the request that
opened the session. The answers to the two checks of the handler are those that the
request deserves. Nothing leaves a socket of the relay before its request was checked, and
the loops that outlive their handler still belong to that request.
-/

namespace Straw

open Auth Config Outcome Transition
set_option autoImplicit false

def udpPathPrefix : String := "/.well-known/masque/udp/"

/-- `validate_request` of the CONNECT-UDP handler. -/
def Request.validateBind (req : Request) : Except ProxyError Unit := do
  req.checkProtocol connectUdpProtocol ":protocol missing"
  req.checkHeader "connect-udp-bind"
  req.checkHeader "capsule-protocol"
  if udpPathPrefix.toList.isPrefixOf req.path.toList then .ok ()
  else .error (.invalidRequest ("path must start with " ++ udpPathPrefix))

structure BindArrival where
  req : Request
  peerCert : Option Bytes

/-- What the relay judges requests and datagrams by. -/
structure RelayGate where
  base64 : Base64
  sha256 : Bytes → Bytes
  up : Startup

/-- A bind session: its tasks, its datagrams and the request that opened it. -/
structure BindVisit where
  tasks : BindSession
  relay : BindRelay
  opened : Option BindArrival

inductive RelayAct where
  | request (arrival : BindArrival)
  /-- A step of the tasks at time `now`. -/
  | control (act : BindAct) (now : Nat)
  | datagram (event : BindEvent)

namespace RelayGate

variable (gate : RelayGate)

def authenticate (a : BindArrival) : ProxyResult :=
  (gate.up.auth.authenticate gate.base64 gate.sha256 a.req.headers a.peerCert).map fun _ => ()

/-- The checks of the handler come out as its request has it. -/
def answers (opened : Option BindArrival) : BindAct → Bool
  | .request => false
  | .validate r => opened.any fun a => r = a.req.validateBind
  | .authenticate r => opened.any fun a => r = gate.authenticate a
  | _ => true

def fresh (now : Nat) : BindRelay :=
  .start gate.up.policy (.new gate.up.egressLimits now)

/-- `BindSocket::bind` makes the state of the data plane. -/
def relayAfter (relay : BindRelay) (now : Nat) : BindAct → BindRelay
  | .bind (some _) => gate.fresh now
  | _ => relay

end RelayGate

namespace BindVisit

/-- The capsule loop runs in the handler, either half of the data plane in its own task. -/
def permits (v : BindVisit) : BindEvent → Bool
  | .chunk _ | .capsule _ =>
    match v.tasks.handler with
    | .serving _ => true
    | _ => false
  | .recvFrom _ _ | .trySend _ =>
    match v.tasks.inbound with
    | .polling _ _ => true
    | _ => false
  | .fromPeer _ _ | .sendTo _ =>
    match v.tasks.run with
    | .polling _ _ => true
    | _ => false

/-- Which body the rewrite loop takes from its queue is left open. -/
def advance (gate : RelayGate) (id : SessionId) :
    RelayAct → UdpBindState → BindVisit → Option (UdpBindState × BindVisit)
  | .request a, g, v =>
    (BindSession.advance id .request g v.tasks).map fun r =>
      (r.1, { v with tasks := r.2, opened := some a })
  | .control act now, g, v =>
    if gate.answers v.opened act then
      (BindSession.advance id act g v.tasks).map fun r =>
        (r.1, { v with tasks := r.2, relay := gate.relayAfter v.relay now act })
    else none
  | .datagram event, g, v =>
    if v.permits event then (v.relay.step event).map fun relay => (g, { v with relay }) else none

end BindVisit

abbrev RelaySys := Tasks SessionId UdpBindState BindVisit
abbrev RelayLabel := Tasks.Label SessionId RelayAct Empty

def relayStep (gate : RelayGate) : RelaySys → RelayLabel → Option RelaySys :=
  Tasks.step (BindVisit.advance gate) fun d _ => d.elim

def RelaySys.initial (gate : RelayGate) : RelaySys :=
  ⟨⟨gate.up.allocator, Table.empty⟩, fun _ => ⟨.fresh, gate.fresh 0, none⟩⟩

/-! What a step of the handler can do -/

/-- The request of the handler has passed both checks. -/
def BindPc.granted : BindPc → Bool
  | .allocating _ | .binding _ _ | .unbound _ _ | .accepting _ _ | .reporting _ _
  | .registering _ _ | .spawning _ _ | .serving _ | .aborting _ _ | .unregistering _ _
  | .releasing _ _ => true
  | .idle | .entered | .validated | .refusing _ | .returned _ => false

structure Progress (g : UdpBindState) (act : BindAct) (pc : BindPc) (g' : UdpBindState)
    (pc' : BindPc) : Prop where
  allocator : g'.allocator = g.allocator ∨
    (∃ a, g.allocator = some a ∧ g'.allocator = some a.allocate.1) ∨
    ∃ addr, g'.allocator = g.allocator.map fun a => a.release addr
  begun : pc' ≠ .idle
  validated : pc' = .validated → act = .validate (.ok ())
  granted : pc'.granted = true →
    pc.granted = true ∨ pc = .validated ∧ act = .authenticate (.ok ()) ∧ g.allocator ≠ none
  held : ∀ addr, pc'.held = some addr →
    pc.held = some addr ∨ ∃ a, g.allocator = some a ∧ a.allocate.2 = some addr
  socket : ∀ b, pc'.socket = some b →
    pc.socket = some b ∨ ∃ addr, pc.held = some addr ∧ BoundTo addr b

section Handler

variable {id : SessionId} {g g' : UdpBindState} {act : BindAct} {pc pc' : BindPc}

/-- A step from a handler that keeps what it has, or has less. -/
theorem Progress.of_keep (hallocator : g'.allocator = g.allocator) (hbegun : pc' ≠ .idle)
    (hvalidated : pc' = .validated → act = .validate (.ok ()))
    (hgranted : pc'.granted = true →
      pc.granted = true ∨ pc = .validated ∧ act = .authenticate (.ok ()) ∧ g.allocator ≠ none)
    (hheld : pc'.held = none ∨ pc'.held = pc.held)
    (hsocket : pc'.socket = none ∨ pc'.socket = pc.socket) : Progress g act pc g' pc' := by
  refine ⟨Or.inl hallocator, hbegun, hvalidated, hgranted, ?_, ?_⟩
  · intro addr haddr
    rcases hheld with hnone | hsame
    · cases hnone.symm.trans haddr
    · exact Or.inl (hsame ▸ haddr)
  · intro b hb
    rcases hsocket with hnone | hsame
    · cases hnone.symm.trans hb
    · exact Or.inl (hsame ▸ hb)

theorem progress (h : handleConnectUdpBindStream id g act pc = some (g', pc')) :
    Progress g act pc g' pc' := by
  unfold handleConnectUdpBindStream at h
  split at h
  · cases h
    exact .of_keep rfl nofun nofun nofun (.inl rfl) (.inl rfl)
  · rename_i r
    cases h
    cases r with
    | ok u => exact .of_keep rfl nofun (fun _ => rfl) nofun (.inl rfl) (.inl rfl)
    | error e => exact .of_keep rfl nofun nofun nofun (.inl rfl) (.inl rfl)
  · rename_i r
    cases h
    cases ha : g.allocator with
    | none => exact .of_keep rfl nofun nofun nofun (.inl rfl) (.inl rfl)
    | some a =>
      cases r with
      | ok u =>
        have henabled : g.allocator ≠ none := by rw [ha]; exact Option.some_ne_none a
        exact .of_keep rfl nofun nofun (fun _ => .inr ⟨rfl, rfl, henabled⟩) (.inl rfl) (.inl rfl)
      | error e => exact .of_keep rfl nofun nofun nofun (.inl rfl) (.inl rfl)
  · rename_i r e
    cases h
    cases r with
    | ok u => exact .of_keep rfl nofun nofun nofun (.inl rfl) (.inl rfl)
    | error e => exact .of_keep rfl nofun nofun nofun (.inl rfl) (.inl rfl)
  · rename_i attempts
    cases ha : g.allocator with
    | none =>
      rw [ha] at h
      cases h
    | some a =>
      simp only [ha, Option.map_some] at h
      rcases hb : a.allocate with ⟨b, r⟩
      rw [hb] at h
      have hnext : some b = some a.allocate.1 := by rw [hb]
      cases r with
      | none =>
        cases h
        exact ⟨.inr (.inl ⟨a, ha, hnext⟩), nofun, nofun, nofun, nofun, nofun⟩
      | some addr =>
        cases h
        refine ⟨.inr (.inl ⟨a, ha, hnext⟩), nofun, nofun, fun _ => .inl rfl, ?_, nofun⟩
        rintro addr' ⟨rfl⟩
        exact .inr ⟨a, ha, by rw [hb]⟩
  · cases h
    exact .of_keep rfl nofun nofun (fun _ => .inl rfl) (.inr rfl) (.inr rfl)
  · rename_i bound attempts addr
    obtain ⟨hbound, h⟩ := Option.ite_none_right_eq_some.mp h
    cases h
    refine ⟨.inl rfl, nofun, nofun, fun _ => .inl rfl, fun _ h => .inl h, ?_⟩
    rintro b ⟨rfl⟩
    exact .inr ⟨addr, rfl, hbound⟩
  · rename_i attempts addr
    cases h
    refine ⟨.inr (.inr ⟨addr, rfl⟩), ?_, ?_, fun _ => .inl rfl, ?_, ?_⟩
    · unfold BindPc.retry
      split <;> exact nofun
    · unfold BindPc.retry
      split <;> exact nofun
    · intro addr' hheld
      cases (BindPc.held_of_outside (BindPc.outside_retry attempts)).1.symm.trans hheld
    · intro b hb
      cases (BindPc.held_of_outside (BindPc.outside_retry attempts)).2.1.symm.trans hb
  · rename_i r addr bound
    cases h
    cases r with
    | ok u => exact .of_keep rfl nofun nofun (fun _ => .inl rfl) (.inr rfl) (.inr rfl)
    | error e => exact .of_keep rfl nofun nofun nofun (.inl rfl) (.inl rfl)
  · rename_i r addr bound
    cases h
    cases r with
    | ok u => exact .of_keep rfl nofun nofun (fun _ => .inl rfl) (.inr rfl) (.inr rfl)
    | error e => exact .of_keep rfl nofun nofun nofun (.inl rfl) (.inl rfl)
  · cases h
    exact .of_keep rfl nofun nofun (fun _ => .inl rfl) (.inr rfl) (.inr rfl)
  · cases h
    exact .of_keep rfl nofun nofun (fun _ => .inl rfl) (.inr rfl) (.inl rfl)
  · cases h
    exact .of_keep rfl nofun nofun (fun _ => .inl rfl) (.inr rfl) (.inl rfl)
  · cases h
    exact .of_keep rfl nofun nofun (fun _ => .inl rfl) (.inr rfl) (.inl rfl)
  · cases h
    exact .of_keep rfl nofun nofun (fun _ => .inl rfl) (.inr rfl) (.inl rfl)
  · rename_i addr r
    cases h
    exact ⟨.inr (.inr ⟨addr, rfl⟩), nofun, nofun, nofun, nofun, nofun⟩
  · cases h

theorem BindPc.granted_of_held {addr : SocketAddr} (h : pc.held = some addr) :
    pc.granted = true := by
  cases pc <;> first | rfl | cases h

end Handler

namespace BindSession

variable {id : SessionId} {g g' : UdpBindState} {act : BindAct} {l l' : BindSession}

theorem advance_progress (h : advance id act g l = some (g', l')) :
    (Progress g act l.handler g' l'.handler ∧ l'.run = l.runAfter act ∧
        l'.inbound = l.inbound) ∨
      (g' = g ∧ LoopsEffect act l l') :=
  (advance_split h).imp_left (And.imp_left progress)

/-- A socket that a step brings is bound to the tuple of the handler. -/
theorem owns_advance (h : advance id act g l = some (g', l')) {b : SocketAddr}
    (hb : l'.Owns b) : l.Owns b ∨ ∃ addr, l.handler.held = some addr ∧ BoundTo addr b := by
  rcases advance_progress h with ⟨hprogress, hrun, hinbound⟩ | ⟨-, hloops⟩
  · rcases hb with hb | hb | hb
    · exact (hprogress.socket b hb).imp_left Or.inl
    · rw [hrun] at hb
      rcases owner_runAfter l act with hsame | hsocket
      · exact Or.inl (Or.inr (Or.inl (hsame ▸ hb)))
      · exact Or.inl (Or.inl (hsocket ▸ hb))
    · exact Or.inl (Or.inr (Or.inr (hinbound ▸ hb)))
  · rcases hb with hb | hb | hb
    · exact Or.inl (Or.inl (hloops.handler ▸ hb))
    · exact Or.inl (Or.inr (Or.inl (hloops.run hb)))
    · exact Or.inl (Or.inr ((hloops.inbound hb).symm))

theorem advance_request (h : advance id .request g l = some (g', l')) :
    l.handler = .idle ∧ g' = g ∧ l' = { l with handler := .entered } := by
  unfold advance at h
  split at h
  · rename_i g₁ pc hstep
    cases h
    cases hpc : l.handler <;> rw [hpc] at hstep <;> cases hstep
    exact ⟨rfl, rfl, rfl⟩
  · cases h

end BindSession

/-! What holds of every session -/

namespace RelayGate

/-- The relay is enabled, and the request passed both checks. -/
def Grants (gate : RelayGate) (opened : Option BindArrival) : Prop :=
  gate.up.allocator ≠ none ∧
    ∃ a, opened = some a ∧ a.req.validateBind = .ok () ∧ gate.authenticate a = .ok ()

/-- The tuple is one that the configuration offers. -/
def Offers (gate : RelayGate) (addr : SocketAddr) : Prop :=
  ∃ a, gate.up.allocator = some a ∧ a.Offers addr

/-- The allocator is the one of the start, with other tuples in use. -/
def Pooled (gate : RelayGate) (g : UdpBindState) : Prop :=
  ∀ a, g.allocator = some a →
    a.Cursors ∧ ∃ a₀, gate.up.allocator = some a₀ ∧ a₀.SamePool a

variable {gate : RelayGate} {g g' : UdpBindState}

theorem Pooled.offers (h : gate.Pooled g) {a : PortAllocator} (ha : g.allocator = some a)
    {addr : SocketAddr} (haddr : a.allocate.2 = some addr) : gate.Offers addr := by
  obtain ⟨hcursors, a₀, ha₀, hips, hlo, hhi⟩ := h a ha
  obtain ⟨-, ⟨ip, hip, port, hlow, hhigh, rfl⟩, -⟩ := PortAllocator.allocate_some hcursors haddr
  exact ⟨a₀, ha₀, ip, hips ▸ hip, port, hlo ▸ hlow, hhi ▸ hhigh, rfl⟩

theorem Pooled.progress {act : BindAct} {pc pc' : BindPc} (h : gate.Pooled g)
    (hstep : Progress g act pc g' pc') : gate.Pooled g' := by
  intro a ha
  rcases hstep.allocator with hsame | ⟨b, hb, hnext⟩ | ⟨addr, hnext⟩
  · exact h a (hsame ▸ ha)
  · obtain rfl := Option.some.inj (hnext.symm.trans ha)
    obtain ⟨hcursors, a₀, ha₀, hpool⟩ := h b hb
    exact ⟨hcursors.allocate, a₀, ha₀, hpool.trans b.allocate_pool⟩
  · obtain ⟨b, hb, rfl⟩ := Option.map_eq_some_iff.mp (hnext.symm.trans ha)
    obtain ⟨hcursors, a₀, ha₀, hpool⟩ := h b hb
    exact ⟨⟨hcursors.ip_lt, hcursors.le_port, hcursors.port_le⟩, a₀, ha₀, hpool⟩

theorem Pooled.advance {id : SessionId} {act : BindAct} {l l' : BindSession} (h : gate.Pooled g)
    (hstep : BindSession.advance id act g l = some (g', l')) : gate.Pooled g' := by
  rcases BindSession.advance_progress hstep with ⟨hprogress, -⟩ | ⟨rfl, -⟩
  · exact h.progress hprogress
  · exact h

theorem answers_validate {opened : Option BindArrival} {r : ProxyResult}
    (h : gate.answers opened (.validate r) = true) :
    ∃ a, opened = some a ∧ r = a.req.validateBind := by
  cases opened with
  | none => cases h
  | some a => exact ⟨a, rfl, of_decide_eq_true h⟩

theorem answers_authenticate {opened : Option BindArrival} {r : ProxyResult}
    (h : gate.answers opened (.authenticate r) = true) :
    ∃ a, opened = some a ∧ r = gate.authenticate a := by
  cases opened with
  | none => cases h
  | some a => exact ⟨a, rfl, of_decide_eq_true h⟩

end RelayGate

structure Vouched (gate : RelayGate) (g : UdpBindState) (v : BindVisit) : Prop where
  pool : gate.Pooled g
  unopened : v.tasks.handler = .idle → v.opened = none
  validated : v.tasks.handler = .validated →
    ∃ a, v.opened = some a ∧ a.req.validateBind = .ok ()
  granted : v.tasks.handler.granted = true → gate.Grants v.opened
  owned : ∀ b, v.tasks.Owns b → gate.Grants v.opened
  held : ∀ addr, v.tasks.handler.held = some addr → gate.Offers addr
  bound : ∀ b, v.tasks.Owns b → ∃ addr, gate.Offers addr ∧ BoundTo addr b
  policy : v.relay.policy = gate.up.policy
  sent : Handoff.Admits (fun e => gate.Grants v.opened ∧ gate.up.policy.allows e.1 = true)
    .empty v.relay.toNetwork

namespace Vouched

variable {gate : RelayGate} {id : SessionId} {g g' : UdpBindState} {v v' : BindVisit}

theorem request {a : BindArrival} {l : BindSession} (h : Vouched gate g v)
    (hstep : BindSession.advance id .request g v.tasks = some (g', l)) :
    Vouched gate g' { v with tasks := l, opened := some a } := by
  obtain ⟨hidle, rfl, rfl⟩ := BindSession.advance_request hstep
  -- no socket and no datagram can belong to a session without a request
  have hnone : ¬ gate.Grants v.opened := by
    rintro ⟨-, b, hb, -⟩
    cases (h.unopened hidle).symm.trans hb
  have howns : ∀ b, ¬ ({ v.tasks with handler := .entered } : BindSession).Owns b := by
    rintro b (hb | hb)
    · cases hb
    · exact hnone (h.owned b (Or.inr hb))
  exact
    { pool := h.pool
      unopened := nofun
      validated := nofun
      granted := nofun
      owned := fun b hb => absurd hb (howns b)
      held := nofun
      bound := fun b hb => absurd hb (howns b)
      policy := h.policy
      sent := h.sent.mono fun e he => absurd he.1 hnone }

theorem control {act : BindAct} {now : Nat} {l : BindSession} (h : Vouched gate g v)
    (hanswers : gate.answers v.opened act = true)
    (hstep : BindSession.advance id act g v.tasks = some (g', l)) :
    Vouched gate g' { v with tasks := l, relay := gate.relayAfter v.relay now act } := by
  have hrelay : gate.relayAfter v.relay now act = v.relay ∨
      gate.relayAfter v.relay now act = gate.fresh now := by
    unfold RelayGate.relayAfter
    split
    · exact Or.inr rfl
    · exact Or.inl rfl
  have hvalidated : l.handler = .validated →
      ∃ a, v.opened = some a ∧ a.req.validateBind = .ok () := by
    intro hpc
    rcases BindSession.advance_progress hstep with ⟨hprogress, -⟩ | ⟨-, hloops⟩
    · obtain rfl := hprogress.validated hpc
      obtain ⟨a, ha, hok⟩ := RelayGate.answers_validate hanswers
      exact ⟨a, ha, hok.symm⟩
    · exact h.validated (hloops.handler ▸ hpc)
  have hgranted : l.handler.granted = true → gate.Grants v.opened := by
    intro hpc
    rcases BindSession.advance_progress hstep with ⟨hprogress, -⟩ | ⟨-, hloops⟩
    · rcases hprogress.granted hpc with hbefore | ⟨hbefore, rfl, henabled⟩
      · exact h.granted hbefore
      · obtain ⟨b, hb⟩ := Option.ne_none_iff_exists'.mp henabled
        obtain ⟨-, b₀, hb₀, -⟩ := h.pool b hb
        obtain ⟨a, ha, hvalid⟩ := h.validated hbefore
        obtain ⟨b, hb, hok⟩ := RelayGate.answers_authenticate hanswers
        obtain rfl := Option.some.inj (ha.symm.trans hb)
        exact ⟨Option.ne_none_iff_exists'.mpr ⟨b₀, hb₀⟩, a, ha, hvalid, hok.symm⟩
    · exact h.granted (hloops.handler ▸ hpc)
  have hunopened : l.handler = .idle → v.opened = none := by
    intro hpc
    rcases BindSession.advance_progress hstep with ⟨hprogress, -⟩ | ⟨-, hloops⟩
    · exact absurd hpc hprogress.begun
    · exact h.unopened (hloops.handler ▸ hpc)
  have hheld : ∀ addr, l.handler.held = some addr → gate.Offers addr := by
    intro addr haddr
    rcases BindSession.advance_progress hstep with ⟨hprogress, -⟩ | ⟨-, hloops⟩
    · rcases hprogress.held addr haddr with hbefore | ⟨a, ha, hallocated⟩
      · exact h.held addr hbefore
      · exact h.pool.offers ha hallocated
    · exact h.held addr (hloops.handler ▸ haddr)
  refine ⟨h.pool.advance hstep, hunopened, hvalidated, hgranted, ?_, hheld, ?_, ?_, ?_⟩
  · intro b hb
    rcases BindSession.owns_advance hstep hb with hbefore | ⟨addr, haddr, -⟩
    · exact h.owned b hbefore
    · exact h.granted (BindPc.granted_of_held haddr)
  · intro b hb
    rcases BindSession.owns_advance hstep hb with hbefore | ⟨addr, haddr, hbound⟩
    · exact h.bound b hbefore
    · exact ⟨addr, h.held addr haddr, hbound⟩
  · rcases hrelay with hsame | hfresh
    · simp only [hsame]
      exact h.policy
    · simp only [hfresh]
      rfl
  · rcases hrelay with hsame | hfresh
    · simp only [hsame]
      exact h.sent
    · simp only [hfresh]
      exact Or.inl rfl

/-- Only a session whose request was granted takes part in the data plane. -/
theorem grants_of_permits {event : BindEvent} (h : Vouched gate g v)
    (hpermits : v.permits event = true) : gate.Grants v.opened := by
  unfold BindVisit.permits at hpermits
  split at hpermits
  all_goals
    split at hpermits
    · next hpc =>
      first
      | exact h.granted (by rw [hpc]; rfl)
      | exact h.owned _ (Or.inr (Or.inl (by rw [hpc]; rfl)))
      | exact h.owned _ (Or.inr (Or.inr (by rw [hpc]; rfl)))
    · cases hpermits

theorem datagram {event : BindEvent} {relay : BindRelay} (h : Vouched gate g v)
    (hpermits : v.permits event = true) (hstep : v.relay.step event = some relay) :
    Vouched gate g { v with relay } := by
  have hgrants := h.grants_of_permits hpermits
  have hmoves := BindRelay.step_moves hstep
  refine { h with policy := hmoves.policy.trans h.policy, sent := ?_ }
  rcases hmoves.toNetwork with hsame | ⟨kept, hpass⟩ | ⟨entry, -, hallowed, hfill⟩
  · simp only [hsame]
    exact h.sent
  · simp only [hpass]
    exact h.sent.pass kept
  · simp only [hfill]
    exact h.sent.fill ⟨hgrants, h.policy ▸ hallowed⟩

theorem own {act : RelayAct} (h : Vouched gate g v)
    (hstep : BindVisit.advance gate id act g v = some (g', v')) : Vouched gate g' v' := by
  cases act with
  | request a =>
    obtain ⟨⟨g₁, l⟩, hadvance, heq⟩ := Option.map_eq_some_iff.mp hstep
    cases heq
    exact h.request hadvance
  | control act now =>
    obtain ⟨hanswers, hstep⟩ := Option.ite_none_right_eq_some.mp hstep
    obtain ⟨⟨g₁, l⟩, hadvance, heq⟩ := Option.map_eq_some_iff.mp hstep
    cases heq
    exact h.control hanswers hadvance
  | datagram event =>
    obtain ⟨hpermits, hstep⟩ := Option.ite_none_right_eq_some.mp hstep
    obtain ⟨relay, hrelay, heq⟩ := Option.map_eq_some_iff.mp hstep
    cases heq
    exact h.datagram hpermits hrelay

end Vouched

section Runs

variable {gate : RelayGate} {labels : List RelayLabel} {σ : RelaySys}

theorem vouched_run (hpool : gate.Pooled ⟨gate.up.allocator, Table.empty⟩)
    (h : Run (Fires (relayStep gate)) (RelaySys.initial gate) labels σ) (s : SessionId) :
    Vouched gate σ.shared (σ.task s) := by
  refine Tasks.run_keeps_all (J := fun _ g v => Vouched gate g v) ?_ ?_ ?_ h ?_ s
  · intro k act g g' v v' hv hstep
    exact hv.own hstep
  · intro k act g g' v v' i other hne hv hother hstep
    exact { hother with pool := (hv.own hstep).pool }
  · intro d
    exact d.elim
  · intro k
    exact
      { pool := hpool
        unopened := fun _ => rfl
        validated := nofun
        granted := nofun
        owned := by rintro b (hb | hb | hb) <;> cases hb
        held := nofun
        bound := by rintro b (hb | hb | hb) <;> cases hb
        policy := rfl
        sent := Or.inl rfl }

/-- The request of a session is one of the run. -/
theorem arrival_mem (h : Run (Fires (relayStep gate)) (RelaySys.initial gate) labels σ)
    {s : SessionId} {a : BindArrival} (hopened : (σ.task s).opened = some a) :
    .task s (.request a) ∈ labels := by
  have hown : ∀ {k act g g' v v'}, BindVisit.advance gate k act g v = some (g', v') →
      v'.opened = some a → v.opened = some a ∨ act = .request a := by
    intro k act g g' v v' hstep hopened
    cases act with
    | request b =>
      obtain ⟨⟨g₁, l⟩, -, heq⟩ := Option.map_eq_some_iff.mp hstep
      cases heq
      exact Or.inr (congrArg RelayAct.request (Option.some.inj hopened))
    | control act now =>
      obtain ⟨-, hstep⟩ := Option.ite_none_right_eq_some.mp hstep
      obtain ⟨⟨g₁, l⟩, -, heq⟩ := Option.map_eq_some_iff.mp hstep
      cases heq
      exact Or.inl hopened
    | datagram event =>
      obtain ⟨-, hstep⟩ := Option.ite_none_right_eq_some.mp hstep
      obtain ⟨relay, -, heq⟩ := Option.map_eq_some_iff.mp hstep
      cases heq
      exact Or.inl hopened
  obtain ⟨act, hact, hmem⟩ := Tasks.run_origin (Q := fun v => v.opened = some a)
    (R := fun act => act = .request a) hown h nofun hopened
  exact hact ▸ hmem

end Runs

/-! The relay of a configuration -/

/-- The request presents what the configuration asks for: a token or a pair of its lists,
or a certificate. -/
def Config.ProxyConfig.Presented (c : Config.ProxyConfig) (base64 : Base64) (a : BindArrival) :
    Prop :=
  match c.authMode with
  | .none => False
  | .bearer => ∃ token ∈ c.authToken, authorizationValue a.req.headers "Bearer" = some token
  | .basic => ∃ presented user password,
      authorizationValue a.req.headers "Basic" = some presented ∧
      presentedPair base64 presented = some (user, password) ∧
      user ++ ":" ++ password ∈ c.authBasic
  | .mtls => a.peerCert ≠ none

section Served

variable {debug : String → String} {c : Config.ProxyConfig} {up : Startup} {base64 : Base64}
  {sha256 : Bytes → Bytes}

theorem presented_of_authenticate (hstart : c.start debug = .ok up) {a : BindArrival}
    (hmode : c.authMode ≠ .none)
    (h : (⟨base64, sha256, up⟩ : RelayGate).authenticate a = .ok ()) :
    c.Presented base64 a := by
  obtain ⟨-, -, pairs, hpairs, hauth⟩ := Config.ProxyConfig.start_eq_ok hstart
  obtain ⟨context, hcontext⟩ : ∃ context,
      up.auth.authenticate base64 sha256 a.req.headers a.peerCert = .ok context := by
    cases hauthenticate : up.auth.authenticate base64 sha256 a.req.headers a.peerCert with
    | error e => simp [RelayGate.authenticate, hauthenticate, Except.map] at h
    | ok context => exact ⟨context, rfl⟩
  have hup : up.auth.mode = c.authMode := by rw [hauth]
  unfold Config.ProxyConfig.Presented
  cases hc : c.authMode with
  | none => exact absurd hc hmode
  | bearer =>
    obtain ⟨token, hvalue, hmem, -⟩ :=
      (authenticate_bearer_iff base64 sha256 (hup.trans hc)).mp hcontext
    rw [hauth] at hmem
    exact ⟨token, hmem, hvalue⟩
  | basic =>
    obtain ⟨user, password, hpresented, hmem, -⟩ :=
      (authenticate_basic_iff base64 sha256 (hup.trans hc)).mp hcontext
    obtain ⟨presented, hvalue, hpair⟩ := Option.bind_eq_some_iff.mp hpresented
    rw [hauth] at hmem
    exact ⟨presented, user, password, hvalue, hpair, Config.ProxyConfig.mem_basicCredentials hpairs hmem⟩
  | mtls =>
    intro hnone
    simp [Authenticator.authenticate, hup.trans hc, hnone] at hcontext

theorem pooled_start (hstart : c.start debug = .ok up) :
    (⟨base64, sha256, up⟩ : RelayGate).Pooled ⟨up.allocator, Table.empty⟩ := by
  obtain ⟨hallocator, -⟩ := Config.ProxyConfig.start_eq_ok hstart
  intro a ha
  exact ⟨(hallocator a ha).2.1, a, ha, rfl, rfl, rfl⟩

theorem arrival_of_grants (hstart : c.start debug = .ok up) {labels : List RelayLabel}
    {σ : RelaySys} (h : Run (Fires (relayStep ⟨base64, sha256, up⟩))
      (RelaySys.initial ⟨base64, sha256, up⟩) labels σ) {s : SessionId}
    (hgrants : (⟨base64, sha256, up⟩ : RelayGate).Grants (σ.task s).opened) :
    ∃ a, .task s (.request a) ∈ labels ∧ a.req.validateBind = .ok () ∧ c.Presented base64 a := by
  obtain ⟨henabled, a, hopened, hvalid, hok⟩ := hgrants
  obtain ⟨hallocator, -⟩ := Config.ProxyConfig.start_eq_ok hstart
  obtain ⟨allocator, hsome⟩ := Option.ne_none_iff_exists'.mp henabled
  exact ⟨a, arrival_mem h hopened, hvalid,
    presented_of_authenticate hstart (hallocator allocator hsome).1 hok⟩

theorem bound_configured (hstart : c.start debug = .ok up) {addr b : SocketAddr}
    (hoffers : (⟨base64, sha256, up⟩ : RelayGate).Offers addr) (hbound : BoundTo addr b) :
    b.ip ∈ c.udpBindPublicIps ∧
      (c.udpBindPortLo = 0 ∨ c.udpBindPortLo ≤ b.port ∧ b.port ≤ c.udpBindPortHi) := by
  obtain ⟨a, ha, ip, hip, port, hlow, hhigh, rfl⟩ := hoffers
  obtain ⟨-, -, hips, hlo, hhi⟩ := (Config.ProxyConfig.start_eq_ok hstart).1 a ha
  rw [hlo] at hlow
  rw [hhi] at hhigh
  obtain ⟨hbip, hzero | rfl⟩ := hbound
  · rw [SocketAddr.ip_new] at hbip
    rw [SocketAddr.port_new] at hzero
    refine ⟨hips ▸ hbip ▸ hip, Or.inl ?_⟩
    rw [hzero] at hlow
    exact UInt16.le_zero_iff.mp hlow
  · rw [SocketAddr.ip_new, SocketAddr.port_new]
    exact ⟨hips ▸ hip, Or.inr ⟨hlow, hhigh⟩⟩

end Served

/-- 203.0.113.9, port 40000 only, for those who know the token. -/
def testRelayConfig : Config.ProxyConfig :=
  { Config.ProxyConfig.default with
    authMode := .bearer
    authToken := ["beta"]
    udpBind := true
    udpBindPublicIps := [.v4 0xcb007109#32]
    udpBindPortLo := 40000
    udpBindPortHi := 40000 }

def testArrival : BindArrival where
  req := ⟨.connect, some connectUdpProtocol, udpPathPrefix,
    [("connect-udp-bind", Text.asBytes "?1"), ("capsule-protocol", Text.asBytes "?1"),
      ("authorization", Text.asBytes "Bearer beta")]⟩
  peerCert := none

/-- The peer opens a session and sends one byte on a compressed context. -/
def testRelayed : List RelayLabel :=
  let opening : List RelayAct :=
    .request testArrival :: (BindSys.openSession.tail ++ [BindAct.pollRun]).map fun act => .control act 0
  (opening ++ BindRelay.testBound.map RelayAct.datagram).map (Tasks.Label.task BindSys.testId)

end Straw
