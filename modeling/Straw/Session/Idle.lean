import Straw.Session.Ledger
import Straw.Session.Wakeup

/-!
# When the reaper closes a session

`spawn_idle_reaper` looks through the session table at the ticks of an interval and closes
what it finds idle. The runs on the wire are given a clock here: every step that reads the
time reads it there, and the ticker says when the next look is due. How long a silent
session stays follows from how late the runtime may be at a tick.
-/

namespace Straw

open Transition
set_option autoImplicit false

/-! What the steps of the server do to the times in the session table -/

/-- Every session is stored under its own id. -/
def Server.Keyed (srv : Server) : Prop :=
  ∀ t e, srv.sessions.sessions.lookup t = some e → e.id = t

/-- What one step at `now` does to the times in the session table and to the sinks of the
engine, where `heard` is the session whose activity it sees and `enrolled` the one it
registers. -/
structure Signs (now : Nat) (heard enrolled : Option SessionId) (srv srv' : Server) : Prop where
  keyed : srv'.Keyed
  fresh : ∀ t e, heard = some t → srv'.sessions.sessions.lookup t = some e → e.lastActivity = now
  stale : ∀ t e, heard ≠ some t → srv'.sessions.sessions.lookup t = some e →
    ∃ e₀, srv.sessions.sessions.lookup t = some e₀ ∧ e.lastActivity = e₀.lastActivity
  sinks : ∀ t, enrolled ≠ some t → srv'.engine.sessionSinks t ≠ none →
    srv.engine.sessionSinks t ≠ none

namespace Signs

variable {now : Nat} {s : SessionId} {srv srv' : Server}

/-- A step that is no sign of any session. -/
theorem quiet (h : srv.Keyed) (hsessions : srv'.sessions = srv.sessions)
    (hsinks : ∀ t, srv'.engine.sessionSinks t ≠ none → srv.engine.sessionSinks t ≠ none) :
    Signs now none none srv srv' where
  keyed t e he := h t e (by rwa [hsessions] at he)
  fresh t e ht := by cases ht
  stale t e _ he := ⟨e, by rwa [hsessions] at he, rfl⟩
  sinks t _ := hsinks t

theorem still (h : srv.Keyed) (hsessions : srv'.sessions = srv.sessions)
    (hsinks : srv'.engine.sessionSinks = srv.engine.sessionSinks) : Signs now none none srv srv' :=
  quiet h hsessions fun _ hsink => hsinks ▸ hsink

theorem enrol (h : srv.Keyed) (sink : SessionSink) (policy : EgressPolicy) (mtu time : Nat) :
    Signs now none (some s) srv (srv.registerSession s sink policy mtu time) where
  keyed := h
  fresh t e ht := by cases ht
  stale t e _ he := ⟨e, he, rfl⟩
  sinks t ht hsink := by
    have hts : t ≠ s := fun heq => ht (heq ▸ rfl)
    simpa only [Server.registerSession, Table.insert_of_ne _ _ hts] using hsink

theorem amend (h : srv.Keyed) {f : TunnelSession → TunnelSession}
    (hsessions : srv'.sessions.sessions = (srv.sessions.modify s f).sessions)
    (hsinks : srv'.engine.sessionSinks = srv.engine.sessionSinks)
    (hid : ∀ e, (f e).id = e.id) (htime : ∀ e, (f e).lastActivity = e.lastActivity) :
    Signs now none none srv srv' := by
  have hentry : ∀ t e, srv'.sessions.sessions.lookup t = some e →
      ∃ e₀, srv.sessions.sessions.lookup t = some e₀ ∧ e.id = e₀.id ∧
        e.lastActivity = e₀.lastActivity := by
    intro t e he
    rw [hsessions, SessionManager.lookup_modify] at he
    split at he
    · obtain ⟨e₀, he₀, rfl⟩ := Option.map_eq_some_iff.mp he
      exact ⟨e₀, he₀, hid e₀, htime e₀⟩
    · exact ⟨e, he, rfl, rfl⟩
  refine ⟨?_, ?_, ?_, fun t _ hsink => hsinks ▸ hsink⟩
  · intro t e he
    obtain ⟨e₀, he₀, hsame, -⟩ := hentry t e he
    exact hsame.trans (h t e₀ he₀)
  · intro t e ht
    cases ht
  · intro t e _ he
    obtain ⟨e₀, he₀, -, hsame⟩ := hentry t e he
    exact ⟨e₀, he₀, hsame⟩

theorem touch (h : srv.Keyed) (traffic : Traffic) :
    Signs now (some s) none srv { srv with traffic, sessions := srv.sessions.touch s now } := by
  refine ⟨?_, ?_, ?_, fun _ _ hsink => hsink⟩
  · intro t e he
    simp only [SessionManager.touch, SessionManager.lookup_modify] at he
    split at he
    · obtain ⟨e₀, he₀, rfl⟩ := Option.map_eq_some_iff.mp he
      exact h t e₀ he₀
    · exact h t e he
  · intro t e ht he
    obtain rfl := Option.some.inj ht
    simp only [SessionManager.touch, SessionManager.lookup_modify, if_true] at he
    obtain ⟨e₀, -, rfl⟩ := Option.map_eq_some_iff.mp he
    rfl
  · intro t e ht he
    have hts : t ≠ s := fun heq => ht (heq ▸ rfl)
    simp only [SessionManager.touch, SessionManager.lookup_modify, if_neg hts] at he
    exact ⟨e, he, rfl⟩

theorem opening {sessions : SessionManager} {session : TunnelSession} (h : srv.Keyed)
    (hinsert : srv.sessions.insert session = some sessions) (htime : session.lastActivity = now) :
    Signs now (some session.id) none srv { srv with sessions } := by
  obtain rfl := SessionManager.insert_eq_some hinsert
  refine ⟨?_, ?_, ?_, fun _ _ hsink => hsink⟩
  · intro t e he
    by_cases hts : t = session.id
    · rw [hts, AList.lookup_insert] at he
      rw [← Option.some.inj he, hts]
    · rw [AList.lookup_insert_ne hts] at he
      exact h t e he
  · intro t e ht he
    obtain rfl := Option.some.inj ht
    rw [AList.lookup_insert] at he
    rw [← Option.some.inj he, htime]
  · intro t e ht he
    have hts : t ≠ session.id := fun heq => ht (heq ▸ rfl)
    rw [AList.lookup_insert_ne hts] at he
    exact ⟨e, he, rfl⟩

theorem close (h : srv.Keyed) :
    Signs now none none srv { srv with sessions := srv.sessions.remove s } := by
  have hentry : ∀ t e, (srv.sessions.remove s).sessions.lookup t = some e →
      srv.sessions.sessions.lookup t = some e := by
    intro t e he
    rw [SessionManager.lookup_remove] at he
    split at he
    · cases he
    · exact he
  exact ⟨fun t e he => h t e (hentry t e he), (fun t e ht => by cases ht),
    fun t e _ he => ⟨e, hentry t e he, rfl⟩, fun _ _ hsink => hsink⟩

theorem leave (h : srv.Keyed) : Signs now none none srv (srv.unregisterSession s) := by
  refine quiet h rfl ?_
  intro t hsink
  by_cases hts : t = s
  · exact absurd (by simp [Server.unregisterSession, hts]) hsink
  · simpa only [Server.unregisterSession, Table.remove_of_ne _ hts] using hsink

end Signs

namespace Stage

/-- The handler is about to note that it read through what its client had sent. -/
def attends : Stage → Bool
  | capsules _ _ ⟨[], true⟩ => true
  | _ => false

def enrols : Stage → Bool
  | register _ _ => true
  | _ => false

theorem handleCapsule_signs {now : Nat} {s : SessionId} {srv : Server} {t : Tunnel}
    {assigned : List AssignedAddress} {pending : Pending} (capsule : Capsule) (h : srv.Keyed) :
    Signs now none none srv (handleCapsule srv s t assigned pending capsule).1 := by
  cases capsule with
  | addressRequest requests => exact .still h rfl rfl
  | routeAdvertisement ranges =>
    simp only [handleCapsule, Server.adoptRoutes]
    split
    · exact .amend h rfl rfl (fun _ => rfl) fun _ => rfl
    · exact .amend h rfl rfl (fun _ => rfl) fun _ => rfl
  | addressAssign addrs => exact .amend h rfl rfl (fun _ => rfl) fun _ => rfl
  | unknown typeId data => exact .still h rfl rfl

theorem tick_signs {s : SessionId} {ok : Bool} {now : Nat} {srv srv' : Server}
    {stage stage' : Stage} (hstep : stage.tick s ok now srv = some (srv', stage'))
    (h : srv.Keyed) :
    Signs now (if stage.attends then some s else none) (if stage.enrols then some s else none)
      srv srv' := by
  cases tick_cases hstep with
  | register => exact .enrol h _ _ _ _
  | publish | answer => exact .amend h rfl rfl (fun _ => rfl) fun _ => rfl
  | drained => exact .touch h srv.traffic
  | capsule _ _ capsule => exact handleCapsule_signs capsule h
  | unregister => exact .leave h
  | remove => exact .close h
  | _ => exact .still h rfl rfl

end Stage

theorem handle_start_signs {s : SessionId} {connSeq streamId : UInt64} {conn : DatagramConn}
    {routes : List IpAddressRange} {now : Nat} {srv srv' : Server} {stage stage' : Stage}
    (hstep : handle s (.start connSeq streamId conn routes now) srv stage = some (srv', stage'))
    (h : srv.Keyed) :
    Signs now (if (srv.sessions.insert ⟨s, [], routes, [], [], now⟩).isSome then some s else none)
      none srv srv' := by
  cases handle_cases hstep with
  | start _ _ _ _ _ _ hinsert =>
    rw [hinsert]
    exact .opening h hinsert rfl
  | full _ _ _ _ _ _ hinsert =>
    rw [hinsert]
    exact .still h rfl rfl

/-- What ends an iteration of the loop is no sign of its client yet. -/
theorem handle_loop_signs {now : Nat} {s : SessionId} {act : HandlerAct} {srv srv' : Server}
    {stage stage' : Stage} (hstep : handle s act srv stage = some (srv', stage'))
    (hact : (∃ pending, act = .chunk pending) ∨ act = .close ∨ ∃ max, act = .refreshMtu max)
    (h : srv.Keyed) : Signs now none none srv srv' := by
  cases handle_cases hstep with
  | chunk | close => exact .still h rfl rfl
  | refreshMtu =>
    unfold Server.refreshMtu
    split <;> exact .still h rfl rfl
  | _ => simp at hact

/-- The session that the demux forwards a packet of. -/
def Server.forwards (srv : Server) (d : Received) : Option SessionId :=
  match d.toForward with
  | none => none
  | some (s, packet) =>
    match srv.forward s packet d.now with
    | some (.ok _, _) => some s
    | _ => none

theorem Server.demux_signs {srv : Server} (d : Received) (h : srv.Keyed) :
    Signs d.now (srv.forwards d) none srv (srv.demux d) := by
  unfold demux forwards
  cases d.toForward with
  | none => exact .still h rfl rfl
  | some r =>
    obtain ⟨s, packet⟩ := r
    cases hforward : srv.forward s packet d.now with
    | none =>
      simp only [hforward]
      exact .still h rfl rfl
    | some r =>
      obtain ⟨outcome, traffic⟩ := r
      cases outcome with
      | ok forwarded =>
        simp only [hforward]
        exact .touch h traffic
      | error e =>
        simp only [hforward]
        exact .still h rfl rfl

namespace LinkSys

/-- The session whose activity a step sees: its request is accepted, what it sent on the
stream is read through, or a packet of it is forwarded. -/
def hears (σ : LinkSys) : LinkLabel → Option SessionId
  | .task s (.start _ _ _ routes now) =>
    if (σ.shared.server.sessions.insert ⟨s, [], routes.val, [], [], now⟩).isSome then some s else none
  | .task s (.tick _ _) => if (σ.task s).stage.attends then some s else none
  | .env (.datagram d) => σ.shared.server.forwards d
  | _ => none

def enrols (σ : LinkSys) : LinkLabel → Option SessionId
  | .task s (.tick _ _) => if (σ.task s).stage.enrols then some s else none
  | _ => none

end LinkSys

namespace LinkLabel

/-- The time that a step reads. -/
def stamp : LinkLabel → Option Nat
  | .task _ (.start _ _ _ _ now) => some now
  | .task _ (.tick _ now) => some now
  | .env (.datagram d) => some d.now
  | .env (.scan now) => some now
  | _ => none

def isScan : LinkLabel → Bool
  | .env (.scan _) => true
  | _ => false

end LinkLabel

theorem Stage.outgoing_idles {stage : Stage} {capsule : Capsule} (h : stage.outgoing = some capsule) :
    stage.attends = false ∧ stage.enrols = false := by
  cases stage with
  | sendAssign | sendRoutes | reply => exact ⟨rfl, rfl⟩
  | _ => cases h

theorem linkStep_signs {σ τ : LinkSys} {label : LinkLabel} {now : Nat}
    (hstep : Fires linkStep σ label τ) (hnow : ∀ t ∈ label.stamp, t = now)
    (h : σ.shared.server.Keyed) :
    Signs now (σ.hears label) (σ.enrols label) σ.shared.server τ.shared.server := by
  cases label with
  | task s act =>
    obtain ⟨⟨hub, link⟩, hact, rfl⟩ := Option.map_eq_some_iff.mp hstep
    cases (Link.handle_effect hact).2 with
    | start hstart =>
      obtain rfl := hnow _ rfl
      exact handle_start_signs hstart h
    | tick _ _ htick =>
      obtain rfl := hnow _ rfl
      exact Stage.tick_signs htick h
    | send _ _ _ htick =>
      obtain rfl := hnow _ rfl
      exact Stage.tick_signs htick h
    | unwind _ hout =>
      obtain ⟨hattends, henrols⟩ := Stage.outgoing_idles hout
      simp only [LinkSys.hears, LinkSys.enrols, hattends, henrols]
      exact .still h rfl rfl
    | enter => exact .still h rfl rfl
    | recv _ hloop => exact handle_loop_signs hloop (Or.inl ⟨_, rfl⟩) h
    | finish _ hloop => exact handle_loop_signs hloop (Or.inr (Or.inl rfl)) h
    | notified _ _ hloop => exact handle_loop_signs hloop (Or.inr (Or.inl rfl)) h
    | refreshMtu _ hloop => exact handle_loop_signs hloop (Or.inr (Or.inr ⟨_, rfl⟩)) h
  | env act =>
    obtain ⟨hub, hact, rfl⟩ := Option.map_eq_some_iff.mp hstep
    cases act with
    | datagram d =>
      obtain rfl := Option.some.inj hact
      obtain rfl := hnow _ rfl
      exact Server.demux_signs d h
    | scan time =>
      simp only [Hub.background] at hact
      split at hact
      · obtain rfl := Option.some.inj hact
        exact .still h rfl rfl
      · cases hact
    | reap =>
      simp only [Hub.background] at hact
      split at hact
      · cases hact
      · rename_i s rest _
        obtain rfl := Option.some.inj hact
        simp only [Hub.unregisterSession_server]
        exact .leave h

/-! What the steps do to the worklist of the reaper -/

theorem Stage.signal_reaper (stage : Stage) (s : SessionId) (hub : Hub) :
    (stage.signal s hub).sessionIdleTimeout = hub.sessionIdleTimeout ∧
      (stage.signal s hub).idle = hub.idle := by
  cases stage with
  | unregister =>
    simp only [signal, Hub.notifyWaiters]
    split <;> exact ⟨rfl, rfl⟩
  | _ => exact ⟨rfl, rfl⟩

/-- The reaper alone works on its list. -/
inductive IdleMove (hub hub' : Hub) : LinkLabel → Prop where
  | keep {label : LinkLabel} : label.isScan = false → hub'.idle = hub.idle → IdleMove hub hub' label
  | scan {now : Nat} : hub.idle = [] → hub'.server = hub.server →
      hub'.idle = hub.server.sessions.idleSessions hub.sessionIdleTimeout now →
      IdleMove hub hub' (.env (.scan now))
  | reap {s : SessionId} : hub.idle = s :: hub'.idle → hub'.server.engine.sessionSinks s = none →
      IdleMove hub hub' (.env .reap)

theorem linkStep_idle {σ τ : LinkSys} {label : LinkLabel} (hstep : Fires linkStep σ label τ) :
    τ.shared.sessionIdleTimeout = σ.shared.sessionIdleTimeout ∧
      IdleMove σ.shared τ.shared label := by
  cases label with
  | task s act =>
    obtain ⟨⟨hub, link⟩, hact, rfl⟩ := Option.map_eq_some_iff.mp hstep
    cases (Link.handle_effect hact).2 with
    | tick =>
      obtain ⟨htimeout, hidle⟩ := Stage.signal_reaper _ _ _
      exact ⟨htimeout, .keep rfl hidle⟩
    | _ => exact ⟨rfl, .keep rfl rfl⟩
  | env act =>
    obtain ⟨hub, hact, rfl⟩ := Option.map_eq_some_iff.mp hstep
    cases act with
    | datagram d =>
      obtain rfl := Option.some.inj hact
      exact ⟨rfl, .keep rfl rfl⟩
    | scan now =>
      simp only [Hub.background] at hact
      split at hact
      · rename_i timeout htimeout hidle
        obtain rfl := Option.some.inj hact
        exact ⟨rfl, .scan hidle rfl (by rw [htimeout])⟩
      · cases hact
    | reap =>
      simp only [Hub.background] at hact
      split at hact
      · cases hact
      · rename_i s rest hidle
        obtain rfl := Option.some.inj hact
        refine ⟨(Stage.signal_reaper .unregister s _).1, .reap hidle ?_⟩
        simp only [Hub.unregisterSession_server, Server.unregisterSession, Table.remove_self]

/-! The clock -/

/-- `spawn_idle_reaper`: half the timeout, but at least 250 ms and at most 30 s, in
nanoseconds. -/
def reaperInterval (timeout : Nat) : Nat := max 250000000 (min (timeout / 2) 30000000000)

structure Timeline where
  sys : LinkSys
  clock : Nat
  /-- The deadline of the reaper's ticker. -/
  due : Nat
  /-- When the reaper last looked. -/
  scanned : Nat
  /-- When the server saw activity of a session. -/
  heard : SessionId → List Nat
  /-- When a session was last registered at the engine. -/
  enrolled : SessionId → Nat

inductive TimedAct where
  /-- A step, with the deadline it leaves to the ticker. -/
  | act (label : LinkLabel) (next : Nat)
  | pass (d : Nat)

namespace Timeline

/-- The ticker's first tick is due at once. -/
def start (sys : LinkSys) (now : Nat) : Timeline := ⟨sys, now, now, now, fun _ => [], fun _ => 0⟩

/-- The deadline after a step, where `look` says whether the reaper looked. With
`MissedTickBehavior::Delay` a tick that is more than 5 ms late puts the next one an interval
after itself. Any other leaves it an interval after the deadline it kept. -/
def Ticks (interval : Nat) (σ : Timeline) (next : Nat) : (look : Bool) → Prop
  | true => σ.due ≤ σ.clock ∧ σ.due + interval ≤ next ∧ next ≤ σ.clock + interval
  | false => next = σ.due

instance (interval : Nat) (σ : Timeline) (next : Nat) :
    (look : Bool) → Decidable (σ.Ticks interval next look)
  | true => inferInstanceAs (Decidable (_ ∧ _ ∧ _))
  | false => inferInstanceAs (Decidable (_ = _))

/-- A step reads the clock, and the reaper waits for its ticker. -/
def Allows (interval : Nat) (σ : Timeline) (label : LinkLabel) (next : Nat) : Prop :=
  (∀ t ∈ label.stamp, t = σ.clock) ∧ σ.Ticks interval next label.isScan

instance (interval : Nat) (σ : Timeline) (label : LinkLabel) (next : Nat) :
    Decidable (σ.Allows interval label next) :=
  inferInstanceAs (Decidable (_ ∧ _))

def after (σ : Timeline) (label : LinkLabel) (next : Nat) (sys : LinkSys) : Timeline where
  sys
  clock := σ.clock
  due := next
  scanned := if label.isScan then σ.clock else σ.scanned
  heard s := if σ.sys.hears label = some s then σ.clock :: σ.heard s else σ.heard s
  enrolled s := if σ.sys.enrols label = some s then σ.clock else σ.enrolled s

@[simp] theorem after_sys (σ : Timeline) (label : LinkLabel) (next : Nat) (sys : LinkSys) :
    (σ.after label next sys).sys = sys := rfl

def step (interval : Nat) (σ : Timeline) : TimedAct → Option Timeline
  | .act label next =>
    if σ.Allows interval label next then (linkStep σ.sys label).map (σ.after label next) else none
  | .pass d => some { σ with clock := σ.clock + d }

/-- The runtime is never more than `delay` late: at a tick that is due, and at the end of
the loop over the sessions that were found idle. -/
def Prompt (delay : Nat) (σ : Timeline) : TimedAct → Prop
  | .act .. => True
  | .pass d =>
    σ.clock + d ≤ σ.due + delay ∧
      (σ.sys.shared.idle ≠ [] → σ.clock + d ≤ σ.scanned + delay)

instance (delay : Nat) (σ : Timeline) (act : TimedAct) : Decidable (Prompt delay σ act) :=
  match act with
  | .act .. => .isTrue trivial
  | .pass _ => inferInstanceAs (Decidable (_ ∧ (_ → _)))

/-- From then on the next look of the reaper finds the session, unless it is heard again. -/
def ripe (timeout : Nat) (σ : Timeline) (s : SessionId) (e : TunnelSession) : Nat :=
  max (σ.enrolled s) (e.lastActivity + timeout)

structure Reaping (timeout interval delay : Nat) (σ : Timeline) : Prop where
  timeout_eq : σ.sys.shared.sessionIdleTimeout = timeout
  keyed : σ.sys.shared.server.Keyed
  past : ∀ s, ∀ a ∈ σ.heard s, a ≤ σ.clock
  latest : ∀ s e, σ.sys.shared.server.sessions.sessions.lookup s = some e →
    e.lastActivity ∈ σ.heard s ∧ ∀ a ∈ σ.heard s, a ≤ e.lastActivity
  soon : σ.due ≤ σ.clock + interval
  looked : σ.scanned ≤ σ.clock
  punctual : σ.clock ≤ σ.due + delay
  brisk : σ.sys.shared.idle ≠ [] → σ.clock ≤ σ.scanned + delay
  spared : ∀ s ∈ σ.sys.shared.idle, ∀ a ∈ σ.heard s, a < σ.scanned → a + timeout < σ.scanned
  waiting : ∀ s e, σ.sys.shared.server.engine.sessionSinks s ≠ none →
    σ.sys.shared.server.sessions.sessions.lookup s = some e → s ∉ σ.sys.shared.idle →
      σ.due ≤ σ.ripe timeout s e + interval
  listed : ∀ s e, σ.sys.shared.server.engine.sessionSinks s ≠ none →
    σ.sys.shared.server.sessions.sessions.lookup s = some e → s ∈ σ.sys.shared.idle →
      σ.scanned ≤ σ.ripe timeout s e + interval + delay

theorem mem_idleSessions {m : SessionManager} (hkeyed : ∀ t e, m.sessions.lookup t = some e → e.id = t)
    {maxIdle now : Nat} {s : SessionId} :
    s ∈ m.idleSessions maxIdle now ↔
      ∃ e, m.sessions.lookup s = some e ∧ e.lastActivity + maxIdle < now := by
  simp only [SessionManager.idleSessions, List.mem_map, List.mem_filter, decide_eq_true_eq,
    Nat.lt_sub_iff_add_lt']
  constructor
  · rintro ⟨⟨t, e⟩, ⟨hmem, hlt⟩, rfl⟩
    have he : m.sessions.lookup t = some e := AList.mem_lookup_iff.mpr hmem
    exact ⟨e, (hkeyed t e he).symm ▸ he, hlt⟩
  · rintro ⟨e, he, hlt⟩
    exact ⟨⟨s, e⟩, ⟨AList.mem_lookup_iff.mp he, hlt⟩, hkeyed s e he⟩

section Steps

variable {timeout interval delay next : Nat} {σ : Timeline} {label : LinkLabel} {sys : LinkSys}

theorem Reaping.pass (h : σ.Reaping timeout interval delay) {d : Nat}
    (hprompt : Prompt delay σ (.pass d)) :
    Reaping timeout interval delay { σ with clock := σ.clock + d } where
  timeout_eq := h.timeout_eq
  keyed := h.keyed
  past s a ha := (h.past s a ha).trans (Nat.le_add_right _ _)
  latest := h.latest
  soon := h.soon.trans (by simp only; omega)
  looked := h.looked.trans (Nat.le_add_right _ _)
  punctual := hprompt.1
  brisk := hprompt.2
  spared := h.spared
  waiting := h.waiting
  listed := h.listed

/-- What the engine and the table have of a session after a step, they had before it,
unless the session gave a sign just now. -/
theorem ripe_after (h : Signs σ.clock (σ.sys.hears label) (σ.sys.enrols label)
      σ.sys.shared.server sys.shared.server) {s : SessionId} {e : TunnelSession}
    (hsink : sys.shared.server.engine.sessionSinks s ≠ none)
    (he : sys.shared.server.sessions.sessions.lookup s = some e) :
    σ.clock ≤ (σ.after label next sys).ripe timeout s e ∨
      ∃ e₀, σ.sys.shared.server.engine.sessionSinks s ≠ none ∧
        σ.sys.shared.server.sessions.sessions.lookup s = some e₀ ∧
        (σ.after label next sys).ripe timeout s e = σ.ripe timeout s e₀ := by
  by_cases henrols : σ.sys.enrols label = some s
  · refine Or.inl (le_max_of_le_left ?_)
    simp only [after, if_pos henrols, le_refl]
  · by_cases hhears : σ.sys.hears label = some s
    · refine Or.inl (le_max_of_le_right ?_)
      rw [h.fresh s e hhears he]
      exact Nat.le_add_right _ _
    · obtain ⟨e₀, he₀, hsame⟩ := h.stale s e hhears he
      refine Or.inr ⟨e₀, h.sinks s henrols hsink, he₀, ?_⟩
      simp only [ripe, after, if_neg henrols, hsame]

theorem Reaping.past_after (h : σ.Reaping timeout interval delay) (s : SessionId) :
    ∀ a ∈ (σ.after label next sys).heard s, a ≤ σ.clock := by
  intro a ha
  simp only [after] at ha
  split at ha
  · rcases List.mem_cons.mp ha with rfl | hmem
    · exact Nat.le_refl _
    · exact h.past s a hmem
  · exact h.past s a ha

theorem Reaping.latest_after (h : σ.Reaping timeout interval delay)
    (hsigns : Signs σ.clock (σ.sys.hears label) (σ.sys.enrols label)
      σ.sys.shared.server sys.shared.server) {s : SessionId} {e : TunnelSession}
    (he : sys.shared.server.sessions.sessions.lookup s = some e) :
    e.lastActivity ∈ (σ.after label next sys).heard s ∧
      ∀ a ∈ (σ.after label next sys).heard s, a ≤ e.lastActivity := by
  by_cases hhears : σ.sys.hears label = some s
  · have hnow : e.lastActivity = σ.clock := hsigns.fresh s e hhears he
    refine ⟨?_, hnow ▸ h.past_after s⟩
    simp only [after, if_pos hhears, hnow, List.mem_cons_self]
  · obtain ⟨e₀, he₀, hsame⟩ := hsigns.stale s e hhears he
    simp only [after, if_neg hhears, hsame]
    exact h.latest s e₀ he₀

/-- Signs that come after the reaper looked do not count against what it found. -/
theorem Reaping.spared_after (h : σ.Reaping timeout interval delay) {s : SessionId}
    (hmem : s ∈ σ.sys.shared.idle) :
    ∀ a ∈ (σ.after label next sys).heard s, a < σ.scanned → a + timeout < σ.scanned := by
  intro a ha hlt
  simp only [after] at ha
  split at ha
  · rcases List.mem_cons.mp ha with rfl | hmem'
    · exact absurd h.looked (Nat.not_le.mpr hlt)
    · exact h.spared s hmem a hmem' hlt
  · exact h.spared s hmem a ha hlt

/-- A step of the server that is no look of the reaper. -/
theorem Reaping.other (h : σ.Reaping timeout interval delay)
    (hsigns : Signs σ.clock (σ.sys.hears label) (σ.sys.enrols label)
      σ.sys.shared.server sys.shared.server)
    (htimeout : sys.shared.sessionIdleTimeout = σ.sys.shared.sessionIdleTimeout)
    (hscan : label.isScan = false) (hticks : σ.Ticks interval next label.isScan)
    (hsub : ∀ s ∈ sys.shared.idle, s ∈ σ.sys.shared.idle)
    (hgone : ∀ s, sys.shared.server.engine.sessionSinks s ≠ none → s ∈ σ.sys.shared.idle →
      s ∈ sys.shared.idle) :
    Reaping timeout interval delay (σ.after label next sys) := by
  have hdue : (σ.after label next sys).due = σ.due := by
    rw [hscan] at hticks
    exact hticks
  have hscanned : (σ.after label next sys).scanned = σ.scanned := by simp [after, hscan]
  refine ⟨htimeout.trans h.timeout_eq, hsigns.keyed, h.past_after, fun s e => h.latest_after hsigns,
    hdue ▸ h.soon, hscanned ▸ h.looked, hdue ▸ h.punctual, ?_, ?_, ?_, ?_⟩
  · intro hne
    obtain ⟨s, hs⟩ := List.exists_mem_of_ne_nil _ hne
    rw [hscanned]
    exact h.brisk (List.ne_nil_of_mem (hsub s hs))
  · intro s hs
    rw [hscanned]
    exact h.spared_after (hsub s hs)
  · intro s e hsink he hidle
    rw [hdue]
    rcases @ripe_after timeout next σ label sys hsigns s e hsink he with
      hnow | ⟨e₀, hsink₀, he₀, hsame⟩
    · exact h.soon.trans (Nat.add_le_add_right hnow interval)
    · rw [hsame]
      exact h.waiting s e₀ hsink₀ he₀ fun hmem => hidle (hgone s hsink hmem)
  · intro s e hsink he hidle
    rw [hscanned]
    rcases @ripe_after timeout next σ label sys hsigns s e hsink he with
      hnow | ⟨e₀, hsink₀, he₀, hsame⟩
    · have hlooked := h.looked
      omega
    · rw [hsame]
      exact h.listed s e₀ hsink₀ he₀ (hsub s hidle)

/-- A look of the reaper takes up every session that is ripe. -/
theorem Reaping.look (h : σ.Reaping timeout interval delay) {now : Nat}
    (hserver : sys.shared.server = σ.sys.shared.server)
    (htimeout : sys.shared.sessionIdleTimeout = σ.sys.shared.sessionIdleTimeout)
    (hnow : now = σ.clock) (hticks : σ.Ticks interval next true) (hnil : σ.sys.shared.idle = [])
    (hidle : sys.shared.idle =
      σ.sys.shared.server.sessions.idleSessions σ.sys.shared.sessionIdleTimeout now) :
    Reaping timeout interval delay (σ.after (.env (.scan now)) next sys) := by
  subst hnow
  obtain ⟨-, hlater, hsoon⟩ := hticks
  have hpunctual := h.punctual
  rw [h.timeout_eq] at hidle
  have hmem : ∀ s, s ∈ sys.shared.idle ↔
      ∃ e, σ.sys.shared.server.sessions.sessions.lookup s = some e ∧
        e.lastActivity + timeout < σ.clock := by
    intro s
    rw [hidle]
    exact mem_idleSessions h.keyed
  refine ⟨htimeout.trans h.timeout_eq, hserver ▸ h.keyed, h.past, hserver ▸ h.latest,
    hsoon, le_refl _, ?_, fun _ => Nat.le_add_right _ _, ?_, ?_, ?_⟩
  · change σ.clock ≤ next + delay
    omega
  · intro s hs a ha _
    obtain ⟨e, he, hlt⟩ := (hmem s).mp hs
    exact Nat.lt_of_le_of_lt (Nat.add_le_add_right ((h.latest s e he).2 a ha) timeout) hlt
  · intro s e _ he hnot
    simp only [after_sys, hserver] at he
    have hyoung : σ.clock ≤ e.lastActivity + timeout := by
      by_contra hlt
      exact hnot ((hmem s).mpr ⟨e, he, Nat.not_le.mp hlt⟩)
    exact hsoon.trans (Nat.add_le_add_right (le_max_of_le_right hyoung) interval)
  · intro s e hsink he _
    simp only [after_sys, hserver] at hsink he
    have hdue := h.waiting s e hsink he (by simp [hnil])
    exact hpunctual.trans (Nat.add_le_add_right hdue delay)

theorem Reaping.act (h : σ.Reaping timeout interval delay) (hallows : σ.Allows interval label next)
    (hstep : Fires linkStep σ.sys label sys) :
    Reaping timeout interval delay (σ.after label next sys) := by
  have hsigns := linkStep_signs hstep hallows.1 h.keyed
  obtain ⟨htimeout, hmove⟩ := linkStep_idle hstep
  cases hmove with
  | keep hscan hidle =>
    exact h.other hsigns htimeout hscan hallows.2 (fun s hs => hidle ▸ hs) fun s _ hs => hidle ▸ hs
  | @scan now hnil hserver hidle =>
    exact h.look hserver htimeout (hallows.1 now rfl) hallows.2 hnil hidle
  | @reap s hidle hnone =>
    refine h.other hsigns htimeout rfl hallows.2 (fun t ht => hidle ▸ List.mem_cons_of_mem s ht) ?_
    intro t hsink ht
    rw [hidle] at ht
    rcases List.mem_cons.mp ht with rfl | hmem
    · exact absurd hnone hsink
    · exact hmem

theorem Reaping.step (h : σ.Reaping timeout interval delay) {act : TimedAct} {τ : Timeline}
    (hprompt : Prompt delay σ act) (hstep : Fires (step interval) σ act τ) :
    Reaping timeout interval delay τ := by
  cases act with
  | act label next =>
    simp only [Fires, Timeline.step] at hstep
    split at hstep
    · rename_i hallows
      obtain ⟨sys, hsys, rfl⟩ := Option.map_eq_some_iff.mp hstep
      exact h.act hallows hsys
    · cases hstep
  | pass d =>
    obtain rfl := Option.some.inj hstep
    exact h.pass hprompt

end Steps

end Timeline

section Runs

variable {config : ProxyConfig} {ipv4 : Ipv4Net} {ipv6 : Option Ipv6Net}
  {tunTx : Option (Bytes → Bool)} {icmpSource : IcmpSource} {limits : RateLimits}
  {maxSessions : Nat}

theorem Timeline.reaping_start (timeout interval delay now : Nat) :
    Reaping timeout interval delay
      (start (Hub.initial config ipv4 ipv6 tunTx icmpSource limits maxSessions timeout) now) where
  timeout_eq := rfl
  keyed t e he := by cases he
  past s a ha := by cases ha
  latest s e he := by cases he
  soon := Nat.le_add_right _ _
  looked := le_refl _
  punctual := Nat.le_add_right _ _
  brisk hne := absurd rfl hne
  spared s hs := by cases hs
  waiting s e _ he := by cases he
  listed s e _ he := by cases he

theorem Timeline.run_sys {interval delay : Nat} {acts : List TimedAct} {σ τ : Timeline}
    (h : Run (Guarded (Prompt delay) (Fires (step interval))) σ acts τ) :
    ∃ labels, Run (Fires linkStep) σ.sys labels τ.sys := by
  refine h.image ?_
  intro σ act τ hstep
  cases act with
  | act label next =>
    have hfires := hstep.2
    simp only [Fires, step] at hfires
    split at hfires
    · obtain ⟨sys, hsys, rfl⟩ := Option.map_eq_some_iff.mp hfires
      exact Or.inr ⟨label, hsys⟩
    · cases hfires
  | pass d =>
    obtain rfl := Option.some.inj hstep.2
    exact Or.inl rfl

theorem Stage.phase_of_registered {stage : Stage} (h : stage.registered = true) :
    stage.phase ≠ .idle := by
  cases stage with
  | idle => cases h
  | _ => simp [phase]

/-- A session with a sink is in the session table. -/
theorem exists_entry {timeout : Nat} {labels : List LinkLabel} {σ : LinkSys}
    (h : Run (Fires linkStep)
      (Hub.initial config ipv4 ipv6 tunTx icmpSource limits maxSessions timeout) labels σ)
    {s : SessionId} (hsink : σ.shared.server.engine.sessionSinks s ≠ none) :
    ∃ e, σ.shared.server.sessions.sessions.lookup s = some e := by
  obtain ⟨labels', hserver⟩ := run_server h
  have hledger : Ledger s σ.shared.server (σ.task s).stage.facts := ledger_run hserver s
  have hregistered : (σ.task s).stage.registered = true := by
    by_contra hnot
    exact hsink (hledger.engine (Bool.not_eq_true _ ▸ hnot)).1
  exact Option.isSome_iff_exists.mp (hledger.present (Stage.phase_of_registered hregistered))

/-- With a timeout of at least a second the reaper looks at least once in it. -/
theorem reaperInterval_le {sec : Nat} (h : 0 < sec) :
    reaperInterval (sec * 1000000000) ≤ min (sec * 1000000000) 30000000000 := by
  unfold reaperInterval
  omega

/-- The reaper takes up no session that was heard from within the timeout before it looked.
And a session stays at the engine only while it is heard from: after its last sign of
life, and after its registration, the server keeps it for the timeout, one interval of the
ticker and what the runtime is late. -/
theorem idle_session_window {delay now : Nat} (sec : Nat) (hsec : 0 < sec) {acts : List TimedAct}
    {σ : Timeline}
    (h : Run (Guarded (Timeline.Prompt delay)
        (Fires (Timeline.step (reaperInterval (sec * 1000000000)))))
      (.start (Hub.initial config ipv4 ipv6 tunTx icmpSource limits maxSessions
        (sec * 1000000000)) now) acts σ) :
    (∀ s ∈ σ.sys.shared.idle, ∀ a ∈ σ.heard s, a < σ.scanned →
      a + sec * 1000000000 < σ.scanned) ∧
    ∀ s, σ.sys.shared.server.engine.sessionSinks s ≠ none →
      ∃ a ∈ σ.heard s, (∀ b ∈ σ.heard s, b ≤ a) ∧
        σ.clock ≤ max (σ.enrolled s) (a + sec * 1000000000) +
          min (sec * 1000000000) 30000000000 + 2 * delay := by
  have hreaping : σ.Reaping (sec * 1000000000) (reaperInterval (sec * 1000000000)) delay := by
    refine h.invariant _ ?_ (Timeline.reaping_start _ _ _ now)
    intro σ act τ hσ hstep
    exact hσ.step hstep.1 hstep.2
  refine ⟨hreaping.spared, ?_⟩
  intro s hsink
  obtain ⟨labels, hlabels⟩ := Timeline.run_sys h
  obtain ⟨e, he⟩ := exists_entry hlabels hsink
  obtain ⟨hheard, hlast⟩ := hreaping.latest s e he
  refine ⟨e.lastActivity, hheard, hlast, ?_⟩
  have hinterval := reaperInterval_le hsec
  by_cases hidle : s ∈ σ.sys.shared.idle
  · have hlisted := hreaping.listed s e hsink he hidle
    have hbrisk := hreaping.brisk (List.ne_nil_of_mem hidle)
    simp only [Timeline.ripe] at hlisted
    omega
  · have hwaiting := hreaping.waiting s e hsink he hidle
    have hpunctual := hreaping.punctual
    simp only [Timeline.ripe] at hwaiting
    omega

end Runs

/-- A server with a timeout of one second. -/
def testTimeline : Timeline :=
  .start (Hub.initial ⟨1400, false, fun _ _ => []⟩ AddressPool.testNet none none
    ⟨0x0a640001#32, none⟩ ⟨0, 0⟩ 0 1000000000) 0

/-- A tunnel is accepted and its client is silent from then on. The second look of the reaper
is 2 ms late and the third is not put off by it. It comes too early, and the fourth finds the
session. -/
def testSilence : List TimedAct :=
  .act (.env (.scan 0)) 500000000 :: (acceptTunnel 0).map (TimedAct.act · 500000000) ++
    [.pass 502000000, .act (.env (.scan 502000000)) 1000000000, .pass 498000000,
      .act (.env (.scan 1000000000)) 1500000000, .pass 500000000,
      .act (.env (.scan 1500000000)) 2000000000]

theorem idle_session_window_one_second :
    ∃ σ, Run (Guarded (Timeline.Prompt 2000000) (Fires (Timeline.step (reaperInterval 1000000000))))
        testTimeline testSilence σ ∧
      σ.sys.shared.idle = [⟨0⟩] ∧
      (∀ a ∈ σ.heard ⟨0⟩, a < σ.scanned → a + 1000000000 < σ.scanned) ∧
      ∃ a ∈ σ.heard ⟨0⟩, (∀ b ∈ σ.heard ⟨0⟩, b ≤ a) ∧
        σ.clock ≤ max (σ.enrolled ⟨0⟩) (a + 1000000000) + 1000000000 + 4000000 := by
  have hexec : (exec (restrict (Timeline.Prompt 2000000)
      (Timeline.step (reaperInterval 1000000000))) testTimeline testSilence).map
        (fun σ => (σ.sys.shared.idle, (σ.sys.shared.server.engine.sessionSinks ⟨0⟩).isSome)) =
      some ([⟨0⟩], true) := by decide +kernel
  obtain ⟨σ, hσ, hview⟩ := Option.map_eq_some_iff.mp hexec
  obtain ⟨hidle, hsink⟩ := Prod.mk.inj hview
  have hrun := guarded_run_of_exec hσ
  obtain ⟨hspared, hkept⟩ := idle_session_window 1 Nat.one_pos hrun
  exact ⟨σ, hrun, hidle, hspared ⟨0⟩ (hidle ▸ List.mem_singleton_self _),
    hkept ⟨0⟩ (Option.isSome_iff_ne_none.mp hsink)⟩

end Straw
