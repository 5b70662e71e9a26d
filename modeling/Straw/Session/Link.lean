import Straw.Capsule.Encode
import Straw.Session.Handler

/-!
# Session handlers on the wire

The session tasks with what they exchange with the outside: the bytes of the request
stream in both directions, the `Notify` through which a session is told that it was
unregistered, and the idle reaper with its worklist. A handler waits in its select only
after it has entered it, and every branch but the last drops the future it waited on.
-/

namespace Straw

open Transition Outcome
set_option autoImplicit false

/-- The server with the engine's `session_notify` and the reaper. The `Notify` objects are
numbered; each counts the calls of `notify_waiters`, and a future is woken by the calls
made since it was created. -/
structure Hub where
  server : Server
  sessionNotify : Table SessionId Nat
  created : Nat
  notifyCalls : Nat → Nat
  /-- Zero when no reaper runs. -/
  sessionIdleTimeout : Nat
  /-- Sessions found idle that the reaper has still to unregister. -/
  idle : List SessionId

structure Link where
  stage : Stage
  /-- The handler's own `Notify`. -/
  closed : Nat
  /-- While the handler is in its select: the calls seen by the `notified()` future. -/
  future : Option Nat
  capsules : CapsuleBuffer
  /-- The capsules sent on the request stream. -/
  sent : List Bytes
  panicked : Bool

namespace Hub

def withServer (hub : Hub) (server : Server) : Hub := { hub with server }

def notify (hub : Hub) (s : SessionId) : Hub :=
  { hub with sessionNotify := hub.sessionNotify.insert s hub.created, created := hub.created + 1 }

/-- The last part of `unregister_session`: drop the `Notify` and wake its waiters. -/
def notifyWaiters (hub : Hub) (s : SessionId) : Hub :=
  match hub.sessionNotify s with
  | none => hub
  | some n =>
    { hub with
      sessionNotify := hub.sessionNotify.remove s
      notifyCalls := Function.update hub.notifyCalls n (hub.notifyCalls n + 1) }

def unregisterSession (hub : Hub) (s : SessionId) : Hub :=
  (hub.withServer (hub.server.unregisterSession s)).notifyWaiters s

end Hub

namespace Stage

/-- The capsule that the stage awaits the sending of. -/
def outgoing : Stage → Option Capsule
  | sendAssign _ assigned => some (.addressAssign assigned)
  | sendRoutes t _ => some (.routeAdvertisement t.routes)
  | reply _ assigned _ => some (.addressAssign assigned)
  | _ => none

def signal (s : SessionId) (hub : Hub) : Stage → Hub
  | register _ _ => hub.notify s
  | unregister => hub.notifyWaiters s
  | _ => hub

end Stage

namespace Link

def idle : Link := ⟨.idle, 0, none, .new, [], false⟩

/-- What a step of the handler sets besides the stage: the `Notify` of `register_session`,
and the buffer made for the loop. -/
def keep (link : Link) (hub : Hub) : Link :=
  match link.stage with
  | .register _ _ => { link with closed := hub.created }
  | .publish _ _ => { link with capsules := .new }
  | _ => link

def tick (s : SessionId) (ok : Bool) (now : Nat) (hub : Hub) (link : Link) : Option (Hub × Link) :=
  match link.stage.outgoing with
  | none =>
    (link.stage.tick s ok now hub.server).map fun r =>
      ((link.stage.signal s hub).withServer r.1, { link.keep hub with stage := r.2 })
  | some capsule =>
    match (encodeCapsule capsule : Outcome ProxyError Bytes) with
    | .error _ => some (hub, { link with panicked := true })
    | .ok bytes =>
      (link.stage.tick s ok now hub.server).map fun r =>
        (hub.withServer r.1,
          { link with stage := r.2, sent := if ok then link.sent ++ [bytes] else link.sent })

/-- One branch of the select: its future is dropped. -/
def leave (s : SessionId) (act : HandlerAct) (hub : Hub) (link : Link) : Option (Hub × Link) :=
  (handle s act hub.server link.stage).map fun r =>
    (hub.withServer r.1, { link with stage := r.2, future := none })

end Link

/-- What the resolution of the advertised routes returns. -/
abbrev AdvertisedRoutes := { routes : List IpAddressRange // ∀ r ∈ routes, r.WellFormed }

inductive LinkAct where
  | start (connSeq streamId : UInt64) (conn : DatagramConn) (routes : AdvertisedRoutes) (now : Nat)
  | tick (ok : Bool) (now : Nat)
  /-- The head of the loop: the select is entered and its futures are created. -/
  | enter
  | recv (chunk : Bytes)
  /-- The stream ends or fails. -/
  | finish
  | notified
  | refreshMtu (maxDatagramSize : Option Nat)

namespace Link

def handle (s : SessionId) (act : LinkAct) (hub : Hub) (link : Link) : Option (Hub × Link) :=
  if link.panicked then none
  else
    match act, link.future with
    | .start connSeq streamId conn routes now, none =>
      (Straw.handle s (.start connSeq streamId conn routes.val now) hub.server link.stage).map fun r =>
        (hub.withServer r.1, { idle with stage := r.2 })
    | .tick ok now, none => link.tick s ok now hub
    | .enter, none =>
      match link.stage with
      | .loop _ _ => some (hub, { link with future := some (hub.notifyCalls link.closed) })
      | _ => none
    | .recv chunk, some _ =>
      let r := (link.capsules.push chunk).drain
      { link with capsules := ⟨r.rest⟩ }.leave s (.chunk ⟨r.messages, r.error.isNone⟩) hub
    | .finish, some _ => link.leave s .close hub
    | .notified, some calls =>
      if hub.notifyCalls link.closed = calls then none else link.leave s .close hub
    | .refreshMtu max, some _ => link.leave s (.refreshMtu max) hub
    | _, _ => none

end Link

inductive HubAct where
  | datagram (d : Received)
  | scan (now : Nat)
  | reap

namespace Hub

/-- One iteration of `run_datagram_demux`, or a step of the idle reaper. -/
def background : HubAct → Hub → Option Hub
  | .datagram d, hub => some (hub.withServer (hub.server.demux d))
  | .scan now, hub =>
    match hub.sessionIdleTimeout, hub.idle with
    | timeout + 1, [] =>
      some { hub with idle := hub.server.sessions.idleSessions (timeout + 1) now }
    | _, _ => none
  | .reap, hub =>
    match hub.idle with
    | [] => none
    | s :: rest => some { hub.unregisterSession s with idle := rest }

end Hub

/-- As in `ServerSys`, live sessions have distinct ids. -/
abbrev LinkSys := Tasks SessionId Hub Link

abbrev LinkLabel := Tasks.Label SessionId LinkAct HubAct

def linkStep : LinkSys → LinkLabel → Option LinkSys := Tasks.step Link.handle Hub.background

def Hub.initial (config : ProxyConfig) (ipv4 : Ipv4Net) (ipv6 : Option Ipv6Net)
    (tunTx : Option (Bytes → Bool)) (icmpSource : IcmpSource) (limits : RateLimits)
    (maxSessions sessionIdleTimeout : Nat) : LinkSys where
  shared :=
    { server := (Server.initial config ipv4 ipv6 tunTx icmpSource limits maxSessions).shared
      sessionNotify := Table.empty
      created := 0
      notifyCalls := fun _ => 0
      sessionIdleTimeout
      idle := [] }
  task := fun _ => .idle

/-- The server and its session tasks without the wire. -/
def LinkSys.view (σ : LinkSys) : ServerSys := ⟨σ.shared.server, fun s => (σ.task s).stage⟩

namespace Hub

variable (hub : Hub) (s : SessionId)

@[simp] theorem withServer_server (server : Server) : (hub.withServer server).server = server := rfl

@[simp] theorem notifyWaiters_server : (hub.notifyWaiters s).server = hub.server := by
  unfold notifyWaiters
  split <;> rfl

theorem unregisterSession_server :
    (hub.unregisterSession s).server = hub.server.unregisterSession s :=
  (hub.withServer _).notifyWaiters_server s

end Hub

namespace Link

variable {s : SessionId} {hub hub' : Hub} {link link' : Link}

/-- What a step of a handler does. -/
inductive Effect (s : SessionId) (hub : Hub) (link : Link) : LinkAct → Hub → Link → Prop where
  | start {connSeq streamId : UInt64} {conn : DatagramConn} {routes : AdvertisedRoutes} {now : Nat}
      {server : Server} {stage : Stage} :
      Straw.handle s (.start connSeq streamId conn routes.val now) hub.server link.stage =
        some (server, stage) →
      Effect s hub link (.start connSeq streamId conn routes now) (hub.withServer server)
        { idle with stage }
  | tick {ok : Bool} {now : Nat} {server : Server} {stage : Stage} :
      link.future = none → link.stage.outgoing = none →
      link.stage.tick s ok now hub.server = some (server, stage) →
      Effect s hub link (.tick ok now) ((link.stage.signal s hub).withServer server)
        { link.keep hub with stage }
  | send {ok : Bool} {now : Nat} {capsule : Capsule} {bytes : Bytes} {server : Server}
      {stage : Stage} :
      link.future = none → link.stage.outgoing = some capsule →
      (encodeCapsule capsule : Outcome ProxyError Bytes) = .ok bytes →
      link.stage.tick s ok now hub.server = some (server, stage) →
      Effect s hub link (.tick ok now) (hub.withServer server)
        { link with stage, sent := if ok then link.sent ++ [bytes] else link.sent }
  | unwind {ok : Bool} {now : Nat} {capsule : Capsule} :
      link.future = none → link.stage.outgoing = some capsule →
      Effect s hub link (.tick ok now) hub { link with panicked := true }
  | enter {t : Tunnel} {assigned : List AssignedAddress} :
      link.future = none → link.stage = .loop t assigned →
      Effect s hub link .enter hub { link with future := some (hub.notifyCalls link.closed) }
  | recv {chunk : Bytes} {calls : Nat} {server : Server} {stage : Stage} :
      link.future = some calls →
      Straw.handle s (.chunk ⟨(link.capsules.push chunk).drain.messages,
        (link.capsules.push chunk).drain.error.isNone⟩) hub.server link.stage =
        some (server, stage) →
      Effect s hub link (.recv chunk) (hub.withServer server)
        { link with stage, future := none, capsules := ⟨(link.capsules.push chunk).drain.rest⟩ }
  | finish {calls : Nat} {server : Server} {stage : Stage} :
      link.future = some calls →
      Straw.handle s .close hub.server link.stage = some (server, stage) →
      Effect s hub link .finish (hub.withServer server) { link with stage, future := none }
  | notified {calls : Nat} {server : Server} {stage : Stage} :
      link.future = some calls → hub.notifyCalls link.closed ≠ calls →
      Straw.handle s .close hub.server link.stage = some (server, stage) →
      Effect s hub link .notified (hub.withServer server) { link with stage, future := none }
  | refreshMtu {max : Option Nat} {calls : Nat} {server : Server} {stage : Stage} :
      link.future = some calls →
      Straw.handle s (.refreshMtu max) hub.server link.stage = some (server, stage) →
      Effect s hub link (.refreshMtu max) (hub.withServer server) { link with stage, future := none }

theorem tick_effect {ok : Bool} {now : Nat} (hfuture : link.future = none)
    (h : link.tick s ok now hub = some (hub', link')) :
    Effect s hub link (.tick ok now) hub' link' := by
  unfold tick at h
  cases hout : link.stage.outgoing with
  | none =>
    rw [hout] at h
    obtain ⟨r, hr, hpair⟩ := Option.map_eq_some_iff.mp h
    obtain ⟨rfl, rfl⟩ := Prod.mk.inj hpair
    exact .tick hfuture hout hr
  | some capsule =>
    simp only [hout] at h
    split at h
    · obtain ⟨rfl, rfl⟩ := Prod.mk.inj (Option.some.inj h)
      exact .unwind hfuture hout
    · rename_i bytes hbytes
      obtain ⟨r, hr, hpair⟩ := Option.map_eq_some_iff.mp h
      obtain ⟨rfl, rfl⟩ := Prod.mk.inj hpair
      exact .send hfuture hout hbytes hr

theorem handle_effect {act : LinkAct} (h : handle s act hub link = some (hub', link')) :
    link.panicked = false ∧ Effect s hub link act hub' link' := by
  unfold handle at h
  split at h
  · cases h
  · rename_i hpanicked
    refine ⟨by simpa using hpanicked, ?_⟩
    split at h
    · obtain ⟨r, hr, hpair⟩ := Option.map_eq_some_iff.mp h
      obtain ⟨rfl, rfl⟩ := Prod.mk.inj hpair
      exact .start hr
    · rename_i hfuture
      exact tick_effect hfuture h
    · rename_i hfuture
      split at h
      · rename_i hstage
        obtain ⟨rfl, rfl⟩ := Prod.mk.inj (Option.some.inj h)
        exact .enter hfuture hstage
      · cases h
    · rename_i hfuture
      obtain ⟨r, hr, hpair⟩ := Option.map_eq_some_iff.mp h
      obtain ⟨rfl, rfl⟩ := Prod.mk.inj hpair
      exact .recv hfuture hr
    · rename_i hfuture
      obtain ⟨r, hr, hpair⟩ := Option.map_eq_some_iff.mp h
      obtain ⟨rfl, rfl⟩ := Prod.mk.inj hpair
      exact .finish hfuture hr
    · rename_i hfuture
      split at h
      · cases h
      · rename_i hcalls
        obtain ⟨r, hr, hpair⟩ := Option.map_eq_some_iff.mp h
        obtain ⟨rfl, rfl⟩ := Prod.mk.inj hpair
        exact .notified hfuture hcalls hr
    · rename_i hfuture
      obtain ⟨r, hr, hpair⟩ := Option.map_eq_some_iff.mp h
      obtain ⟨rfl, rfl⟩ := Prod.mk.inj hpair
      exact .refreshMtu hfuture hr
    · cases h

/-- Without the wire, a step of the handler is a step of the server's session task or
nothing at all. -/
theorem Effect.view {act : LinkAct} (h : Effect s hub link act hub' link') :
    (hub'.server = hub.server ∧ link'.stage = link.stage) ∨
      ∃ act, Straw.handle s act hub.server link.stage = some (hub'.server, link'.stage) := by
  cases h with
  | start hstep => exact Or.inr ⟨_, hstep⟩
  | tick _ _ hstep => exact Or.inr ⟨.tick _ _, hstep⟩
  | send _ _ _ hstep => exact Or.inr ⟨.tick _ _, hstep⟩
  | unwind => exact Or.inl ⟨rfl, rfl⟩
  | enter => exact Or.inl ⟨rfl, rfl⟩
  | recv _ hstep => exact Or.inr ⟨_, hstep⟩
  | finish _ hstep => exact Or.inr ⟨_, hstep⟩
  | notified _ _ hstep => exact Or.inr ⟨_, hstep⟩
  | refreshMtu _ hstep => exact Or.inr ⟨_, hstep⟩

end Link

theorem Hub.background_view {act : HubAct} {hub hub' : Hub} (h : hub.background act = some hub') :
    hub'.server = hub.server ∨ ∃ d, Straw.background d hub.server = some hub'.server := by
  cases act with
  | datagram d =>
    obtain rfl := Option.some.inj h
    exact Or.inr ⟨.datagram d, rfl⟩
  | scan now =>
    simp only [Hub.background] at h
    split at h
    · obtain rfl := Option.some.inj h
      exact Or.inl rfl
    · cases h
  | reap =>
    simp only [Hub.background] at h
    split at h
    · cases h
    · rename_i s rest _
      obtain rfl := Option.some.inj h
      exact Or.inr ⟨.reap s, congrArg some (hub.unregisterSession_server s).symm⟩

theorem linkStep_view {σ τ : LinkSys} {label : LinkLabel} (h : Fires linkStep σ label τ) :
    τ.view = σ.view ∨ ∃ l, Fires serverStep σ.view l τ.view := by
  cases label with
  | task s act =>
    obtain ⟨⟨hub, link⟩, hstep, rfl⟩ := Option.map_eq_some_iff.mp h
    have htasks : (fun i => (Function.update σ.task s link i).stage) =
        Function.update (fun i => (σ.task i).stage) s link.stage :=
      Function.comp_update Link.stage σ.task s link
    rcases (Link.handle_effect hstep).2.view with ⟨hserver, hstage⟩ | ⟨act', hact⟩
    · refine Or.inl ?_
      simp only [LinkSys.view, htasks, hserver, hstage]
      rw [Function.update_eq_self (f := fun i => (σ.task i).stage)]
    · refine Or.inr ⟨.task s act', ?_⟩
      simp only [LinkSys.view, htasks, Fires, serverStep, Tasks.step, hact, Option.map_some]
  | env act =>
    obtain ⟨hub, hstep, rfl⟩ := Option.map_eq_some_iff.mp h
    rcases Hub.background_view hstep with hserver | ⟨d, hd⟩
    · exact Or.inl (by simp only [LinkSys.view, hserver])
    · exact Or.inr ⟨.env d, by simp only [LinkSys.view, Fires, serverStep, Tasks.step, hd,
        Option.map_some]⟩

/-- Every run on the wire is a run of the server. -/
theorem run_server {config : ProxyConfig} {ipv4 : Ipv4Net} {ipv6 : Option Ipv6Net}
    {tunTx : Option (Bytes → Bool)} {icmpSource : IcmpSource} {limits : RateLimits}
    {maxSessions timeout : Nat} {labels : List LinkLabel} {σ : LinkSys}
    (h : Run (Fires linkStep)
      (Hub.initial config ipv4 ipv6 tunTx icmpSource limits maxSessions timeout) labels σ) :
    ∃ labels', Run (Fires serverStep)
      (Server.initial config ipv4 ipv6 tunTx icmpSource limits maxSessions) labels' σ.view :=
  h.image fun _ _ _ hstep => linkStep_view hstep

end Straw
