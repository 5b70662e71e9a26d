import Straw.Client.Tunnel
import Straw.Session.Ledger
import Straw.Session.Wakeup

/-!
# The views of a session's addresses

At the head of the handler's loop the pool, the session table, the route table and the
handler's own list name the same addresses, and the last ADDRESS_ASSIGN on the stream
carries that list. What the client makes of it is the list itself, because everything the
handler sends is a whole frame with well-formed entries.
-/

namespace Straw

open Outcome Transition AddressPool
set_option autoImplicit false

namespace AddressPool

variable (p : AddressPool) (s : SessionId)

theorem allocateV4_wellFormed : ∀ a ∈ (p.allocateV4 s).1, a.WellFormed := by
  unfold allocateV4
  split
  · intro a ha
    cases ha
  · intro a ha
    obtain rfl := Option.some.inj ha
    exact ⟨rfl, Nat.le_refl 32⟩

theorem allocateV6_wellFormed : ∀ a ∈ (p.allocateV6 s).1, a.WellFormed := by
  unfold allocateV6
  split
  · intro a ha
    cases ha
  · intro a ha
    obtain rfl := Option.some.inj ha
    exact ⟨rfl, Nat.le_refl 128⟩

theorem allocateFallback_wellFormed (r : RequestedAddress) :
    ∀ a ∈ (p.allocateFallback s r).1, a.WellFormed := by
  have hversion : ∀ a ∈ (p.allocateByVersion s r.ipVersion).1, a.WellFormed := by
    unfold allocateByVersion
    split
    · exact p.allocateV4_wellFormed s
    · split
      · exact p.allocateV6_wellFormed s
      · intro a ha
        cases ha
  intro a ha
  obtain ⟨b, hb, rfl⟩ := Option.map_eq_some_iff.mp ha
  exact ⟨(hversion b hb).version, (hversion b hb).width⟩

theorem specificAddress_eq {r : RequestedAddress} {addr : IpAddr}
    (h : specificAddress r = some addr) : addr = r.ipAddress := by
  unfold specificAddress at h
  split at h
  all_goals
    rename_i hip
    split at h
    · exact (Option.some.inj h).symm.trans hip.symm
    · cases h

theorem allocateForRequest_wellFormed {r : RequestedAddress} (hr : r.WellFormed) :
    ∀ a ∈ (p.allocateForRequest s r).1, a.WellFormed := by
  unfold allocateForRequest
  split
  · exact p.allocateFallback_wellFormed s r
  · rename_i addr haddr
    split
    · intro a ha
      obtain rfl := Option.some.inj ha
      rw [specificAddress_eq haddr]
      exact ⟨hr.version, hr.width⟩
    · exact allocateFallback_wellFormed _ s r

end AddressPool

def Pending.requests (p : Pending) : List RequestedAddress := p.capsules.flatMap Capsule.requests

namespace Stage

def tunnel? : Stage → Option Tunnel
  | accept t => some t
  | allocateV4 t => some t
  | allocateV6 t _ => some t
  | sendAssign t _ => some t
  | sendRoutes t _ => some t
  | _ => none

/-- The requests of the current chunk that are still to handle. -/
def requested : Stage → List RequestedAddress
  | capsules _ _ pending => pending.requests
  | request _ _ requests pending => requests ++ pending.requests
  | installOne _ _ _ requests pending => requests ++ pending.requests
  | reply _ _ pending => pending.requests
  | _ => []

/-- The handler works on well-formed entries only. -/
structure Sound (stage : Stage) : Prop where
  routes : ∀ t ∈ stage.tunnel?, ∀ r ∈ t.routes, r.WellFormed
  assigned : ∀ a ∈ stage.assigned, a.WellFormed
  requested : ∀ r ∈ stage.requested, r.WellFormed

variable {s : SessionId} {srv srv' : Server} {stage stage' : Stage} {ok : Bool} {now : Nat}

theorem sound_release : release.Sound where
  routes _ ht := by cases ht
  assigned _ ha := by cases ha
  requested _ hr := by cases hr

theorem Sound.orTeardown (h : stage.Sound) : (Stage.orTeardown ok stage).Sound := by
  unfold Stage.orTeardown
  split
  · exact h
  · exact sound_release

theorem Sound.handleCapsule {t : Tunnel} {addrs : List AssignedAddress} {capsule : Capsule}
    {rest : List Capsule} {chunkOk : Bool}
    (h : (capsules t addrs ⟨capsule :: rest, chunkOk⟩).Sound) :
    (Stage.handleCapsule srv s t addrs ⟨rest, chunkOk⟩ capsule).2.Sound := by
  have hsplit : ∀ r ∈ capsule.requests ++ Pending.requests ⟨rest, chunkOk⟩, r.WellFormed :=
    h.requested
  have hrest : ∀ r ∈ Pending.requests ⟨rest, chunkOk⟩, r.WellFormed := fun r hr =>
    hsplit r (List.mem_append_right _ hr)
  cases capsule with
  | addressRequest requests => exact ⟨h.routes, h.assigned, hsplit⟩
  | routeAdvertisement ranges => exact ⟨h.routes, h.assigned, hrest⟩
  | addressAssign addrs => exact ⟨h.routes, h.assigned, hrest⟩
  | unknown typeId data => exact ⟨h.routes, h.assigned, hrest⟩

theorem Sound.tick (h : stage.Sound) (hstep : stage.tick s ok now srv = some (srv', stage')) :
    stage'.Sound := by
  cases tick_cases hstep with
  | accept | sendAssign | reply => exact .orTeardown ⟨h.routes, h.assigned, h.requested⟩
  | allocateV4 t =>
    refine ⟨h.routes, ?_, h.requested⟩
    intro a ha
    exact srv.pool.allocateV4_wellFormed s a (Option.mem_toList.mp ha)
  | allocateV6 t assigned =>
    split
    · exact sound_release
    · refine ⟨h.routes, ?_, h.requested⟩
      intro a ha
      rcases List.mem_append.mp ha with hold | hgot
      · exact h.assigned a hold
      · exact srv.pool.allocateV6_wellFormed s a (Option.mem_toList.mp hgot)
  | sendRoutes => exact .orTeardown ⟨fun _ ht => (by cases ht), h.assigned, h.requested⟩
  | broken => exact sound_release
  | capsule => exact h.handleCapsule
  | grant t assigned r requests pending hr =>
    refine ⟨h.routes, ?_, fun q hq => h.requested q (List.mem_cons_of_mem r hq)⟩
    intro b hb
    rcases List.mem_append.mp hb with hold | hgot
    · exact h.assigned b hold
    · obtain rfl := List.mem_singleton.mp hgot
      have hnew := srv.pool.allocateForRequest_wellFormed s (h.requested r List.mem_cons_self)
      exact hnew b (by rw [hr]; rfl)
  | deny t assigned r =>
    exact ⟨h.routes, h.assigned, fun q hq => h.requested q (List.mem_cons_of_mem r hq)⟩
  | _ => exact ⟨h.routes, h.assigned, h.requested⟩

/-- The handler's list is the one it sent last. -/
def answered : Stage → Bool
  | sendRoutes _ _ => true
  | install _ _ _ => true
  | register _ _ => true
  | publish _ _ => true
  | loop _ _ => true
  | capsules _ _ _ => true
  | _ => false

theorem answered_handleCapsule {t : Tunnel} {addrs : List AssignedAddress} {pending : Pending}
    (capsule : Capsule)
    (h : (Stage.handleCapsule srv s t addrs pending capsule).2.answered = true) :
    (Stage.handleCapsule srv s t addrs pending capsule).2.assigned = addrs := by
  cases capsule with
  | addressRequest => cases h
  | _ => rfl

theorem answered_tick (hout : stage.outgoing = none)
    (hstep : stage.tick s ok now srv = some (srv', stage')) (h : stage'.answered = true) :
    stage.answered = true ∧ stage'.assigned = stage.assigned := by
  cases tick_cases hstep with
  | sendAssign | sendRoutes | reply => cases hout
  | accept =>
    unfold Stage.orTeardown at h
    split at h <;> cases h
  | allocateV6 => split at h <;> cases h
  | installed | install | register | publish | drained => exact ⟨rfl, rfl⟩
  | capsule _ _ capsule => exact ⟨rfl, answered_handleCapsule capsule h⟩
  | _ => cases h

/-- A stage that sends ends the tunnel when the send fails. Otherwise the capsule has the
list of the next stage, or it has the routes and the list stays. -/
theorem tick_outgoing {capsule : Capsule} (hout : stage.outgoing = some capsule)
    (hstep : stage.tick s ok now srv = some (srv', stage')) :
    (ok = false ∧ stage' = .release) ∨
      (ok = true ∧ (capsule = .addressAssign stage'.assigned ∨
        ∃ t, capsule = .routeAdvertisement t.routes ∧ stage.tunnel? = some t ∧
          stage.answered = true ∧ stage'.assigned = stage.assigned)) := by
  cases tick_cases hstep with
  | sendAssign | reply =>
    obtain rfl := Option.some.inj hout
    cases ok with
    | false => exact Or.inl ⟨rfl, rfl⟩
    | true => exact Or.inr ⟨rfl, Or.inl rfl⟩
  | sendRoutes t =>
    obtain rfl := Option.some.inj hout
    cases ok with
    | false => exact Or.inl ⟨rfl, rfl⟩
    | true => exact Or.inr ⟨rfl, Or.inr ⟨t, rfl, rfl, rfl, rfl⟩⟩
  | _ => cases hout

end Stage

def Sends (capsule : Capsule) (bytes : Bytes) : Prop :=
  (encodeCapsule capsule : Outcome ProxyError Bytes) = .ok bytes

/-- The bytes of a ROUTE_ADVERTISEMENT with well-formed ranges. -/
def SendsRoutes (bytes : Bytes) : Prop :=
  ∃ ranges, (∀ r ∈ ranges, r.WellFormed) ∧ Sends (.routeAdvertisement ranges) bytes

def SendsAddresses (bytes : Bytes) : Prop :=
  ∃ addrs, (∀ a ∈ addrs, a.WellFormed) ∧ Sends (.addressAssign addrs) bytes

/-- The last ADDRESS_ASSIGN on the stream carries `addrs`. -/
def LastAssigned (sent : List Bytes) (addrs : List AssignedAddress) : Prop :=
  ∃ before b after, sent = before ++ b :: after ∧ Sends (.addressAssign addrs) b ∧
    ∀ x ∈ after, SendsRoutes x

theorem LastAssigned.snoc_routes {sent : List Bytes} {addrs : List AssignedAddress} {b : Bytes}
    (h : LastAssigned sent addrs) (hb : SendsRoutes b) : LastAssigned (sent ++ [b]) addrs := by
  obtain ⟨before, last, after, rfl, hlast, hafter⟩ := h
  refine ⟨before, last, after ++ [b], by simp, hlast, ?_⟩
  intro x hx
  rcases List.mem_append.mp hx with hold | hnew
  · exact hafter x hold
  · exact List.mem_singleton.mp hnew ▸ hb

theorem lastAssigned_snoc {addrs : List AssignedAddress} {b : Bytes}
    (h : Sends (.addressAssign addrs) b) (sent : List Bytes) :
    LastAssigned (sent ++ [b]) addrs :=
  ⟨sent, b, [], rfl, h, fun _ hx => (by cases hx)⟩

namespace Link

/-- What the handler has put on its stream. -/
structure Transmits (link : Link) : Prop where
  sound : link.stage.Sound
  frames : ∀ b ∈ link.sent, SendsAddresses b ∨ SendsRoutes b
  answered : link.stage.answered = true → LastAssigned link.sent link.stage.assigned

variable {s : SessionId} {hub hub' : Hub} {link link' : Link}

theorem Transmits.send (h : link.Transmits) {ok : Bool} {now : Nat} {capsule : Capsule}
    {bytes : Bytes} {server : Server} {stage : Stage} (hout : link.stage.outgoing = some capsule)
    (hbytes : Sends capsule bytes)
    (hstep : link.stage.tick s ok now hub.server = some (server, stage)) :
    { link with stage, sent := if ok then link.sent ++ [bytes] else link.sent }.Transmits := by
  rcases Stage.tick_outgoing hout hstep with ⟨rfl, rfl⟩ | ⟨rfl, hsent⟩
  · exact ⟨Stage.sound_release, h.frames, fun hans => (by cases hans)⟩
  · have hsound := h.sound.tick hstep
    rcases hsent with rfl | ⟨t, rfl, htunnel, hans, hassigned⟩
    · refine ⟨hsound, ?_, fun _ => lastAssigned_snoc hbytes link.sent⟩
      exact List.forall_mem_append.mpr ⟨h.frames, by
        simpa using Or.inl ⟨stage.assigned, hsound.assigned, hbytes⟩⟩
    · have hroutes : SendsRoutes bytes := ⟨t.routes, h.sound.routes t htunnel, hbytes⟩
      refine ⟨hsound, ?_, fun _ => hassigned ▸ (h.answered hans).snoc_routes hroutes⟩
      exact List.forall_mem_append.mpr ⟨h.frames, by simpa using Or.inr hroutes⟩

theorem Transmits.leave (h : link.Transmits) {act : HandlerAct} {server : Server} {stage : Stage}
    (htick : ∀ ok now, act ≠ .tick ok now)
    (hchunk : ∀ pending, act = .chunk pending → ∀ r ∈ pending.requests, r.WellFormed)
    (hloop : ∃ t assigned, link.stage = .loop t assigned)
    (hstep : Straw.handle s act hub.server link.stage = some (server, stage))
    (capsules : CapsuleBuffer) : { link with stage, future := none, capsules }.Transmits := by
  obtain ⟨t, assigned, hloop⟩ := hloop
  have hsound := h.sound
  have hanswered := h.answered
  rw [hloop] at hstep hsound hanswered
  cases act with
  | start => cases hstep
  | tick ok now => exact absurd rfl (htick ok now)
  | chunk pending =>
    obtain ⟨-, rfl⟩ := Prod.mk.inj (Option.some.inj hstep)
    exact ⟨⟨hsound.routes, hsound.assigned, hchunk pending rfl⟩, h.frames, hanswered⟩
  | close =>
    obtain ⟨-, rfl⟩ := Prod.mk.inj (Option.some.inj hstep)
    exact ⟨Stage.sound_release, h.frames, fun hans => (by cases hans)⟩
  | refreshMtu max =>
    obtain ⟨-, rfl⟩ := Prod.mk.inj (Option.some.inj hstep)
    exact ⟨hsound, h.frames, hanswered⟩

theorem Transmits.effect {act : LinkAct} (h : link.Transmits) (hwired : Wired s hub link)
    (heffect : link.Effect s hub act hub' link') : link'.Transmits := by
  cases heffect with
  | @start _ _ _ routes _ _ _ hstep =>
    obtain ⟨hidle, rfl | rfl⟩ := handle_start hstep
    · have hsound := h.sound
      rw [hidle] at hsound
      exact ⟨hsound, fun _ hb => (by cases hb), fun hans => (by cases hans)⟩
    · refine ⟨⟨?_, fun _ ha => (by cases ha), fun _ hr => (by cases hr)⟩, fun _ hb => (by cases hb),
        fun hans => (by cases hans)⟩
      intro t ht
      obtain rfl := Option.some.inj ht
      exact routes.property
  | tick _ hout hstep =>
    have hsent : (link.keep hub).sent = link.sent := by
      unfold Link.keep
      split <;> rfl
    refine ⟨h.sound.tick hstep, hsent ▸ h.frames, ?_⟩
    intro hans
    obtain ⟨hbefore, hassigned⟩ := Stage.answered_tick hout hstep hans
    rw [hsent, hassigned]
    exact h.answered hbefore
  | send _ hout hbytes hstep => exact h.send hout hbytes hstep
  | unwind => exact ⟨h.sound, h.frames, h.answered⟩
  | enter => exact ⟨h.sound, h.frames, h.answered⟩
  | @recv chunk _ _ _ hfuture hstep =>
    refine h.leave (by simp) ?_ (hwired.parked _ hfuture) hstep _
    rintro pending hpending r hr
    cases hpending
    obtain ⟨c, hc, hr⟩ := List.mem_flatMap.mp hr
    exact drain_requests (link.capsules.push chunk) c hc r hr
  | finish hfuture hstep =>
    exact h.leave (by simp) (by simp) (hwired.parked _ hfuture) hstep link.capsules
  | notified hfuture _ hstep =>
    exact h.leave (by simp) (by simp) (hwired.parked _ hfuture) hstep link.capsules
  | refreshMtu hfuture hstep =>
    exact h.leave (by simp) (by simp) (hwired.parked _ hfuture) hstep link.capsules

end Link

section Runs

variable {config : ProxyConfig} {ipv4 : Ipv4Net} {ipv6 : Option Ipv6Net}
  {tunTx : Option (Bytes → Bool)} {icmpSource : IcmpSource} {limits : RateLimits}
  {maxSessions timeout : Nat}

theorem transmits_idle : Link.idle.Transmits :=
  ⟨⟨fun _ ht => (by cases ht), fun _ ha => (by cases ha), fun _ hr => (by cases hr)⟩,
    fun _ hb => (by cases hb), fun hans => (by cases hans)⟩

theorem transmits_run {labels : List LinkLabel} {σ : LinkSys}
    (h : Run (Fires linkStep)
      (Hub.initial config ipv4 ipv6 tunTx icmpSource limits maxSessions timeout) labels σ)
    (s : SessionId) : (σ.task s).Transmits :=
  link_run (P := Link.Transmits) transmits_idle Link.Transmits.effect h s

theorem SendsRoutes.frame {b : Bytes} (h : SendsRoutes b) :
    ∃ r, CapsuleBuffer.framer.Frame b r ∧ ∀ addrs, Client.Tunnel.assignedAfter addrs r = addrs := by
  obtain ⟨ranges, hwf, hsends⟩ := h
  obtain ⟨r, hframe, honly⟩ := frame_routeAdvertisement hwf hsends
  refine ⟨r, hframe, ?_⟩
  intro addrs
  cases r with
  | error e => rfl
  | ok c =>
    obtain ⟨ranges', rfl⟩ := honly c rfl
    rfl

theorem frame_addressAssign {addrs : List AssignedAddress} {b : Bytes}
    (hwf : ∀ a ∈ addrs, a.WellFormed) (h : Sends (.addressAssign addrs) b) :
    CapsuleBuffer.framer.Frame b (.ok (.addressAssign addrs)) := by
  have hnext := nextCapsule_addressAssign hwf h []
  rw [List.append_nil] at hnext
  exact hnext

/-- At the head of the loop the pool, the snapshot, the session's record and the route table
have the addresses of the handler's list. The client has the list itself once it has read
the last ADDRESS_ASSIGN, however the stream is cut and read. -/
theorem views_agree {labels : List LinkLabel} {σ : LinkSys}
    (h : Run (Fires linkStep)
      (Hub.initial config ipv4 ipv6 tunTx icmpSource limits maxSessions timeout) labels σ)
    {s : SessionId} {t : Tunnel} {assigned : List AssignedAddress}
    (hloop : (σ.task s).stage = .loop t assigned) :
    σ.shared.server.pool.held s = assigned.map (·.ipAddress) ∧
      σ.shared.server.sessions.assignedSnapshot s = some assigned ∧
      (σ.shared.server.sessions.sessions.lookup s).map (·.assignedAddresses) = some assigned ∧
      (∀ a, σ.shared.server.engine.routeTable.clientAddrs a = some s ↔
        a ∈ assigned.map (·.ipAddress)) ∧
      ∃ before b after, (σ.task s).sent = before ++ b :: after ∧
        Sends (.addressAssign assigned) b ∧ (∀ x ∈ after, SendsRoutes x) ∧
        ∀ chunks n, chunks.flatten = (σ.task s).sent.flatten →
          (Client.Tunnel.processCalls n .new chunks).1.capsules.buf.length +
            (Client.Tunnel.processCalls n .new chunks).2.flatten.length ≤ after.flatten.length →
          (Client.Tunnel.processCalls n .new chunks).1.assigned = assigned := by
  obtain ⟨labels', hserver⟩ := run_server h
  have hledger : Ledger s σ.shared.server (σ.task s).stage.facts := ledger_run hserver s
  obtain ⟨hsound, hframes, hanswered⟩ := transmits_run h s
  rw [hloop] at hledger hsound hanswered
  obtain ⟨hsnapshot, hsession⟩ := hledger.published rfl
  obtain ⟨installed, hsplit, hiff⟩ :=
    hledger.addrs (by simp [Stage.facts, Stage.phase]) (by simp [Stage.facts, Stage.phase])
  have hinstalled : assigned = installed := hsplit.trans (List.append_nil installed)
  refine ⟨hledger.held (by simp [Stage.facts, Stage.phase]), hsnapshot, hsession,
    fun a => hinstalled ▸ hiff a, ?_⟩
  obtain ⟨before, b, after, hsent, hlast, hafter⟩ := hanswered rfl
  refine ⟨before, b, after, hsent, hlast, hafter, ?_⟩
  intro chunks n hchunks hread
  obtain ⟨qs, hqs, -⟩ : ∃ qs, List.Forall₂ CapsuleBuffer.framer.Frame before qs ∧ ∀ r ∈ qs, True := by
    refine Framer.exists_frames ?_
    intro x hx
    rcases hframes x (hsent ▸ List.mem_append_left _ hx) with ⟨addrs, hwf, hsends⟩ | hroutes
    · exact ⟨_, frame_addressAssign hwf hsends, trivial⟩
    · obtain ⟨r, hframe, -⟩ := hroutes.frame
      exact ⟨r, hframe, trivial⟩
  obtain ⟨ps, hps, hsame⟩ := Framer.exists_frames fun x hx => (hafter x hx).frame
  exact Client.Tunnel.assigned_of_last hqs (frame_addressAssign hsound.assigned hlast) hps hsame
    (hsent ▸ hchunks) hread

end Runs

/-- A client asks for a second address and reads the stream byte by byte. -/
theorem views_agree_two_addresses :
    ∃ σ t, Run (Fires linkStep) reapingHub
        (acceptTunnel 0 ++ [.task ⟨0⟩ .enter, .task ⟨0⟩ (.recv addressRequest)] ++
          List.replicate 6 (.task ⟨0⟩ (.tick true 0))) σ ∧
      (σ.task ⟨0⟩).stage = .loop t
        (Client.Tunnel.processCalls 3 .new ((σ.task ⟨0⟩).sent.flatten.map fun b => [b])).1.assigned ∧
      σ.shared.server.pool.held ⟨0⟩ = [.v4 0x0a640002#32, .v4 0x0a640003#32] := by
  have hexec : (exec linkStep reapingHub
      (acceptTunnel 0 ++ [.task ⟨0⟩ .enter, .task ⟨0⟩ (.recv addressRequest)] ++
        List.replicate 6 (.task ⟨0⟩ (.tick true 0)))).map (fun σ =>
          let r := Client.Tunnel.processCalls 3 .new ((σ.task ⟨0⟩).sent.flatten.map fun b => [b])
          ((σ.task ⟨0⟩).stage.isLoop, r.1.capsules.buf, r.2, σ.shared.server.pool.held ⟨0⟩)) =
      some (true, [], [], [.v4 0x0a640002#32, .v4 0x0a640003#32]) := by decide +kernel
  obtain ⟨σ, hσ, hview⟩ := Option.map_eq_some_iff.mp hexec
  simp only [Prod.mk.injEq] at hview
  obtain ⟨hisLoop, hbuf, hleft, hheld⟩ := hview
  obtain ⟨t, assigned, hloop⟩ := Stage.isLoop_iff.mp hisLoop
  obtain ⟨-, -, -, -, before, b, after, -, -, -, hclient⟩ := views_agree (run_of_exec hσ) hloop
  have hassigned := hclient ((σ.task ⟨0⟩).sent.flatten.map fun b => [b]) 3
    (by rw [← List.flatMap_def, List.flatMap_singleton'])
    (by rw [hbuf, hleft]; exact Nat.zero_le _)
  exact ⟨σ, t, run_of_exec hσ, by rw [hassigned, hloop], hheld⟩

end Straw
