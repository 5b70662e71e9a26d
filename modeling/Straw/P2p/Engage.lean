import Straw.P2p.Continuity

/-!
# What a call of `engage` leaves behind

As long as the queue to the pump takes every capsule, a call that returns has either
narrowed the client to its peer or left the table as it was. A call that meets a full
queue leaves a pending context, and the next acknowledgement activates it behind the
call's back. After a timeout a new call has nobody to acknowledge it: the relay has the
context already and answers the proposal with nothing.
-/

namespace Straw

open Transition
set_option autoImplicit false

namespace Negotiation

def RoomToSend (a : Negotiation) : LockdownAct → Prop
  | .engage => a.slot = .active ∨ a.queued.length < RelayLockdown.queueDepth
  | .sendClose => a.queued.length < RelayLockdown.queueDepth
  | _ => True

/-- What each stage of a call says about the client when no send has failed. -/
def Settled (a : Negotiation) : Prop :=
  match a.stage with
  | .idle => a.slot = .absent
  | .waiting | .timedOut => True
  | .acknowledged | .closing => a.slot = .active
  | .returned .engaged => a.slot = .active ∧ a.clientOpen = false
  | .returned .unacknowledged => a.slot = .absent
  | .returned _ => False

variable {a b : Negotiation} {act : LockdownAct}

theorem send_of_room (h : a.queued.length < RelayLockdown.queueDepth) (m : LockdownMessage)
    (next : EngageStage) : a.send m next = { a with queued := a.queued ++ [m], stage := next } :=
  if_pos h

/-- Between two calls the context is missing, or it is active and the client is closed. -/
def Between (a : Negotiation) : Prop :=
  a.slot = .absent ∨ a.slot = .active ∧ a.clientOpen = false

theorem Settled.between (h : a.Settled)
    (hstage : a.stage = .idle ∨ ∃ ending, a.stage = .returned ending) : a.Between := by
  rcases hstage with hidle | ⟨ending, hreturned⟩
  · simp only [Settled, hidle] at h
    exact Or.inl h
  · simp only [Settled, hreturned] at h
    cases ending with
    | engaged => exact Or.inr h
    | unacknowledged => exact Or.inl h
    | alreadyClosed | duplicate | queueFull => exact h.elim

/-- With room in the queue a call returns at once behind an active context and waits
otherwise. -/
theorem Between.propose (h : a.Between) (ha : a.Inv) (hroom : a.RoomToSend .engage) :
    (a.slot = .active ∧ a.propose = { a with stage := .returned .engaged }) ∨
      (a.slot = .absent ∧ a.propose.stage = .waiting) := by
  rcases h with habsent | ⟨hactive, -⟩
  · have hopen := (ha.both_open (by simp [habsent])).1
    have hfits : a.queued.length < RelayLockdown.queueDepth := by
      rcases hroom with hactive | hfits
      · rw [habsent] at hactive
        cases hactive
      · exact hfits
    refine Or.inr ⟨habsent, ?_⟩
    rw [Negotiation.propose, if_neg (by simp [habsent]), if_neg (by simp [hopen]),
      if_neg (by simp [habsent]), send_of_room (a := { a with slot := .pending }) hfits]
  · exact Or.inl ⟨hactive, by simp [Negotiation.propose, hactive]⟩

theorem Settled.engage (h : a.Settled) (ha : a.Inv) (hroom : a.RoomToSend .engage)
    (hstage : a.stage = .idle ∨ ∃ ending, a.stage = .returned ending) : a.propose.Settled := by
  have hbetween := h.between hstage
  rcases hbetween.propose ha hroom with ⟨hactive, heq⟩ | ⟨-, hwaiting⟩
  · rcases hbetween with habsent | hclosed
    · rw [hactive] at habsent
      cases habsent
    · rw [heq]
      exact hclosed
  · simp only [Settled, hwaiting]

theorem step_engage (h : a.step .engage = some b) :
    (a.stage = .idle ∨ ∃ ending, a.stage = .returned ending) ∧ b = a.propose := by
  cases step_cases h with
  | engage hstage => exact ⟨hstage, rfl⟩

theorem engage_of_rest (h : a.stage = .idle ∨ ∃ ending, a.stage = .returned ending) :
    a.step .engage = some a.propose := by
  rcases h with hidle | ⟨ending, hreturned⟩
  · simp only [step, hidle]
  · simp only [step, hreturned]

theorem settled_step (h : a.step act = some b) (hroom : a.RoomToSend act) (hinv : a.Inv)
    (ha : a.Settled) : b.Settled := by
  cases step_cases h with
  | engage hstage => exact ha.engage hinv hroom hstage
  | observe _ hslot => exact hslot
  | timeout => trivial
  | abandon => rfl
  | sendClose hstage =>
    rw [send_of_room hroom]
    exact hinv.confirmed (Or.inl hstage)
  | closeLocal hstage => exact ⟨hinv.confirmed (Or.inr hstage), rfl⟩
  | pumpSend | relayAssign | relayClose => exact ha
  | pumpReceive =>
    have hslot : a.slot ≠ .pending → (if a.slot = .pending then .active else a.slot) = a.slot :=
      fun hne => if_neg hne
    revert ha
    simp only [Settled]
    cases a.stage with
    | idle => intro habsent; rw [hslot (by simp [habsent])]; exact habsent
    | waiting | timedOut => exact id
    | acknowledged | closing => intro hactive; rw [hslot (by simp [hactive])]; exact hactive
    | returned ending =>
      cases ending with
      | engaged => rintro ⟨hactive, hclosed⟩; exact ⟨by simp [hactive], hclosed⟩
      | unacknowledged => intro habsent; rw [hslot (by simp [habsent])]; exact habsent
      | alreadyClosed | duplicate | queueFull => exact id

theorem settled_run {acts : List LockdownAct}
    (h : Run (Guarded RoomToSend (Fires step)) initial acts a) : a.Inv ∧ a.Settled := by
  refine h.invariant (fun a => a.Inv ∧ a.Settled) ?_ ⟨inv_initial, rfl⟩
  rintro a act b ⟨hinv, hsettled⟩ ⟨hroom, hstep⟩
  exact ⟨inv_step hstep hinv, settled_step hstep hroom hinv hsettled⟩

/-- A call that has returned stays so until the next one. -/
theorem returned_step {ending : EngageEnding} (h : a.step act = some b) (hact : act ≠ .engage)
    (ha : a.stage = .returned ending) : b.stage = .returned ending := by
  cases step_cases h with
  | engage => exact absurd rfl hact
  | pumpSend | relayAssign | relayClose | pumpReceive => exact ha
  | observe hstage | timeout hstage | abandon hstage | sendClose hstage | closeLocal hstage =>
    rw [ha] at hstage
    cases hstage

/-- The outcome of a call that found room for its capsules. -/
theorem call_result {mid : List LockdownAct} (hinv : a.Inv) (hsettled : a.Settled)
    (hcall : Run (Guarded RoomToSend (Fires step)) a (.engage :: mid) b) (honly : .engage ∉ mid)
    {ending : EngageEnding} (hreturned : b.stage = .returned ending) :
    (ending = .engaged ∧ b.slot = .active ∧ b.clientOpen = false) ∨
      (ending = .unacknowledged ∧ b.slot = a.slot ∧ b.clientOpen = a.clientOpen) := by
  obtain ⟨c, ⟨hroom, hengage⟩, hmid⟩ := hcall.cons_inv
  obtain ⟨hstage, rfl⟩ := step_engage hengage
  have hbinv : b.Inv ∧ b.Settled := by
    refine hcall.invariant (fun a => a.Inv ∧ a.Settled) ?_ ⟨hinv, hsettled⟩
    rintro a act b ⟨hinv, hsettled⟩ ⟨hroom, hstep⟩
    exact ⟨inv_step hstep hinv, settled_step hstep hroom hinv hsettled⟩
  have hb := hbinv.2
  simp only [Settled, hreturned] at hb
  cases ending with
  | engaged => exact Or.inl ⟨rfl, hb⟩
  | alreadyClosed | duplicate | queueFull => exact hb.elim
  | unacknowledged =>
    refine Or.inr ⟨rfl, ?_⟩
    rcases (hsettled.between hstage).propose hinv hroom with ⟨-, heq⟩ | ⟨habsent, -⟩
    · -- a call behind an active context has returned at once, with another result
      have hlabelled := hmid.unguarded.labelled (P := (· ≠ .engage))
        (fun act hact => fun hengage => honly (hengage ▸ hact))
      have hstays : b.stage = .returned .engaged :=
        hlabelled.invariant (fun c => c.stage = .returned .engaged)
          (fun _ _ _ hc hstep => returned_step hstep.2 hstep.1 hc) (by rw [heq])
      rw [hreturned] at hstays
      cases hstays
    · have hopen := (hinv.both_open (by simp [habsent])).1
      have hbopen := (hbinv.1.both_open (by simp [hb])).1
      exact ⟨hb.trans habsent.symm, hbopen.trans hopen.symm⟩

/-- The client is closed, or about to be. -/
def Closing (a : Negotiation) : Prop := a.stage = .closing ∨ a.clientOpen = false

/-- One step only leads to the close of the client: the one that queues it for the relay. -/
theorem closing_step (h : a.step act = some b) (hb : b.Closing) :
    a.Closing ∨ act = .sendClose ∧ b = { a with queued := a.queued ++ [.close], stage := .closing } := by
  cases step_cases h with
  | engage =>
    refine Or.inl (Or.inr ?_)
    rcases propose_cases a with ⟨ending, heq⟩ | ⟨-, heq⟩
    · simpa [heq, Closing] using hb
    · rcases send_cases { a with slot := .pending } .assign .waiting with hsend | hsend
      · simpa [heq, hsend, Closing] using hb
      · simpa [heq, hsend, Closing] using hb
  | sendClose =>
    rcases send_cases a .close .closing with hsend | hsend
    · exact Or.inr ⟨rfl, hsend⟩
    · refine Or.inl (Or.inr ?_)
      simpa [hsend, Closing] using hb
  | closeLocal hstage => exact Or.inl (Or.inl hstage)
  | observe | timeout | abandon => exact Or.inl (Or.inr (by simpa [Closing] using hb))
  | pumpSend | relayAssign | relayClose | pumpReceive => exact Or.inl hb

theorem sent_close {acts : List LockdownAct} (h : Run (Fires step) initial acts a)
    (hclosing : a.Closing) :
    ∃ before after c, acts = before ++ .sendClose :: after ∧ Run (Fires step) initial before c ∧
      c.step .sendClose = some { c with queued := c.queued ++ [.close], stage := .closing } := by
  induction h with
  | nil => simp [Closing, initial] at hclosing
  | @snoc c a as act hrun hlast ih =>
    rcases closing_step hlast hclosing with hbefore | ⟨rfl, rfl⟩
    · obtain ⟨before, after, d, rfl, hd, hstep⟩ := ih hbefore
      exact ⟨before, after ++ [act], d, by simp, hd, hstep⟩
    · exact ⟨as, [], c, rfl, hrun, hlast⟩

/-- Nobody will acknowledge the proposed context any more. -/
structure Unanswered (a : Negotiation) : Prop where
  bound : a.relayBound = true
  acks : a.acks = 0
  slot : a.slot ≠ .active
  stage : a.stage ≠ .acknowledged ∧ a.stage ≠ .closing ∧ a.stage ≠ .returned .engaged

theorem Unanswered.engage (hbound : a.relayBound = true) (hacks : a.acks = 0)
    (hslot : a.slot ≠ .active) : a.propose.Unanswered := by
  unfold propose
  rw [if_neg hslot]
  split
  · exact ⟨hbound, hacks, hslot, by simp⟩
  · split
    · exact ⟨hbound, hacks, hslot, by simp⟩
    · rcases send_cases { a with slot := .pending } .assign .waiting with hsend | hsend
      · rw [hsend]
        exact ⟨hbound, hacks, by simp, by simp⟩
      · rw [hsend]
        exact ⟨hbound, hacks, by simp, by simp⟩

theorem Unanswered.step (ha : a.Unanswered) (h : a.step act = some b) (hact : act ≠ .engage) :
    b.Unanswered := by
  cases step_cases h with
  | engage => exact absurd rfl hact
  | observe _ hslot => exact absurd hslot ha.slot
  | sendClose hstage => exact absurd hstage ha.stage.1
  | closeLocal hstage => exact absurd hstage ha.stage.2.1
  | timeout => exact ⟨ha.bound, ha.acks, ha.slot, by simp⟩
  | abandon => exact ⟨ha.bound, ha.acks, by simp, by simp⟩
  | pumpSend | relayClose => exact ⟨ha.bound, ha.acks, ha.slot, ha.stage⟩
  | relayAssign =>
    -- the relay has the context and answers the proposal with nothing
    exact ⟨rfl, by simp [ha.bound, ha.acks], ha.slot, ha.stage⟩
  | pumpReceive hacks =>
    rw [ha.acks] at hacks
    cases hacks

end Negotiation

namespace LockdownSys

open Negotiation

variable {peer : SocketAddr} {acts mid : List LockdownAct} {s₀ s : LockdownSys}

/-- A step that sends a capsule finds room for it in the queue. -/
def RoomToSend (peer : SocketAddr) (s : LockdownSys) : LockdownAct → Prop
  | .engage => (s.client.contexts.compressedContextFor peer).isSome ∨
      s.client.capsules.length < RelayLockdown.queueDepth
  | .sendClose => s.client.capsules.length < RelayLockdown.queueDepth
  | _ => True

/-- One of the steps has put a COMPRESSION_CLOSE of the uncompressed context into the queue. -/
def QueuedClose (peer : SocketAddr) (acts : List LockdownAct) : Prop :=
  ∃ before after t t' bytes, acts = before ++ .sendClose :: after ∧
    Run (Fires (step peer)) initial before t ∧ Fires (step peer) t .sendClose t' ∧
    (encodeContextCapsule capsuleCompressionClose firstUncompressedContext :
      Outcome ProxyError Bytes) = .ok bytes ∧
    t'.client.capsules = t.client.capsules ++ [bytes]

theorem compressedContextFor_view (a : Negotiation) :
    ((a.view peer).client.contexts.compressedContextFor peer).isSome = true ↔ a.slot = .active := by
  change ((a.slot.table a.clientOpen peer).compressedContextFor peer).isSome = true ↔ _
  rw [Slot.compressedContextFor_table]
  by_cases hslot : a.slot = .active <;> simp [hslot]

theorem room_view (a : Negotiation) (act : LockdownAct) (h : RoomToSend peer (a.view peer) act) :
    a.RoomToSend act := by
  have hlen : (a.view peer).client.capsules.length = a.queued.length := by simp [view]
  cases act with
  | engage =>
    simp only [RoomToSend, compressedContextFor_view, hlen] at h
    exact h
  | sendClose =>
    simp only [RoomToSend, hlen] at h
    exact h
  | _ => trivial

theorem queuedClose_of_closed {a : Negotiation} (h : Run (Fires Negotiation.step) .initial acts a)
    (hclosed : a.clientOpen = false) : QueuedClose peer acts := by
  obtain ⟨before, after, c, hacts, hrun, hstep⟩ := sent_close h (Or.inr hclosed)
  have hconcrete := image_of_run (fun a act => view_step peer a act) hrun
  rw [view_initial] at hconcrete
  have hnext : Fires (step peer) (c.view peer) .sendClose
      (view peer { c with queued := c.queued ++ [.close], stage := .closing }) := by
    rw [Fires, view_step, hstep]
    rfl
  exact ⟨before, after, _, _, _, hacts, hconcrete, hnext, LockdownMessage.encode_eq peer .close,
    by simp [view]⟩

theorem returned_view {a : Negotiation} {r : Outcome ProxyError SocketAddr}
    (h : (a.view peer).call = .returned r) :
    ∃ ending, a.stage = .returned ending ∧ ending.call peer = .returned r := by
  change a.stage.call peer = .returned r at h
  cases hstage : a.stage with
  | returned ending => exact ⟨ending, rfl, by rw [hstage] at h; exact h⟩
  | _ => rw [hstage] at h; cases h

theorem rest_view {a : Negotiation} (h : (a.view peer).call = .idle ∨
    ∃ r, (a.view peer).call = .returned r) :
    a.stage = .idle ∨ ∃ ending, a.stage = .returned ending := by
  rcases h with hidle | ⟨r, hr⟩
  · change a.stage.call peer = .idle at hidle
    cases hstage : a.stage with
    | idle => exact Or.inl rfl
    | returned ending => exact Or.inr ⟨ending, rfl⟩
    | _ => rw [hstage] at hidle; cases hidle
  · obtain ⟨ending, hstage, -⟩ := returned_view hr
    exact Or.inr ⟨ending, hstage⟩

theorem engaged_of_ok {ending : EngageEnding} {remote : SocketAddr}
    (h : ending.call peer = .returned (.ok remote)) : ending = .engaged ∧ remote = peer := by
  cases ending with
  | engaged =>
    cases h
    exact ⟨rfl, rfl⟩
  | _ => cases h

/-- When every capsule finds room in the queue, a call that returns `Ok` leaves the client
with a context for its peer and no uncompressed one, whose close has been queued, and a
call that fails leaves the table as it found it. -/
theorem engage_result (hstart : Run (Guarded (RoomToSend peer) (Fires (step peer))) initial acts s₀)
    (hcall : Run (Guarded (RoomToSend peer) (Fires (step peer))) s₀ (.engage :: mid) s)
    (honly : .engage ∉ mid) {r : Outcome ProxyError SocketAddr} (hreturned : s.call = .returned r) :
    (∀ remote, r = .ok remote → remote = peer ∧
        (s.client.contexts.compressedContextFor peer).isSome ∧
        s.client.contexts.uncompressedContext = none ∧
        QueuedClose peer (acts ++ .engage :: mid)) ∧
      (∀ e, r = .error e → s.client.contexts = s₀.client.contexts) := by
  obtain ⟨a, rfl, ha⟩ := guarded_run_of_image (fun a act => view_step peer a act) room_view
    (view_initial peer ▸ hstart)
  obtain ⟨b, rfl, hb⟩ := guarded_run_of_image (fun a act => view_step peer a act) room_view hcall
  obtain ⟨ending, hstage, hending⟩ := returned_view hreturned
  obtain ⟨hinv, hsettled⟩ := settled_run ha
  rcases call_result hinv hsettled hb honly hstage with
    ⟨rfl, hactive, hclosed⟩ | ⟨rfl, hslot, hopen⟩
  · refine ⟨?_, ?_⟩
    · rintro remote rfl
      refine ⟨(engaged_of_ok hending).2, (compressedContextFor_view b).mpr hactive, ?_,
        queuedClose_of_closed (ha.append hb).unguarded hclosed⟩
      change (b.slot.table b.clientOpen peer).uncompressedContext = none
      rw [Slot.uncompressedContext_table, hclosed]
      rfl
    · rintro e rfl
      cases hending
  · refine ⟨?_, ?_⟩
    · rintro remote rfl
      cases hending
    · rintro e rfl
      change b.slot.table b.clientOpen peer = a.slot.table a.clientOpen peer
      rw [hslot, hopen]

deriving instance DecidableEq for Engage

instance (peer : SocketAddr) (s : LockdownSys) (act : LockdownAct) :
    Decidable (RoomToSend peer s act) :=
  match act with
  | .engage => inferInstanceAs (Decidable (_ ∨ _))
  | .sendClose => inferInstanceAs (Decidable (_ < _))
  | .observe | .timeout | .abandon | .closeLocal | .pumpSend | .relayReceive | .pumpReceive =>
    .isTrue trivial

/-- A first call that the relay acknowledges. -/
theorem engage_result_acknowledged :
    ∃ s, Run (Fires (step testPeer)) initial [.engage, .pumpSend, .relayReceive, .pumpReceive,
        .observe, .sendClose, .closeLocal] s ∧
      s.client.contexts.uncompressedContext = none ∧
      QueuedClose testPeer [.engage, .pumpSend, .relayReceive, .pumpReceive, .observe, .sendClose,
        .closeLocal] := by
  have hexec : (exec (restrict (RoomToSend testPeer) (step testPeer)) initial
      [.engage, .pumpSend, .relayReceive, .pumpReceive, .observe, .sendClose, .closeLocal]).map call =
        some (.returned (.ok testPeer)) := by
    decide +kernel
  obtain ⟨s, hs, hcall⟩ := Option.map_eq_some_iff.mp hexec
  have hrun := guarded_run_of_exec hs
  obtain ⟨-, -, hclosed, hqueued⟩ :=
    (engage_result (.nil initial) hrun (by decide) hcall).1 testPeer rfl
  exact ⟨s, hrun.unguarded, hclosed, hqueued⟩

/-- Eight calls whose proposals the pump has not taken yet. -/
def fillQueue : List LockdownAct := (List.replicate 8 [.engage, .timeout, .abandon]).flatten

/-- With a full queue a call fails and leaves its context pending. The acknowledgement of
an earlier proposal then activates it, and the next call returns `Ok` with the
uncompressed context still open. -/
theorem full_queue_leaves_pending :
    ∃ s₀ s₁ s₂ s₃, Run (Fires (step testPeer)) initial fillQueue s₀ ∧
      Run (Fires (step testPeer)) s₀ [.engage] s₁ ∧
      Run (Fires (step testPeer)) s₁ [.pumpSend, .relayReceive, .pumpReceive] s₂ ∧
      Run (Fires (step testPeer)) s₂ [.engage] s₃ ∧
      s₀.client.contexts.pending.lookup compressedContext = none ∧
      s₁.call = .fails "capsule queue: no available capacity" ∧
      (s₁.client.contexts.pending.lookup compressedContext).isSome ∧
      s₃.call = .returned (.ok testPeer) ∧
      s₃.client.contexts.uncompressedContext = some firstUncompressedContext := by
  have hexec : ((exec (step testPeer) initial fillQueue).bind fun s₀ =>
      (exec (step testPeer) s₀ [.engage]).bind fun s₁ =>
      (exec (step testPeer) s₁ [.pumpSend, .relayReceive, .pumpReceive]).bind fun s₂ =>
      (exec (step testPeer) s₂ [.engage]).map fun s₃ =>
        (s₀.client.contexts.pending.lookup compressedContext, s₁.call,
          (s₁.client.contexts.pending.lookup compressedContext).isSome, s₃.call,
          s₃.client.contexts.uncompressedContext)) =
      some (none, .fails "capsule queue: no available capacity", true, .returned (.ok testPeer),
        some firstUncompressedContext) := by
    decide +kernel
  obtain ⟨s₀, h₀, hexec⟩ := Option.bind_eq_some_iff.mp hexec
  obtain ⟨s₁, h₁, hexec⟩ := Option.bind_eq_some_iff.mp hexec
  obtain ⟨s₂, h₂, hexec⟩ := Option.bind_eq_some_iff.mp hexec
  obtain ⟨s₃, h₃, hview⟩ := Option.map_eq_some_iff.mp hexec
  simp only [Prod.mk.injEq] at hview
  exact ⟨s₀, s₁, s₂, s₃, run_of_exec h₀, run_of_exec h₁, run_of_exec h₂, run_of_exec h₃, hview⟩

/-- After a call that timed out, once everything under way has arrived and no call is
running, a new call can only succeed if the client has the context already; then it
returns at once. -/
theorem retry_succeeds_iff (h : Run (Fires (step peer)) initial acts s)
    (htimeout : .abandon ∈ acts) (hquiet : s.Quiet)
    (hidle : s.call = .idle ∨ ∃ r, s.call = .returned r) :
    ((∃ mid t, Run (Fires (step peer)) s (.engage :: mid) t ∧ .engage ∉ mid ∧
        t.call = .returned (.ok peer)) ↔ (s.client.contexts.compressedContextFor peer).isSome) ∧
      ((s.client.contexts.compressedContextFor peer).isSome →
        ∃ t, Fires (step peer) s .engage t ∧ t.call = .returned (.ok peer)) := by
  obtain ⟨a, rfl, hrun⟩ := run_view h
  rw [compressedContextFor_view]
  have hat : a.slot = .active →
      ∃ t, Fires (step peer) (a.view peer) .engage t ∧ t.call = .returned (.ok peer) := by
    intro hactive
    have hpropose : a.propose = { a with stage := .returned .engaged } := if_pos hactive
    refine ⟨a.propose.view peer, ?_, by rw [hpropose]; rfl⟩
    rw [Fires, view_step, engage_of_rest (rest_view hidle)]
    rfl
  refine ⟨⟨?_, ?_⟩, hat⟩
  · rintro ⟨mid, t, hcall, honly, hok⟩
    by_contra hslot
    obtain ⟨hqueued, hupstream, hsent⟩ := hquiet
    have hacks : a.acks = 0 := by simpa [view] using hsent
    have hbound : a.relayBound = true := by
      rcases proposed_of_abandon hrun htimeout with hflight | hbound
      · simp_all [view, inFlight]
      · exact hbound
    obtain ⟨b, rfl, hb⟩ := run_of_image (fun a act => view_step peer a act) hcall
    obtain ⟨c, hengage, hmid⟩ := hb.cons_inv
    obtain ⟨-, rfl⟩ := step_engage hengage
    have hlabelled := hmid.labelled (P := (· ≠ .engage))
      (fun act hact hengage => honly (hengage ▸ hact))
    have hunanswered : b.Unanswered :=
      hlabelled.invariant Unanswered (fun _ _ _ hc hstep => hc.step hstep.2 hstep.1)
        (.engage hbound hacks hslot)
    obtain ⟨ending, hstage, hending⟩ := returned_view hok
    rw [(engaged_of_ok hending).1] at hstage
    exact hunanswered.stage.2.2 hstage
  · intro hactive
    obtain ⟨t, ht, hok⟩ := hat hactive
    exact ⟨[], t, .single ht, by simp, hok⟩

/-- A timeout before the pump has sent the proposal; then everything is delivered. -/
def lateProposal : List LockdownAct :=
  [.engage, .timeout, .abandon, .pumpSend, .relayReceive, .pumpReceive]

instance (s : LockdownSys) : Decidable s.Quiet := inferInstanceAs (Decidable (_ ∧ _ ∧ _))

theorem retry_never_succeeds :
    ∃ s, Run (Fires (step testPeer)) initial lateProposal s ∧ s.Quiet ∧
      ¬ ∃ mid t, Run (Fires (step testPeer)) s (.engage :: mid) t ∧ .engage ∉ mid ∧
        t.call = .returned (.ok testPeer) := by
  have hexec : (exec (step testPeer) initial lateProposal).map (fun s =>
      (decide s.Quiet, s.call, s.client.contexts.compressedContextFor testPeer)) =
      some (true, .fails "relay did not acknowledge the compressed context", none) := by
    decide +kernel
  obtain ⟨s, hs, hview⟩ := Option.map_eq_some_iff.mp hexec
  simp only [Prod.mk.injEq, decide_eq_true_eq] at hview
  obtain ⟨hquiet, hcall, hnone⟩ := hview
  refine ⟨s, run_of_exec hs, hquiet, ?_⟩
  rw [(retry_succeeds_iff (run_of_exec hs) (by decide) hquiet (Or.inr ⟨_, hcall⟩)).1, hnone]
  decide

/-- The relay takes the repeated proposal for a duplicate and sends no acknowledgement, so
the second call waits for nothing and times out as the first did. -/
theorem retry_unanswered :
    ∃ s t u, Run (Fires (step testPeer)) initial lateProposal s ∧ s.Quiet ∧
      Run (Fires (step testPeer)) s [.engage, .pumpSend, .relayReceive] t ∧ t.Quiet ∧
      t.call = .waiting testPeer compressedContext firstUncompressedContext ∧
      Run (Fires (step testPeer)) t [.timeout, .abandon] u ∧
      u.call = .fails "relay did not acknowledge the compressed context" := by
  have hexec : ((exec (step testPeer) initial lateProposal).bind fun s =>
      (exec (step testPeer) s [.engage, .pumpSend, .relayReceive]).bind fun t =>
      (exec (step testPeer) t [.timeout, .abandon]).map fun u =>
        (decide s.Quiet, decide t.Quiet, t.call, u.call)) =
      some (true, true, .waiting testPeer compressedContext firstUncompressedContext,
        .fails "relay did not acknowledge the compressed context") := by
    decide +kernel
  obtain ⟨s, hs, hexec⟩ := Option.bind_eq_some_iff.mp hexec
  obtain ⟨t, ht, hexec⟩ := Option.bind_eq_some_iff.mp hexec
  obtain ⟨u, hu, hview⟩ := Option.map_eq_some_iff.mp hexec
  simp only [Prod.mk.injEq, decide_eq_true_eq] at hview
  obtain ⟨hquiet, hquiet', hwaiting, hfailed⟩ := hview
  exact ⟨s, t, u, run_of_exec hs, hquiet, run_of_exec ht, hquiet', hwaiting, run_of_exec hu,
    hfailed⟩

end LockdownSys

end Straw
