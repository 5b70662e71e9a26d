import Straw.P2p.Lockdown

/-!
# The lockdown as a protocol

What the two ends of a session know about the proposed context and about the
uncompressed one, and which proposals, closes and acknowledgements are under way. Ids,
addresses and bytes are left out; a later module shows that the session runs as this
protocol does.
-/

namespace Straw

open Transition
set_option autoImplicit false

inductive Slot where
  | absent
  | pending
  | active
deriving DecidableEq

inductive LockdownMessage where
  | assign
  | close
deriving DecidableEq

inductive EngageEnding where
  | engaged
  | alreadyClosed
  | duplicate
  | queueFull
  | unacknowledged
deriving DecidableEq

inductive EngageStage where
  | idle
  | waiting
  | timedOut
  | acknowledged
  | closing
  | returned (ending : EngageEnding)
deriving DecidableEq

structure Negotiation where
  slot : Slot
  clientOpen : Bool
  relayBound : Bool
  relayOpen : Bool
  queued : List LockdownMessage
  upstream : List LockdownMessage
  acks : Nat
  stage : EngageStage
deriving DecidableEq

namespace Negotiation

def send (a : Negotiation) (m : LockdownMessage) (next : EngageStage) : Negotiation :=
  if a.queued.length < RelayLockdown.queueDepth then
    { a with queued := a.queued ++ [m], stage := next }
  else { a with stage := .returned .queueFull }

def propose (a : Negotiation) : Negotiation :=
  if a.slot = .active then { a with stage := .returned .engaged }
  else if a.clientOpen = false then { a with stage := .returned .alreadyClosed }
  else if a.slot = .pending then { a with stage := .returned .duplicate }
  else send { a with slot := .pending } .assign .waiting

def receive (a : Negotiation) : LockdownMessage → Negotiation
  | .assign => if a.relayBound then a else { a with relayBound := true, acks := a.acks + 1 }
  | .close => { a with relayOpen := false }

def step (a : Negotiation) : LockdownAct → Option Negotiation
  | .engage =>
    match a.stage with
    | .idle | .returned _ => some a.propose
    | _ => none
  | .observe =>
    if a.stage = .waiting ∧ a.slot = .active then some { a with stage := .acknowledged } else none
  | .timeout => if a.stage = .waiting then some { a with stage := .timedOut } else none
  | .abandon =>
    if a.stage = .timedOut then
      some { a with slot := .absent, stage := .returned .unacknowledged }
    else none
  | .sendClose => if a.stage = .acknowledged then some (a.send .close .closing) else none
  | .closeLocal =>
    if a.stage = .closing then some { a with clientOpen := false, stage := .returned .engaged }
    else none
  | .pumpSend =>
    match a.queued with
    | [] => none
    | m :: rest => some { a with queued := rest, upstream := a.upstream ++ [m] }
  | .relayReceive =>
    match a.upstream with
    | [] => none
    | m :: rest => some (receive { a with upstream := rest } m)
  | .pumpReceive =>
    match a.acks with
    | 0 => none
    | acks + 1 =>
      some { a with acks, slot := if a.slot = .pending then .active else a.slot }

def initial : Negotiation := ⟨.absent, true, false, true, [], [], 0, .idle⟩

def inFlight (a : Negotiation) : List LockdownMessage := a.queued ++ a.upstream

/-- A call that may still give the proposed context up. -/
def Undecided (a : Negotiation) : Prop := a.stage = .waiting ∨ a.stage = .timedOut

def Narrowed (a : Negotiation) : Prop :=
  a.clientOpen = false ∨ a.relayOpen = false ∨ .close ∈ a.inFlight

def Proposed (a : Negotiation) : Prop := .assign ∈ a.inFlight ∨ a.relayBound = true

structure Inv (a : Negotiation) : Prop where
  bound : a.slot = .active ∨ 0 < a.acks → a.relayBound = true
  narrowed : a.Narrowed → a.slot = .active ∧ ¬ a.Undecided
  confirmed : a.stage = .acknowledged ∨ a.stage = .closing → a.slot = .active
  proposed : a.Undecided → a.Proposed

theorem inv_initial : initial.Inv where
  bound := by simp [initial]
  narrowed := by simp [initial, Narrowed, inFlight]
  confirmed := by simp [initial]
  proposed := by simp [initial, Undecided]

variable {a b : Negotiation}

theorem send_cases (a : Negotiation) (m : LockdownMessage) (next : EngageStage) :
    a.send m next = { a with queued := a.queued ++ [m], stage := next } ∨
      a.send m next = { a with stage := .returned .queueFull } := by
  unfold send
  split
  · exact Or.inl rfl
  · exact Or.inr rfl

theorem propose_cases (a : Negotiation) :
    (∃ ending, a.propose = { a with stage := .returned ending }) ∨
      a.slot = .absent ∧ a.propose = send { a with slot := .pending } .assign .waiting := by
  unfold propose
  split
  · exact Or.inl ⟨_, rfl⟩
  · split
    · exact Or.inl ⟨_, rfl⟩
    · split
      · exact Or.inl ⟨_, rfl⟩
      · refine Or.inr ⟨?_, rfl⟩
        cases hslot : a.slot <;> simp_all

theorem receive_assign (a : Negotiation) :
    a.receive .assign =
      { a with relayBound := true, acks := if a.relayBound then a.acks else a.acks + 1 } := by
  rcases a with ⟨slot, clientOpen, relayBound, relayOpen, queued, upstream, acks, stage⟩
  cases relayBound <;> rfl

/-- What a step of the negotiation does, branch by branch. -/
inductive Steps (a : Negotiation) : LockdownAct → Negotiation → Prop
  | engage (hstage : a.stage = .idle ∨ ∃ ending, a.stage = .returned ending) :
      Steps a .engage a.propose
  | observe (hstage : a.stage = .waiting) (hslot : a.slot = .active) :
      Steps a .observe { a with stage := .acknowledged }
  | timeout (hstage : a.stage = .waiting) : Steps a .timeout { a with stage := .timedOut }
  | abandon (hstage : a.stage = .timedOut) :
      Steps a .abandon { a with slot := .absent, stage := .returned .unacknowledged }
  | sendClose (hstage : a.stage = .acknowledged) : Steps a .sendClose (a.send .close .closing)
  | closeLocal (hstage : a.stage = .closing) :
      Steps a .closeLocal { a with clientOpen := false, stage := .returned .engaged }
  | pumpSend {m rest} (hqueued : a.queued = m :: rest) :
      Steps a .pumpSend { a with queued := rest, upstream := a.upstream ++ [m] }
  | relayAssign {rest} (hupstream : a.upstream = .assign :: rest) :
      Steps a .relayReceive { a with
        upstream := rest, relayBound := true, acks := if a.relayBound then a.acks else a.acks + 1 }
  | relayClose {rest} (hupstream : a.upstream = .close :: rest) :
      Steps a .relayReceive { a with upstream := rest, relayOpen := false }
  | pumpReceive {acks} (hacks : a.acks = acks + 1) :
      Steps a .pumpReceive
        { a with acks, slot := if a.slot = .pending then .active else a.slot }

theorem step_cases {act : LockdownAct} (h : a.step act = some b) : a.Steps act b := by
  cases act with
  | engage =>
    simp only [step] at h
    split at h
    · next hstage => exact Option.some.inj h ▸ .engage (Or.inl hstage)
    · next hstage => exact Option.some.inj h ▸ .engage (Or.inr ⟨_, hstage⟩)
    · cases h
  | observe =>
    obtain ⟨⟨hstage, hslot⟩, hb⟩ := Option.ite_none_right_eq_some.mp h
    exact Option.some.inj hb ▸ .observe hstage hslot
  | pumpSend =>
    simp only [step] at h
    split at h
    · cases h
    · next hqueued => exact Option.some.inj h ▸ .pumpSend hqueued
  | relayReceive =>
    simp only [step] at h
    split at h
    · cases h
    · next m rest hupstream =>
      cases m with
      | assign =>
        rw [receive_assign] at h
        exact Option.some.inj h ▸ .relayAssign hupstream
      | close => exact Option.some.inj h ▸ .relayClose hupstream
  | pumpReceive =>
    simp only [step] at h
    split at h
    · cases h
    · next hacks => exact Option.some.inj h ▸ .pumpReceive hacks
  | timeout | abandon | sendClose | closeLocal =>
    obtain ⟨hstage, hb⟩ := Option.ite_none_right_eq_some.mp h
    obtain rfl := Option.some.inj hb
    constructor
    exact hstage

theorem mem_inFlight_pumpSend {m x : LockdownMessage} {rest : List LockdownMessage} (h : a.queued = m :: rest) :
    x ∈ rest ++ (a.upstream ++ [m]) ↔ x ∈ a.inFlight := by
  simp only [inFlight, h, List.mem_append, List.mem_cons, List.not_mem_nil, or_false]
  tauto

theorem Proposed.send (ha : a.Proposed) (m : LockdownMessage) (next : EngageStage) :
    (a.send m next).Proposed := by
  rcases send_cases a m next with hsend | hsend
  · rw [hsend]
    refine ha.imp_left ?_
    intro hmem
    rcases List.mem_append.mp hmem with hmem | hmem <;> simp [inFlight, hmem]
  · rw [hsend]
    exact ha

theorem proposed_step {act : LockdownAct} (h : a.step act = some b) (ha : a.Proposed) :
    b.Proposed := by
  cases step_cases h with
  | engage =>
    rcases propose_cases a with ⟨ending, heq⟩ | ⟨-, heq⟩
    · exact heq ▸ ha
    · have hpending : Proposed { a with slot := .pending } := ha
      exact heq ▸ hpending.send .assign .waiting
  | sendClose => exact ha.send .close .closing
  | pumpSend hqueued => exact ha.imp_left (mem_inFlight_pumpSend hqueued).mpr
  | relayAssign => exact Or.inr rfl
  | relayClose hupstream =>
    refine ha.imp_left ?_
    simp [inFlight, hupstream]
  | _ => exact ha

namespace Inv

/-- Narrowing starts only behind an active context, so a client without one has both
ends open and no close under way. -/
theorem not_narrowed (ha : a.Inv) (h : a.slot ≠ .active ∨ a.Undecided) : ¬ a.Narrowed := by
  intro hnarrowed
  rcases h with hslot | hundecided
  · exact hslot (ha.narrowed hnarrowed).1
  · exact (ha.narrowed hnarrowed).2 hundecided

theorem returned (ha : a.Inv) (ending : EngageEnding) :
    Inv { a with stage := .returned ending } where
  bound := ha.bound
  narrowed hn := ⟨(ha.narrowed hn).1, by simp [Undecided]⟩
  confirmed := by simp
  proposed := by simp [Undecided]

theorem propose (ha : a.Inv) : a.propose.Inv := by
  rcases propose_cases a with ⟨ending, heq⟩ | ⟨hslot, heq⟩
  · exact heq ▸ ha.returned ending
  · have hopen : ¬ a.Narrowed := ha.not_narrowed (Or.inl (by simp [hslot]))
    have hbound : 0 < a.acks → a.relayBound = true := fun h => ha.bound (Or.inr h)
    rcases send_cases { a with slot := .pending } .assign .waiting with hsend | hsend
    · rw [heq, hsend]
      refine ⟨by simpa using hbound, ?_, by simp, fun _ => Or.inl (by simp [inFlight])⟩
      intro hnarrowed
      refine absurd ?_ hopen
      simpa [Narrowed, inFlight] using hnarrowed
    · rw [heq, hsend]
      exact ⟨by simpa using hbound, fun hnarrowed => absurd hnarrowed hopen, by simp,
        by simp [Undecided]⟩

theorem sendClose (ha : a.Inv) (hstage : a.stage = .acknowledged) :
    (a.send .close .closing).Inv := by
  have hslot : a.slot = .active := ha.confirmed (Or.inl hstage)
  rcases send_cases a .close .closing with hsend | hsend
  · rw [hsend]
    exact ⟨ha.bound, fun _ => ⟨hslot, by simp [Undecided]⟩, fun _ => hslot, by simp [Undecided]⟩
  · exact hsend ▸ ha.returned .queueFull

theorem assign (ha : a.Inv) {rest : List LockdownMessage} (hm : a.upstream = .assign :: rest) :
    Inv { a with
      upstream := rest, relayBound := true, acks := if a.relayBound then a.acks else a.acks + 1 } := by
  have hnarrowed : (a.clientOpen = false ∨ a.relayOpen = false ∨ .close ∈ a.queued ++ rest) →
      a.Narrowed := by
    simp [Narrowed, inFlight, hm]
  refine ⟨fun _ => rfl, ?_, ha.confirmed, fun _ => Or.inr rfl⟩
  intro hn
  exact ha.narrowed (hnarrowed hn)

theorem close (ha : a.Inv) {rest : List LockdownMessage} (hm : a.upstream = .close :: rest) :
    Inv { a with upstream := rest, relayOpen := false } := by
  have hclosing : a.slot = .active ∧ ¬ a.Undecided := by
    apply ha.narrowed
    exact Or.inr (Or.inr (by simp [inFlight, hm]))
  exact ⟨ha.bound, fun _ => hclosing, ha.confirmed, fun h => absurd h hclosing.2⟩

theorem acked (ha : a.Inv) {acks : Nat} (hacks : a.acks = acks + 1) :
    Inv { a with acks, slot := if a.slot = .pending then .active else a.slot } := by
  have hbound : a.relayBound = true := ha.bound (Or.inr (by omega))
  have hactive : a.slot = .active → (if a.slot = .pending then .active else a.slot) = .active := by
    intro hslot
    simp [hslot]
  refine ⟨fun _ => hbound, ?_, ?_, ha.proposed⟩
  · intro hn
    exact ⟨hactive (ha.narrowed hn).1, (ha.narrowed hn).2⟩
  · intro hstage
    exact hactive (ha.confirmed hstage)

end Inv

theorem inv_step {act : LockdownAct} (h : a.step act = some b) (ha : a.Inv) : b.Inv := by
  cases step_cases h with
  | engage => exact ha.propose
  | observe hstage hslot =>
    refine ⟨ha.bound, ?_, fun _ => hslot, by simp [Undecided]⟩
    intro _
    exact ⟨hslot, by simp [Undecided]⟩
  | timeout hstage =>
    have hwaiting : a.Undecided := Or.inl hstage
    refine ⟨ha.bound, ?_, by simp, fun _ => ha.proposed hwaiting⟩
    intro hn
    exact absurd hn (ha.not_narrowed (Or.inr hwaiting))
  | abandon hstage =>
    refine ⟨?_, ?_, by simp, by simp [Undecided]⟩
    · intro hacks
      exact ha.bound (Or.inr (by simpa using hacks))
    · intro hn
      exact absurd hn (ha.not_narrowed (Or.inr (Or.inr hstage)))
  | sendClose hstage => exact ha.sendClose hstage
  | closeLocal hstage =>
    refine ⟨ha.bound, ?_, by simp, by simp [Undecided]⟩
    intro _
    exact ⟨ha.confirmed (Or.inr hstage), by simp [Undecided]⟩
  | pumpSend hqueued =>
    refine ⟨ha.bound, ?_, ha.confirmed, ?_⟩
    · intro hn
      exact ha.narrowed (hn.imp_right (Or.imp_right (mem_inFlight_pumpSend hqueued).mp))
    · intro hundecided
      exact (ha.proposed hundecided).imp_left (mem_inFlight_pumpSend hqueued).mpr
  | relayAssign hupstream => exact ha.assign hupstream
  | relayClose hupstream => exact ha.close hupstream
  | pumpReceive hacks => exact ha.acked hacks

theorem inv_run {acts : List LockdownAct} (h : Run (Fires step) initial acts a) : a.Inv :=
  h.invariant Inv (fun _ _ _ ha hstep => inv_step hstep ha) inv_initial

/-- A call that gave up leaves its proposal with the relay or on the way there. -/
theorem proposed_of_abandon {acts : List LockdownAct} (h : Run (Fires step) initial acts a)
    (habandon : .abandon ∈ acts) : a.Proposed := by
  induction h with
  | nil => simp at habandon
  | @snoc c a as act hrun hlast ih =>
    refine proposed_step hlast ?_
    rcases List.mem_append.mp habandon with hmem | hmem
    · exact ih hmem
    · obtain rfl := List.mem_singleton.mp hmem
      cases step_cases hlast with
      | abandon hstage => exact (inv_run hrun).proposed (Or.inr hstage)

end Negotiation

end Straw
