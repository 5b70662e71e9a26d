import Straw.P2p.Candidates
import Straw.P2p.PathWatch

/-!
# A peer session and its paths

`manage` first offers the peer the addresses at which a direct path may be tried, unless
there is nothing to gain, and then runs its loop: punch, promote, watch, fall back. The
relay path is put on hold only after the direct path was made available, and made available
again before the direct path is put on hold.
-/

namespace Straw

open Transition
set_option autoImplicit false

namespace PathConn

/-- The path is there or was abandoned; its id does not come back. -/
def Seen (c : PathConn) (id : PathId) : Prop := c.path id = none → c.abandoned id = true

/-- Whatever has been seen is as it was, or gone. -/
def Keeps (c c' : PathConn) : Prop :=
  ∀ id, c.Seen id → c'.Seen id ∧ (c'.path id = none ∨ c'.path id = c.path id)

variable (c : PathConn) (id : PathId) (status : PathStatus)

theorem setStatus_self :
    (c.setStatus id status).path id = none ∨ (c.setStatus id status).path id = some status := by
  unfold setStatus
  split
  · exact Or.inl ‹_›
  · exact Or.inr (Table.insert_self _ _ _)

variable {id}

theorem setStatus_of_ne {id' : PathId} (h : id' ≠ id) :
    (c.setStatus id status).path id' = c.path id' := by
  unfold setStatus
  split
  · rfl
  · exact Table.insert_of_ne _ _ h

theorem setStatus_seen {id' : PathId} (h : c.Seen id') : (c.setStatus id status).Seen id' := by
  intro hnone
  rw [setStatus_abandoned]
  refine h ?_
  by_cases heq : id' = id
  · subst heq
    unfold setStatus at hnone
    split at hnone
    · exact hnone
    · simp at hnone
  · rwa [setStatus_of_ne c status heq] at hnone

end PathConn

namespace ManageStage

/-- What the manager has done to the statuses of its paths where it stands. -/
def Holds (c : PathConn) : ManageStage → Prop
  | .head | .fallBack | .backoff => c.path PathId.zero ≠ some .backup
  | .punch events => c.path PathId.zero ≠ some .backup ∧
      ∀ id, .event (.established id) ∈ events → c.Seen id
  | .promote direct => c.path PathId.zero ≠ some .backup ∧ direct ≠ PathId.zero ∧ c.Seen direct
  | .holdRelay direct => c.path PathId.zero ≠ some .backup ∧ direct ≠ PathId.zero ∧
      c.Seen direct ∧ c.path direct ≠ some .backup
  | .announce direct | .engage direct | .subscribe direct | .watch direct _ | .lost direct
  | .restoreRelay direct => c.path PathId.zero ≠ some .available ∧ direct ≠ PathId.zero ∧
      c.Seen direct ∧ c.path direct ≠ some .backup
  | .demote direct => c.path PathId.zero ≠ some .backup ∧ direct ≠ PathId.zero
  | .ended => True

/-- What the session shows to the application where the manager stands. -/
def Shows (state : PathState) (directPath : Option PathId) : ManageStage → Prop
  | .head | .backoff => state = .relay ∧ directPath = none
  | .punch _ | .promote _ | .holdRelay _ | .announce _ => state = .punching ∧ directPath = none
  | .engage direct | .subscribe direct | .watch direct _ | .lost direct =>
    state = .direct ∧ directPath = some direct
  | .restoreRelay _ | .demote _ => state = .direct ∧ directPath = none
  | .fallBack => state ≠ .relay ∧ directPath = none
  | .ended => True

/-- The direct path that the manager has promoted and not given up. -/
def inUse : ManageStage → Option PathId
  | .holdRelay direct | .announce direct | .engage direct | .subscribe direct | .watch direct _
  | .lost direct | .restoreRelay direct => some direct
  | _ => none

variable {c c' : PathConn} {stage : ManageStage}

theorem Holds.usable (h : stage.Holds c) (hstage : stage ≠ .ended) :
    c.path PathId.zero ≠ some .backup ∨
      ∃ direct, stage.inUse = some direct ∧ direct ≠ PathId.zero ∧ c.path direct ≠ some .backup := by
  cases stage with
  | head | fallBack | backoff => exact Or.inl h
  | punch | promote | demote => exact Or.inl h.1
  | holdRelay direct | announce direct | engage direct | subscribe direct | watch direct events
  | lost direct | restoreRelay direct => exact Or.inr ⟨direct, rfl, h.2.1, h.2.2.2⟩
  | ended => exact absurd rfl hstage

theorem Holds.keep (h : stage.Holds c) (hrelay : c.Seen PathId.zero) (hkeep : c.Keeps c') :
    stage.Holds c' := by
  have hstill : ∀ {id status}, c.Seen id → c.path id ≠ some status → c'.path id ≠ some status := by
    intro id status hseen hne heq
    rcases (hkeep id hseen).2 with hgone | hsame
    · rw [hgone] at heq
      cases heq
    · exact hne (hsame ▸ heq)
  cases stage with
  | head | fallBack | backoff => exact hstill hrelay h
  | punch events => exact ⟨hstill hrelay h.1, fun id hid => (hkeep id (h.2 id hid)).1⟩
  | promote direct => exact ⟨hstill hrelay h.1, h.2.1, (hkeep direct h.2.2).1⟩
  | holdRelay direct | announce direct | engage direct | subscribe direct | watch direct events
  | lost direct | restoreRelay direct =>
    obtain ⟨hzero, hne, hseen, hdirect⟩ := h
    exact ⟨hstill hrelay hzero, hne, (hkeep direct hseen).1, hstill hseen hdirect⟩
  | demote direct => exact ⟨hstill hrelay h.1, h.2⟩
  | ended => trivial

theorem Shows.of_relay {state : PathState} {directPath : Option PathId}
    (h : stage.Shows state directPath) (hholds : stage.Holds c) (hstage : stage ≠ .ended)
    (hstate : state = .relay) : directPath = none ∧ c.path PathId.zero ≠ some .backup := by
  subst hstate
  cases stage with
  | head | backoff => exact ⟨h.2, hholds⟩
  | fallBack => exact absurd rfl h.1
  | ended => exact absurd rfl hstage
  | _ => cases h.1

theorem Shows.of_direct {state : PathState} {directPath : Option PathId} {direct : PathId}
    (h : stage.Shows state directPath) (hholds : stage.Holds c) (hstage : stage ≠ .ended)
    (hdirect : directPath = some direct) :
    state = .direct ∧ direct ≠ PathId.zero ∧ c.path direct ≠ some .backup ∧
      c.path PathId.zero ≠ some .available := by
  subst hdirect
  cases stage with
  | engage | subscribe | watch | lost =>
    obtain rfl := Option.some.inj h.2
    exact ⟨h.1, hholds.2.1, hholds.2.2.2, hholds.1⟩
  | ended => exact absurd rfl hstage
  | _ => cases h.2

theorem Holds.deliver (h : stage.Holds c) (e : PathEvent)
    (hseen : ∀ id, e = .established id → c.Seen id) : (stage.deliver e).Holds c := by
  cases stage with
  | punch events =>
    refine ⟨h.1, ?_⟩
    intro id hid
    rcases List.mem_append.mp hid with hold | hnew
    · exact h.2 id hold
    · rw [List.mem_singleton, Notice.event.injEq] at hnew
      exact hseen id hnew.symm
  | _ => exact h

theorem shows_deliver {state : PathState} {directPath : Option PathId} (e : PathEvent)
    (h : stage.Shows state directPath) : (stage.deliver e).Shows state directPath := by
  cases stage <;> exact h

theorem Holds.lag (h : stage.Holds c) (dropped : Nat) : (stage.lag dropped).Holds c := by
  cases stage with
  | punch events =>
    refine ⟨h.1, ?_⟩
    intro id hid
    rcases List.mem_cons.mp hid with hlagged | hkept
    · cases hlagged
    · exact h.2 id (List.mem_of_mem_drop hkept)
  | _ => exact h

theorem shows_lag {state : PathState} {directPath : Option PathId} (dropped : Nat)
    (h : stage.Shows state directPath) : (stage.lag dropped).Shows state directPath := by
  cases stage <;> exact h

end ManageStage

namespace Manager

structure Sane (m : Manager) : Prop where
  relay : m.conn.Seen PathId.zero
  holds : m.stage.Holds m.conn
  shows_ : m.stage.Shows m.state m.directPath

variable {m m' : Manager}

theorem Sane.advance (h : m.Sane) (hstep : m.advance = some m') : m'.Sane := by
  obtain ⟨lockdown, conn, stage, state, directPath⟩ := m
  obtain ⟨hrelay, hholds, hshows⟩ := h
  cases stage with
  | head =>
    obtain rfl := Option.some.inj hstep
    exact ⟨hrelay, ⟨hholds, fun id hid => absurd hid List.not_mem_nil⟩, rfl, hshows.2⟩
  | promote direct =>
    obtain rfl := Option.some.inj hstep
    obtain ⟨hzero, hne, hseen⟩ := hholds
    refine ⟨conn.setStatus_seen _ hrelay, ⟨?_, hne, conn.setStatus_seen _ hseen, ?_⟩, hshows⟩
    · rw [conn.setStatus_of_ne _ (Ne.symm hne)]
      exact hzero
    · rcases conn.setStatus_self direct .available with hgone | hset <;> simp [*]
  | holdRelay direct =>
    obtain rfl := Option.some.inj hstep
    obtain ⟨-, hne, hseen, hdirect⟩ := hholds
    refine ⟨conn.setStatus_seen _ hrelay, ⟨?_, hne, conn.setStatus_seen _ hseen, ?_⟩, hshows⟩
    · rcases conn.setStatus_self PathId.zero .backup with hgone | hset <;> simp [*]
    · rw [conn.setStatus_of_ne _ hne]
      exact hdirect
  | announce direct =>
    obtain rfl := Option.some.inj hstep
    cases lockdown with
    | true => exact ⟨hrelay, hholds, rfl, rfl⟩
    | false => exact ⟨hrelay, hholds, rfl, rfl⟩
  | subscribe direct =>
    obtain rfl := Option.some.inj hstep
    exact ⟨hrelay, hholds, hshows⟩
  | lost direct =>
    obtain rfl := Option.some.inj hstep
    exact ⟨hrelay, hholds, hshows.1, rfl⟩
  | restoreRelay direct =>
    obtain rfl := Option.some.inj hstep
    refine ⟨conn.setStatus_seen _ hrelay, ⟨?_, hholds.2.1⟩, hshows⟩
    rcases conn.setStatus_self PathId.zero .available with hgone | hset <;> simp [*]
  | demote direct =>
    obtain rfl := Option.some.inj hstep
    have hstate : state ≠ .relay := by
      rw [show state = .direct from hshows.1]
      decide
    refine ⟨conn.setStatus_seen _ hrelay, ?_, hstate, hshows.2⟩
    show (conn.setStatus direct .backup).path PathId.zero ≠ some .backup
    rw [conn.setStatus_of_ne _ (Ne.symm hholds.2)]
    exact hholds.1
  | fallBack =>
    obtain rfl := Option.some.inj hstep
    exact ⟨hrelay, hholds, rfl, hshows.2⟩
  | punch | engage | watch | backoff | ended => cases hstep

theorem Sane.next (h : m.Sane) (hstep : m.step .next = some m') : m'.Sane := by
  obtain ⟨lockdown, conn, stage, state, directPath⟩ := m
  obtain ⟨hrelay, hholds, hshows⟩ := h
  cases stage with
  | punch events =>
    cases events with
    | nil => cases hstep
    | cons n events =>
      obtain rfl := Option.some.inj hstep
      have hrest : ManageStage.Holds conn (.punch events) :=
        ⟨hholds.1, fun id hid => hholds.2 id (List.mem_cons_of_mem n hid)⟩
      refine ⟨hrelay, ?_, ?_⟩
      · show (ManageStage.punchNext events n).Holds conn
        unfold ManageStage.punchNext
        split
        · rename_i id
          split
          · rename_i hne
            exact ⟨hholds.1, hne, hholds.2 id List.mem_cons_self⟩
          · exact hrest
        · exact hrest
      · show (ManageStage.punchNext events n).Shows state directPath
        unfold ManageStage.punchNext
        split
        · split <;> exact hshows
        · exact hshows
  | watch direct events =>
    cases events with
    | nil => cases hstep
    | cons n events =>
      obtain rfl := Option.some.inj hstep
      refine ⟨hrelay, ?_, ?_⟩
      · show (ManageStage.watchNext conn direct events n).Holds conn
        unfold ManageStage.watchNext
        split
        · split <;> exact hholds
        · split <;> exact hholds
        · exact hholds
      · show (ManageStage.watchNext conn direct events n).Shows state directPath
        unfold ManageStage.watchNext
        split
        · split <;> exact hshows
        · split <;> exact hshows
        · exact hshows
  | _ => cases hstep

theorem keeps_establish {c : PathConn} {id : PathId} {status : PathStatus}
    (hpath : c.path id = none) (habandoned : c.abandoned id = false) :
    c.Keeps { c with path := c.path.insert id status } := by
  intro id' hseen
  have hne : id' ≠ id := by
    rintro rfl
    rw [hseen hpath] at habandoned
    cases habandoned
  refine ⟨?_, Or.inr (Table.insert_of_ne _ _ hne)⟩
  intro hnone
  exact hseen ((Table.insert_of_ne c.path status hne).symm.trans hnone)

theorem keeps_abandon (c : PathConn) (id : PathId) :
    c.Keeps { c with abandoned := Function.update c.abandoned id true } := by
  intro id' hseen
  refine ⟨?_, Or.inr rfl⟩
  intro hnone
  by_cases heq : id' = id
  · simp [heq]
  · simpa [Function.update_of_ne heq] using hseen hnone

theorem keeps_discard {c : PathConn} {id : PathId} (habandoned : c.abandoned id = true) :
    c.Keeps { c with path := c.path.remove id } := by
  intro id' hseen
  by_cases heq : id' = id
  · subst heq
    exact ⟨fun _ => habandoned, Or.inl (Table.remove_self _ _)⟩
  · refine ⟨?_, Or.inr (Table.remove_of_ne _ heq)⟩
    intro hnone
    exact hseen ((Table.remove_of_ne c.path heq).symm.trans hnone)

/-- A step of the connection. -/
theorem Sane.keep (h : m.Sane) {c : PathConn} (hkeep : m.conn.Keeps c) :
    Sane { m with conn := c } :=
  ⟨(hkeep _ h.relay).1, h.holds.keep h.relay hkeep, h.shows_⟩

theorem Sane.step (h : m.Sane) {act : ManageAct} (hstep : m.step act = some m') : m'.Sane := by
  cases act with
  | advance => exact h.advance hstep
  | next => exact h.next hstep
  | punchFails =>
    obtain ⟨lockdown, conn, stage, state, directPath⟩ := m
    obtain ⟨hrelay, hholds, hshows⟩ := h
    cases stage with
    | punch events =>
      obtain rfl := Option.some.inj hstep
      have hstate : state ≠ .relay := by
        rw [show state = .punching from hshows.1]
        decide
      exact ⟨hrelay, hholds.1, hstate, hshows.2⟩
    | _ => cases hstep
  | engageReturns =>
    obtain ⟨lockdown, conn, stage, state, directPath⟩ := m
    obtain ⟨hrelay, hholds, hshows⟩ := h
    cases stage with
    | engage direct =>
      obtain rfl := Option.some.inj hstep
      exact ⟨hrelay, hholds, hshows⟩
    | _ => cases hstep
  | closedSeen =>
    obtain ⟨lockdown, conn, stage, state, directPath⟩ := m
    obtain ⟨hrelay, hholds, hshows⟩ := h
    simp only [Manager.step] at hstep
    split at hstep
    · obtain rfl := Option.some.inj hstep
      exact ⟨hrelay, hholds, hshows⟩
    · obtain rfl := Option.some.inj hstep
      exact ⟨hrelay, trivial, trivial⟩
    · cases hstep
  | retry =>
    obtain ⟨lockdown, conn, stage, state, directPath⟩ := m
    obtain ⟨hrelay, hholds, hshows⟩ := h
    cases stage with
    | backoff =>
      obtain rfl := Option.some.inj hstep
      exact ⟨hrelay, hholds, hshows⟩
    | _ => cases hstep
  | drop =>
    obtain rfl := Option.some.inj hstep
    exact ⟨h.relay, trivial, trivial⟩
  | establish id status =>
    simp only [Manager.step] at hstep
    split at hstep
    · rename_i henabled
      obtain rfl := Option.some.inj hstep
      have hkeep := h.keep (@keeps_establish m.conn id status henabled.2.1 henabled.2.2)
      refine ⟨hkeep.relay, hkeep.holds.deliver _ ?_, ManageStage.shows_deliver _ hkeep.shows_⟩
      intro id' heq hnone
      cases heq
      simp at hnone
    · cases hstep
  | abandon id =>
    simp only [Manager.step] at hstep
    split at hstep
    · obtain rfl := Option.some.inj hstep
      have hkeep := h.keep (keeps_abandon m.conn id)
      refine ⟨hkeep.relay, hkeep.holds.deliver _ ?_, ManageStage.shows_deliver _ hkeep.shows_⟩
      intro id' heq
      cases heq
    · cases hstep
  | discard id =>
    simp only [Manager.step] at hstep
    split at hstep
    · rename_i habandoned
      obtain rfl := Option.some.inj hstep
      exact h.keep (keeps_discard habandoned)
    · cases hstep
  | close =>
    obtain rfl := Option.some.inj hstep
    exact h.keep fun id hseen => ⟨hseen, Or.inr rfl⟩
  | lag dropped =>
    obtain rfl := Option.some.inj hstep
    exact ⟨h.relay, h.holds.lag dropped, ManageStage.shows_lag dropped h.shows_⟩

end Manager

/-! The whole of `manage` -/

inductive SessionPhase where
  /-- The addresses that noq has still to be given. -/
  | advertising (rest : List SocketAddr)
  /-- The session stays on the relay path and waits for the connection to close. -/
  | pinned
  | managing
deriving DecidableEq

structure PeerSession where
  advertised : List SocketAddr
  phase : SessionPhase
  manager : Manager

inductive SessionAct where
  | advertise (ok : Bool)
  | manage (act : ManageAct)

/-- What happens to the connection or the session from outside. -/
def ManageAct.external : ManageAct → Bool
  | .drop | .establish _ _ | .abandon _ | .discard _ | .close => true
  | _ => false

namespace PeerSession

def start (offer : Option (List SocketAddr)) (lockdown : Bool) (conn : PathConn) : PeerSession where
  advertised := []
  phase := match offer with
    | none => .pinned
    | some addrs => .advertising addrs
  manager := .initial lockdown conn

def step (s : PeerSession) : SessionAct → Option PeerSession
  | .advertise ok =>
    match s.phase with
    | .advertising [] => some { s with phase := .managing }
    | .advertising (a :: rest) =>
      if ok then some { s with advertised := s.advertised ++ [a], phase := .advertising rest }
      else some { s with phase := .pinned }
    | _ => none
  | .manage act =>
    if s.phase = .managing ∨ act.external = true then
      (s.manager.step act).map fun manager => { s with manager }
    else none

/-- The manager has not entered its loop. -/
structure Resting (m : Manager) : Prop where
  stage : m.stage = .head ∨ m.stage = .ended
  relayed : m.state = .relay ∧ m.directPath = none
  relay : m.conn.path PathId.zero ≠ some .backup

structure Sound (offer : Option (List SocketAddr)) (s : PeerSession) : Prop where
  sane : s.manager.Sane
  resting : s.phase ≠ .managing → Resting s.manager
  pinned : offer = none → s.phase = .pinned
  offered : ∀ a ∈ s.advertised, ∃ addrs, offer = some addrs ∧ a ∈ addrs
  left : ∀ rest, s.phase = .advertising rest → ∀ a ∈ rest, ∃ addrs, offer = some addrs ∧ a ∈ addrs

variable {offer : Option (List SocketAddr)} {s s' : PeerSession}

theorem Resting.external {m m' : Manager} {act : ManageAct} (h : Resting m) (hsane : m.Sane)
    (hact : act.external = true) (hstep : m.step act = some m') : Resting m' := by
  have hstage : ∀ e, m.stage.deliver e = m.stage := by
    intro e
    rcases h.stage with hhead | hended
    · rw [hhead]
      rfl
    · rw [hended]
      rfl
  have hrelay : ∀ {c}, m.conn.Keeps c → c.path PathId.zero ≠ some .backup := by
    intro c hkeep heq
    rcases (hkeep _ hsane.relay).2 with hgone | hsame
    · rw [hgone] at heq
      cases heq
    · exact h.relay (hsame ▸ heq)
  cases act with
  | drop =>
    obtain rfl := Option.some.inj hstep
    exact ⟨Or.inr rfl, h.relayed, h.relay⟩
  | establish id status =>
    simp only [Manager.step] at hstep
    split at hstep
    · rename_i henabled
      obtain rfl := Option.some.inj hstep
      exact ⟨by rw [hstage]; exact h.stage, h.relayed,
        hrelay (Manager.keeps_establish henabled.2.1 henabled.2.2)⟩
    · cases hstep
  | abandon id =>
    simp only [Manager.step] at hstep
    split at hstep
    · obtain rfl := Option.some.inj hstep
      exact ⟨by rw [hstage]; exact h.stage, h.relayed, h.relay⟩
    · cases hstep
  | discard id =>
    simp only [Manager.step] at hstep
    split at hstep
    · rename_i habandoned
      obtain rfl := Option.some.inj hstep
      exact ⟨h.stage, h.relayed, hrelay (Manager.keeps_discard habandoned)⟩
    · cases hstep
  | close =>
    obtain rfl := Option.some.inj hstep
    exact ⟨h.stage, h.relayed, h.relay⟩
  | _ => cases hact

theorem Sound.step (h : s.Sound offer) {act : SessionAct} (hstep : s.step act = some s') :
    s'.Sound offer := by
  cases act with
  | advertise ok =>
    simp only [PeerSession.step] at hstep
    split at hstep
    · rename_i hphase
      obtain rfl := Option.some.inj hstep
      refine ⟨h.sane, fun hne => absurd rfl hne, ?_, h.offered, fun rest hrest => by cases hrest⟩
      intro hnone
      rw [h.pinned hnone] at hphase
      cases hphase
    · rename_i a rest hphase
      have hresting := h.resting (by rw [hphase]; exact SessionPhase.noConfusion)
      have hleft := h.left _ hphase
      split at hstep
      · obtain rfl := Option.some.inj hstep
        refine ⟨h.sane, fun _ => hresting, ?_, ?_, ?_⟩
        · intro hnone
          rw [h.pinned hnone] at hphase
          cases hphase
        · intro b hb
          rcases List.mem_append.mp hb with hold | hnew
          · exact h.offered b hold
          · exact hleft b (List.mem_cons.mpr (Or.inl (List.mem_singleton.mp hnew)))
        · intro rest' hrest b hb
          cases hrest
          exact hleft b (List.mem_cons_of_mem a hb)
      · obtain rfl := Option.some.inj hstep
        exact ⟨h.sane, fun _ => hresting, fun _ => rfl, h.offered, fun rest hrest => by cases hrest⟩
    · cases hstep
  | manage act =>
    simp only [PeerSession.step] at hstep
    split at hstep
    · rename_i henabled
      obtain ⟨manager, hmanager, rfl⟩ := Option.map_eq_some_iff.mp hstep
      refine ⟨h.sane.step hmanager, ?_, h.pinned, h.offered, h.left⟩
      intro hphase
      exact (h.resting hphase).external h.sane (henabled.resolve_left hphase) hmanager
    · cases hstep

theorem sound_run {lockdown : Bool} {conn : PathConn} {acts : List SessionAct}
    (hrelay : conn.path PathId.zero = some .available)
    (h : Run (Fires step) (start offer lockdown conn) acts s) : s.Sound offer := by
  have hup : conn.path PathId.zero ≠ some .backup := by
    rw [hrelay]
    decide
  refine h.invariant (Sound offer) (fun _ _ _ hs hstep => hs.step hstep) ?_
  refine ⟨⟨?_, hup, rfl, rfl⟩, fun _ => ⟨Or.inl rfl, ⟨rfl, rfl⟩, hup⟩, ?_,
    fun a ha => absurd ha List.not_mem_nil, ?_⟩
  · intro hnone
    change conn.path PathId.zero = none at hnone
    rw [hrelay] at hnone
    cases hnone
  · rintro rfl
    rfl
  · intro rest hrest a ha
    cases offer with
    | none => cases hrest
    | some addrs =>
      cases hrest
      exact ⟨_, rfl, ha⟩

end PeerSession

section Runs

variable {env : PunchEnv} {cfg : PunchConfig} {inputs : PunchInputs} {multipath lockdown : Bool}
  {conn : PathConn} {acts : List SessionAct} {s : PeerSession}

/-- In every state of a session that starts on its relay path:

- what it has told the peer about itself is what the configuration lets it tell, and
  nothing if it is not to punch; then it also stays on the relay path for good;
- until the manager ends, the relay path and the direct path it promoted are not both on
  hold, the state `Relay` is shown only with the relay path available or gone, and a direct
  path is shown only with that path available or gone and the relay on hold or gone. -/
theorem session_paths (hrelay : conn.path PathId.zero = some .available)
    (h : Run (Fires PeerSession.step) (.start (env.offer cfg inputs multipath) lockdown conn)
      acts s) :
    (∀ a ∈ s.advertised, env.Discloses cfg inputs a) ∧
    (env.offer cfg inputs multipath = none → s.advertised = [] ∧ s.manager.state = .relay ∧
      s.manager.directPath = none ∧ s.manager.conn.path PathId.zero ≠ some .backup) ∧
    (s.manager.stage ≠ .ended →
      (s.manager.conn.path PathId.zero ≠ some .backup ∨
        ∃ direct, s.manager.stage.inUse = some direct ∧ direct ≠ PathId.zero ∧
          s.manager.conn.path direct ≠ some .backup) ∧
      (s.manager.state = .relay → s.manager.directPath = none ∧
        s.manager.conn.path PathId.zero ≠ some .backup) ∧
      ∀ direct, s.manager.directPath = some direct → s.manager.state = .direct ∧
        direct ≠ PathId.zero ∧ s.manager.conn.path direct ≠ some .backup ∧
        s.manager.conn.path PathId.zero ≠ some .available) := by
  have hsound := PeerSession.sound_run hrelay h
  refine ⟨?_, ?_, ?_⟩
  · intro a ha
    obtain ⟨addrs, hoffer, hmem⟩ := hsound.offered a ha
    rw [PunchEnv.offer_eq_some hoffer] at hmem
    exact PunchEnv.discloses_of_mem hmem
  · intro hnone
    have hresting := hsound.resting (by rw [hsound.pinned hnone]; exact SessionPhase.noConfusion)
    refine ⟨?_, hresting.relayed.1, hresting.relayed.2, hresting.relay⟩
    refine List.eq_nil_iff_forall_not_mem.mpr fun a ha => ?_
    obtain ⟨addrs, hoffer, -⟩ := hsound.offered a ha
    rw [hnone] at hoffer
    cases hoffer
  · intro hstage
    obtain ⟨-, hholds, hshows⟩ := hsound.sane
    exact ⟨hholds.usable hstage, hshows.of_relay hholds hstage, fun _ => hshows.of_direct hholds hstage⟩

end Runs

/-- What a peer behind a cone NAT offers. -/
def testOffer : Option (List SocketAddr) :=
  PunchEnv.offer ⟨fun _ => none, fun _ => none, fun _ => .ok none⟩
    ⟨.basic, false, false, .reflexive, none⟩
    ⟨.v4 0#32 5000, some (.v4 0xcb007107#32 40000), .v4 0xcb007101#32 443⟩ true

theorem session_paths_punched :
    ∃ s, Run (Fires PeerSession.step) (.start testOffer true Manager.onRelay)
        ([.advertise true, .advertise true] ++ Manager.punched.map .manage) s ∧
      s.advertised = [.v4 0xcb007107#32 5000] ∧ s.manager.directPath = some 1 ∧
      s.manager.conn.path 1 ≠ some .backup ∧ s.manager.conn.path PathId.zero ≠ some .available := by
  have hexec : (exec PeerSession.step (.start testOffer true Manager.onRelay)
      ([.advertise true, .advertise true] ++ Manager.punched.map .manage)).map
        (fun s => (s.advertised, s.manager.directPath, s.manager.stage)) =
      some ([.v4 0xcb007107#32 5000], some 1, .engage 1) := by decide +kernel
  obtain ⟨s, hs, hview⟩ := Option.map_eq_some_iff.mp hexec
  simp only [Prod.mk.injEq] at hview
  obtain ⟨hadvertised, hdirect, hstage⟩ := hview
  have hpaths := session_paths rfl (run_of_exec hs)
  obtain ⟨-, -, hrest⟩ := hpaths
  obtain ⟨-, -, hshown⟩ := hrest (by rw [hstage]; exact ManageStage.noConfusion)
  obtain ⟨-, -, hup, hheld⟩ := hshown 1 hdirect
  exact ⟨s, run_of_exec hs, hadvertised, hdirect, hup, hheld⟩

end Straw
