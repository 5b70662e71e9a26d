import Straw.Lib.Run
import Straw.Lib.Table
import Mathlib.Logic.Function.Basic

/-!
# Watching the direct path

The manager of a peer session punches a direct path, promotes it, narrows the relay and
only then subscribes to the path events that tell when the direct path is lost. A
subscription gets the events fired after it was made; one that falls behind loses the
oldest of them. The connection establishes and abandons paths at any time.
-/

namespace Straw

open Transition
set_option autoImplicit false

abbrev PathId := Nat

def PathId.zero : PathId := 0

inductive PathStatus where
  | available
  | backup
deriving DecidableEq

inductive PathEvent where
  | established (id : PathId)
  | abandoned (id : PathId)
deriving DecidableEq

/-- What a subscription yields: an event, or the error that some were dropped. -/
inductive Notice where
  | event (e : PathEvent)
  | lagged
deriving DecidableEq

structure PathConn where
  closed : Bool
  path : Table PathId PathStatus
  abandoned : PathId → Bool

inductive PathState where
  | relay
  | punching
  | direct
deriving DecidableEq

/-- Where the loop of `manage` is; `events` is the unread part of its subscription. -/
inductive ManageStage where
  | head
  | punch (events : List Notice)
  | promote (direct : PathId)
  | holdRelay (direct : PathId)
  | announce (direct : PathId)
  | engage (direct : PathId)
  | subscribe (direct : PathId)
  | watch (direct : PathId) (events : List Notice)
  | lost (direct : PathId)
  | restoreRelay (direct : PathId)
  | demote (direct : PathId)
  | fallBack
  | backoff
  | ended
deriving DecidableEq

structure Manager where
  /-- Whether `inputs.mux.lockdown()` gives a lockdown to engage. -/
  lockdown : Bool
  conn : PathConn
  stage : ManageStage
  state : PathState
  directPath : Option PathId

inductive ManageAct where
  | advance
  | next
  /-- The timeout of the punch, or the end of its events. -/
  | punchFails
  | engageReturns
  /-- The branch of a select that waits for the connection to close. -/
  | closedSeen
  | retry
  /-- The session is dropped, which aborts its manager. -/
  | drop
  | establish (id : PathId) (status : PathStatus)
  | abandon (id : PathId)
  /-- An abandoned path can no longer be looked up. -/
  | discard (id : PathId)
  | close
  /-- The subscription at hand loses its oldest `dropped` notices. -/
  | lag (dropped : Nat)
deriving DecidableEq

/-- What may still end a watch that has missed its event. -/
def ManageAct.Rouses : ManageAct → Prop
  | .close | .drop | .lag _ => True
  | _ => False

/-- The `set_status` of the session module: a path that is gone is left alone. -/
def PathConn.setStatus (c : PathConn) (id : PathId) (status : PathStatus) : PathConn :=
  match c.path id with
  | none => c
  | some _ => { c with path := c.path.insert id status }

@[simp] theorem PathConn.setStatus_closed (c : PathConn) (id : PathId) (status : PathStatus) :
    (c.setStatus id status).closed = c.closed := by
  unfold setStatus
  split <;> rfl

@[simp] theorem PathConn.setStatus_abandoned (c : PathConn) (id : PathId)
    (status : PathStatus) : (c.setStatus id status).abandoned = c.abandoned := by
  unfold setStatus
  split <;> rfl

namespace ManageStage

def deliver (e : PathEvent) : ManageStage → ManageStage
  | punch events => punch (events ++ [.event e])
  | watch direct events => watch direct (events ++ [.event e])
  | stage => stage

def lag (dropped : Nat) : ManageStage → ManageStage
  | punch events => punch (.lagged :: events.drop dropped)
  | watch direct events => watch direct (.lagged :: events.drop dropped)
  | stage => stage

/-- One round of the loop in `punch`. -/
def punchNext (events : List Notice) : Notice → ManageStage
  | .event (.established id) => if id ≠ PathId.zero then promote id else punch events
  | _ => punch events

/-- One round of the loop in `await_path_lost`. -/
def watchNext (conn : PathConn) (direct : PathId) (events : List Notice) : Notice → ManageStage
  | .event (.abandoned id) => if id = direct then lost direct else watch direct events
  | .lagged => if conn.path direct = none then lost direct else watch direct events
  | _ => watch direct events

theorem deliver_watch {e : PathEvent} {stage : ManageStage} {direct : PathId}
    {events : List Notice} (h : stage.deliver e = watch direct events) :
    ∃ before, stage = watch direct before ∧ events = before ++ [.event e] := by
  cases stage <;> simp_all [deliver]

theorem lag_watch {dropped : Nat} {stage : ManageStage} {direct : PathId}
    {events : List Notice} (h : stage.lag dropped = watch direct events) :
    ∃ before, stage = watch direct before ∧ events = .lagged :: before.drop dropped := by
  cases stage <;> simp_all [lag]

theorem punchNext_ne_watch {events rest : List Notice} {n : Notice} {direct : PathId} :
    punchNext rest n ≠ watch direct events := by
  unfold punchNext
  split
  · split <;> simp
  · simp

theorem watchNext_watch {conn : PathConn} {direct direct' : PathId} {events rest : List Notice}
    {n : Notice} (h : watchNext conn direct rest n = watch direct' events) :
    direct' = direct ∧ events = rest ∧ n ≠ .event (.abandoned direct) := by
  unfold watchNext at h
  split at h
  · split at h
    · cases h
    · cases h
      exact ⟨rfl, rfl, by simpa⟩
  · split at h <;> cases h
    exact ⟨rfl, rfl, by simp⟩
  · rename_i hother _
    cases h
    exact ⟨rfl, rfl, fun hn => hother _ hn⟩

theorem watchNext_of_ne {conn : PathConn} {direct : PathId} {events : List Notice} {n : Notice}
    (habandoned : n ≠ .event (.abandoned direct)) (hlagged : n ≠ .lagged) :
    watchNext conn direct events n = watch direct events := by
  unfold watchNext
  split
  · rename_i id
    exact if_neg fun hid => habandoned (by rw [hid])
  · exact absurd rfl hlagged
  · rfl

end ManageStage

namespace Manager

def advance (m : Manager) : Option Manager :=
  match m.stage with
  | .head => some { m with state := .punching, stage := .punch [] }
  | .promote direct =>
    some { m with conn := m.conn.setStatus direct .available, stage := .holdRelay direct }
  | .holdRelay direct =>
    some { m with conn := m.conn.setStatus PathId.zero .backup, stage := .announce direct }
  | .announce direct =>
    some { m with
      directPath := some direct
      state := .direct
      stage := if m.lockdown then .engage direct else .subscribe direct }
  | .subscribe direct => some { m with stage := .watch direct [] }
  | .lost direct => some { m with directPath := none, stage := .restoreRelay direct }
  | .restoreRelay direct =>
    some { m with conn := m.conn.setStatus PathId.zero .available, stage := .demote direct }
  | .demote direct =>
    some { m with conn := m.conn.setStatus direct .backup, stage := .fallBack }
  | .fallBack => some { m with state := .relay, stage := .backoff }
  | _ => none

def step (m : Manager) : ManageAct → Option Manager
  | .advance => m.advance
  | .next =>
    match m.stage with
    | .punch (n :: events) => some { m with stage := .punchNext events n }
    | .watch direct (n :: events) => some { m with stage := .watchNext m.conn direct events n }
    | _ => none
  | .punchFails =>
    match m.stage with
    | .punch _ => some { m with stage := .fallBack }
    | _ => none
  | .engageReturns =>
    match m.stage with
    | .engage direct => some { m with stage := .subscribe direct }
    | _ => none
  | .closedSeen =>
    match m.conn.closed, m.stage with
    | true, .watch direct _ => some { m with stage := .lost direct }
    | true, .backoff => some { m with stage := .ended }
    | _, _ => none
  | .retry =>
    match m.stage with
    | .backoff => some { m with stage := .head }
    | _ => none
  | .drop => some { m with stage := .ended }
  | .establish id status =>
    -- path ids are not used again
    if m.conn.closed = false ∧ m.conn.path id = none ∧ m.conn.abandoned id = false then
      some { m with
        conn := { m.conn with path := m.conn.path.insert id status }
        stage := m.stage.deliver (.established id) }
    else none
  | .abandon id =>
    if m.conn.closed = false ∧ (m.conn.path id).isSome ∧ m.conn.abandoned id = false then
      some { m with
        conn := { m.conn with abandoned := Function.update m.conn.abandoned id true }
        stage := m.stage.deliver (.abandoned id) }
    else none
  | .discard id =>
    if m.conn.abandoned id then
      some { m with conn := { m.conn with path := m.conn.path.remove id } }
    else none
  | .close => some { m with conn := { m.conn with closed := true } }
  | .lag dropped => some { m with stage := m.stage.lag dropped }

/-- The manager at the head of its loop. -/
def initial (lockdown : Bool) (conn : PathConn) : Manager :=
  ⟨lockdown, conn, .head, .relay, none⟩

/-- The direct path is lost on an open connection, and the manager waits for an event
that is not in its subscription. -/
def Unnoticed (direct : PathId) (m : Manager) : Prop :=
  m.conn.closed = false ∧ m.conn.abandoned direct = true ∧
    ∃ events, m.stage = .watch direct events ∧ .event (.abandoned direct) ∉ events

/-- The manager subscribes before the path is abandoned, and a subscription that falls
behind does not lose the abandonment it waits for. -/
def InTime (m : Manager) : ManageAct → Prop
  | .advance =>
    match m.stage with
    | .subscribe direct => m.conn.closed = true ∨ m.conn.abandoned direct = false
    | _ => True
  | .lag dropped =>
    match m.stage with
    | .watch direct events => .event (.abandoned direct) ∉ events.take dropped
    | _ => True
  | _ => True

def Pending (m : Manager) : Prop :=
  ∀ direct events, m.stage = .watch direct events → m.conn.closed = false →
    m.conn.abandoned direct = true → .event (.abandoned direct) ∈ events

theorem advance_frame {m m' : Manager} (h : m.advance = some m') :
    m'.conn.closed = m.conn.closed ∧ m'.conn.abandoned = m.conn.abandoned ∧
      ∀ direct events, m'.stage = .watch direct events → m.stage = .subscribe direct := by
  unfold advance at h
  split at h <;> cases h <;> try simp_all
  -- the stage after the announcement depends on the lockdown
  split <;> simp

theorem Pending.advance {m m' : Manager} (htime : m.InTime .advance)
    (h : m.advance = some m') : m'.Pending := by
  obtain ⟨hclosed, habandoned, hstage⟩ := advance_frame h
  intro direct events hwatch hopen hgone
  rw [hclosed] at hopen
  rw [habandoned] at hgone
  simp [InTime, hstage direct events hwatch, hopen, hgone] at htime

theorem Pending.next {m m' : Manager} (hm : m.Pending) (h : m.step .next = some m') :
    m'.Pending := by
  simp only [step] at h
  intro direct events hwatch hopen hgone
  split at h
  · cases h
    exact absurd hwatch ManageStage.punchNext_ne_watch
  · rename_i n rest hstage
    cases h
    obtain ⟨rfl, rfl, hn⟩ := ManageStage.watchNext_watch hwatch
    exact List.mem_of_ne_of_mem hn.symm (hm _ _ hstage hopen hgone)
  · cases h

theorem Pending.establish {m m' : Manager} {id : PathId} {status : PathStatus} (hm : m.Pending)
    (h : m.step (.establish id status) = some m') : m'.Pending := by
  simp only [step] at h
  split at h
  · cases h
    intro direct events hwatch hopen hgone
    obtain ⟨before, hstage, rfl⟩ := ManageStage.deliver_watch hwatch
    exact List.mem_append_left _ (hm direct before hstage hopen hgone)
  · cases h

theorem Pending.abandon {m m' : Manager} {id : PathId} (hm : m.Pending)
    (h : m.step (.abandon id) = some m') : m'.Pending := by
  simp only [step] at h
  split at h
  · cases h
    intro direct events hwatch hopen hgone
    obtain ⟨before, hstage, rfl⟩ := ManageStage.deliver_watch hwatch
    by_cases hid : direct = id
    · exact List.mem_append_right _ (by simp [hid])
    · have hbefore : m.conn.abandoned direct = true := by
        simpa [Function.update_of_ne hid] using hgone
      exact List.mem_append_left _ (hm direct before hstage hopen hbefore)
  · cases h

theorem Pending.lag {m m' : Manager} {dropped : Nat} (hm : m.Pending)
    (htime : m.InTime (.lag dropped)) (h : m.step (.lag dropped) = some m') : m'.Pending := by
  cases h
  intro direct events hwatch hopen hgone
  obtain ⟨before, hstage, rfl⟩ := ManageStage.lag_watch hwatch
  have hin := hm direct before hstage hopen hgone
  rw [← List.take_append_drop dropped before] at hin
  have hkept : .event (.abandoned direct) ∉ before.take dropped := by
    simpa [InTime, hstage] using htime
  exact List.mem_cons_of_mem _ ((List.mem_append.mp hin).resolve_left hkept)

theorem Pending.step {m m' : Manager} {act : ManageAct} (hm : m.Pending) (htime : m.InTime act)
    (h : m.step act = some m') : m'.Pending := by
  cases act with
  | advance => exact Pending.advance htime h
  | next => exact hm.next h
  | establish id status => exact hm.establish h
  | abandon id => exact hm.abandon h
  | lag dropped => exact hm.lag htime h
  | close =>
    cases h
    intro direct events _ hopen
    cases hopen
  | discard id =>
    simp only [Manager.step] at h
    split at h
    · cases h
      exact hm
    · cases h
  | drop =>
    cases h
    intro direct events hwatch
    cases hwatch
  | punchFails | engageReturns | retry | closedSeen =>
    -- none of these leads into the watch
    simp only [Manager.step] at h
    intro direct events hwatch
    split at h <;> cases h <;> cases hwatch

/-- The manager watches a path that is gone, with nothing to read that would end it. -/
structure Frozen (direct : PathId) (m : Manager) : Prop where
  isOpen : m.conn.closed = false
  gone : m.conn.abandoned direct = true
  announced : m.state = .direct
  silent : ∃ events, m.stage = .watch direct events ∧ .event (.abandoned direct) ∉ events ∧
    .lagged ∉ events

namespace Frozen

variable {m m' : Manager} {direct : PathId}

theorem unnoticed (h : m.Frozen direct) : m.Unnoticed direct := by
  obtain ⟨events, hstage, hmissing, _⟩ := h.silent
  exact ⟨h.isOpen, h.gone, events, hstage, hmissing⟩

theorem next (h : m.Frozen direct) (hstep : m.step .next = some m') : m'.Frozen direct := by
  obtain ⟨events, hstage, hmissing, hlag⟩ := h.silent
  cases events with
  | nil => simp [Manager.step, hstage] at hstep
  | cons n rest =>
    obtain ⟨hn, hrest⟩ := not_or.mp (mt List.mem_cons.mpr hmissing)
    obtain ⟨hnlag, hrestlag⟩ := not_or.mp (mt List.mem_cons.mpr hlag)
    simp only [Manager.step, hstage, Option.some.injEq] at hstep
    subst hstep
    refine ⟨h.isOpen, h.gone, h.announced, rest, ?_, hrest, hrestlag⟩
    exact ManageStage.watchNext_of_ne (Ne.symm hn) (Ne.symm hnlag)

theorem establish {id : PathId} {status : PathStatus} (h : m.Frozen direct)
    (hstep : m.step (.establish id status) = some m') : m'.Frozen direct := by
  obtain ⟨events, hstage, hmissing, hlag⟩ := h.silent
  simp only [Manager.step] at hstep
  split at hstep
  · cases hstep
    refine ⟨h.isOpen, h.gone, h.announced, events ++ [.event (.established id)], ?_, ?_, ?_⟩
    · simp [hstage, ManageStage.deliver]
    · simpa using hmissing
    · simpa using hlag
  · cases hstep

theorem abandon {id : PathId} (h : m.Frozen direct)
    (hstep : m.step (.abandon id) = some m') : m'.Frozen direct := by
  obtain ⟨events, hstage, hmissing, hlag⟩ := h.silent
  simp only [Manager.step] at hstep
  split at hstep
  · rename_i henabled
    obtain ⟨_, _, hpresent⟩ := henabled
    -- a path is abandoned once, so this is another one
    have hne : direct ≠ id := by
      rintro rfl
      simp [h.gone] at hpresent
    cases hstep
    refine ⟨h.isOpen, ?_, h.announced, events ++ [.event (.abandoned id)], ?_, ?_, ?_⟩
    · simpa [Function.update_of_ne hne] using h.gone
    · simp [hstage, ManageStage.deliver]
    · simpa [hne] using hmissing
    · simpa using hlag
  · cases hstep

theorem step {act : ManageAct} (h : m.Frozen direct) (hact : ¬ act.Rouses)
    (hstep : m.step act = some m') : m'.Frozen direct := by
  obtain ⟨events, hstage, hmissing, hlag⟩ := h.silent
  cases act with
  | next => exact h.next hstep
  | establish id status => exact h.establish hstep
  | abandon id => exact h.abandon hstep
  | discard id =>
    simp only [Manager.step] at hstep
    split at hstep
    · cases hstep
      exact ⟨h.isOpen, h.gone, h.announced, events, hstage, hmissing, hlag⟩
    · cases hstep
  | advance => simp [Manager.step, Manager.advance, hstage] at hstep
  | punchFails | engageReturns | retry => simp [Manager.step, hstage] at hstep
  | closedSeen => simp [Manager.step, h.isOpen] at hstep
  | close | drop | lag dropped => exact absurd trivial hact

theorem run {acts : List ManageAct} (h : m.Frozen direct)
    (hrun : Run (Fires Manager.step) m acts m') (hacts : ∀ act ∈ acts, ¬ act.Rouses) :
    m'.Frozen direct := by
  refine (hrun.labelled hacts).invariant (Manager.Frozen direct) ?_ h
  rintro _ _ _ hm ⟨hact, hstep⟩
  exact hm.step hact hstep

end Frozen

/-- A path that is abandoned while the manager watches it is noticed, as long as the
manager subscribed in time and its subscription kept the event. -/
theorem abandoned_path_noticed {lockdown : Bool} {conn : PathConn} {acts : List ManageAct}
    {m : Manager} (h : Run (Guarded InTime (Fires step)) (initial lockdown conn) acts m)
    (direct : PathId) : ¬ m.Unnoticed direct := by
  have hpending : m.Pending := by
    refine h.invariant Pending ?_ ?_
    · rintro _ _ _ hm ⟨htime, hstep⟩
      exact hm.step htime hstep
    · intro _ _ hwatch
      cases hwatch
  rintro ⟨hopen, hgone, events, hwatch, hmissing⟩
  exact hmissing (hpending direct events hwatch hopen hgone)

section Example

instance (m : Manager) : (act : ManageAct) → Decidable (m.InTime act)
  | .advance =>
    match h : m.stage with
    | .subscribe direct => decidable_of_iff
        (m.conn.closed = true ∨ m.conn.abandoned direct = false) (by simp [InTime, h])
    | .head | .punch _ | .promote _ | .holdRelay _ | .announce _ | .engage _ | .watch _ _
    | .lost _ | .restoreRelay _ | .demote _ | .fallBack | .backoff | .ended =>
      .isTrue (by simp [InTime, h])
  | .lag dropped =>
    match h : m.stage with
    | .watch direct events => decidable_of_iff
        (Notice.event (.abandoned direct) ∉ events.take dropped) (by simp [InTime, h])
    | .head | .punch _ | .promote _ | .holdRelay _ | .announce _ | .engage _ | .subscribe _
    | .lost _ | .restoreRelay _ | .demote _ | .fallBack | .backoff | .ended =>
      .isTrue (by simp [InTime, h])
  | .next | .punchFails | .engageReturns | .closedSeen | .retry | .drop | .establish _ _
  | .abandon _ | .discard _ | .close => .isTrue trivial

/-- A connection on its relay path. -/
def onRelay : PathConn := ⟨false, Table.empty.insert PathId.zero .available, fun _ => false⟩

/-- The punch finds path 1, and the manager gets to the lockdown. -/
def punched : List ManageAct :=
  [.advance, .establish 1 .backup, .next, .advance, .advance, .advance]

theorem abandoned_path_noticed_watching :
    ∃ m, Run (Guarded InTime (Fires step)) (initial true onRelay)
        (punched ++ [.engageReturns, .advance, .abandon 1]) m ∧
      m.conn.closed = false ∧ m.conn.abandoned 1 = true ∧
      m.stage = .watch 1 [.event (.abandoned 1)] ∧ ¬ m.Unnoticed 1 := by
  have hexec : (exec (restrict InTime step) (initial true onRelay)
      (punched ++ [.engageReturns, .advance, .abandon 1])).map
        (fun m => (m.conn.closed, m.conn.abandoned 1, m.stage)) =
      some (false, true, .watch 1 [.event (.abandoned 1)]) := by decide +kernel
  obtain ⟨m, hm, hobs⟩ := Option.map_eq_some_iff.mp hexec
  obtain ⟨hopen, hrest⟩ := Prod.mk.inj hobs
  obtain ⟨hgone, hstage⟩ := Prod.mk.inj hrest
  have hrun := guarded_run_of_exec hm
  exact ⟨m, hrun, hopen, hgone, hstage, abandoned_path_noticed hrun 1⟩

/-- Path 1 is abandoned while the manager awaits the lockdown. The session then stays in
`Direct` with its relay path held as a backup. -/
theorem abandoned_during_engage :
    ∃ m, Run (Fires step) (initial true onRelay)
        (punched ++ [.abandon 1, .discard 1, .engageReturns, .advance]) m ∧
      m.Unnoticed 1 ∧ m.conn.path PathId.zero = some .backup ∧
      ∀ acts m', Run (Fires step) m acts m' → (∀ act ∈ acts, ¬ act.Rouses) →
        m'.state = .direct ∧ m'.Unnoticed 1 := by
  have hexec : (exec step (initial true onRelay)
      (punched ++ [.abandon 1, .discard 1, .engageReturns, .advance])).map
        (fun m => (m.conn.closed, m.conn.abandoned 1, m.state, m.stage,
          m.conn.path PathId.zero)) =
      some (false, true, .direct, .watch 1 [], some .backup) := by decide +kernel
  obtain ⟨m, hm, hobs⟩ := Option.map_eq_some_iff.mp hexec
  simp only [Prod.mk.injEq] at hobs
  obtain ⟨hopen, hgone, hstate, hstage, hrelay⟩ := hobs
  have hfrozen : m.Frozen 1 := ⟨hopen, hgone, hstate, [], hstage, by simp, by simp⟩
  refine ⟨m, run_of_exec hm, hfrozen.unnoticed, hrelay, ?_⟩
  intro acts m' hrun hacts
  have hstill := hfrozen.run hrun hacts
  exact ⟨hstill.announced, hstill.unnoticed⟩

end Example

end Manager

end Straw
