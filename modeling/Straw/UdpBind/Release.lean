import Straw.UdpBind.Effects

/-!
# What a bind session leaves behind

A handler that returns gives its tuple back, unless a send fails after the bind. A tuple
that is given back may still have a socket: the handler aborts the rewrite loop, and the
receive loop which that one spawned lives on.
-/

namespace Straw

open Transition
set_option autoImplicit false

namespace BindSys

def Settled (σ : BindSys) : BindLabel → Prop
  | .task id act => (σ.task id).settles act = true
  | .env _ => True

instance (σ : BindSys) (label : BindLabel) : Decidable (Settled σ label) :=
  match label with
  | .task id act => inferInstanceAs (Decidable ((σ.task id).settles act = true))
  | .env _ => instDecidableTrue

def held (l : BindSession) : Option SocketAddr := l.handler.held

structure Inv (σ : BindSys) : Prop where
  exclusive : Exclusive UdpBindState.inUse held σ
  session : ∀ id, (σ.task id).Inv

theorem inv_initial (allocator : Option PortAllocator) : Inv (initial allocator) where
  exclusive := ⟨nofun, nofun⟩
  session _ := BindSession.inv_fresh

theorem inv_step {σ τ : BindSys} {label : BindLabel} (hσ : σ.Inv)
    (h : Guarded Settled (Fires step) σ label τ) : τ.Inv := by
  obtain ⟨hsettled, hstep⟩ := h
  cases label with
  | env d => exact d.elim
  | task id act =>
    obtain ⟨⟨g, l⟩, hadvance, rfl⟩ := Option.map_eq_some_iff.mp hstep
    refine ⟨hσ.exclusive.step (BindSession.advance_moves hadvance), ?_⟩
    intro i
    by_cases hi : i = id
    · subst hi
      simp only [Function.update_self]
      exact (hσ.session i).advance hsettled hadvance
    · simp only [Function.update_of_ne hi]
      exact hσ.session i

section Solo

variable {σ τ : BindSys} {id : SessionId} {acts : List BindAct}

theorem solo_account (h : Run (Fires step) σ (acts.map (Tasks.Label.task id)) τ)
    (hidle : (σ.task id).handler = .idle) (hid : σ.shared.sessions id = none) :
    (∃ lost, Account σ.shared.inUse (∀ act ∈ acts, ¬ act.SendFails) τ.shared.inUse
        (held (τ.task id)) lost) ∧
      (τ.shared.sessions id).isSome = (τ.task id).handler.registered := by
  induction acts using List.reverseRecOn generalizing τ with
  | nil =>
    obtain rfl := h.nil_inv
    refine ⟨⟨∅, ?_⟩, by rw [hid, hidle]; rfl⟩
    have hstart := Account.start σ.shared.inUse
    simpa [held, hidle, BindPc.held] using hstart
  | append_singleton acts act ih =>
    rw [List.map_append] at h
    obtain ⟨υ, hrun, hlast⟩ := h.snoc_inv
    obtain ⟨⟨lost, hlost⟩, hregistered⟩ := ih hrun
    obtain ⟨⟨g, l⟩, hadvance, rfl⟩ := Option.map_eq_some_iff.mp hlast
    obtain ⟨lost', hlost'⟩ := hlost.step (BindSession.advance_moves hadvance)
    have hclean : ((∀ a ∈ acts, ¬ a.SendFails) ∧ ¬ act.SendFails) =
        ∀ a ∈ acts ++ [act], ¬ a.SendFails := by
      simp only [List.forall_mem_append, List.forall_mem_singleton]
    simp only [Function.update_self]
    exact ⟨⟨lost', hclean ▸ hlost'⟩, BindSession.advance_registered hadvance hregistered⟩

/-- A handler that returns leaves the tuples in use as it found them, and no sink, exactly
when neither of its sends between the bind and the data plane fails. -/
theorem returns_clean_iff {r : ProxyResult}
    (h : Run (Fires step) σ (acts.map (Tasks.Label.task id)) τ)
    (hidle : (σ.task id).handler = .idle) (hid : σ.shared.sessions id = none)
    (hreturned : (τ.task id).handler = .returned r) :
    (τ.shared.inUse = σ.shared.inUse ∧ τ.shared.sessions id = none) ↔
      ∀ act ∈ acts, ¬ act.SendFails := by
  obtain ⟨⟨lost, hlost⟩, hregistered⟩ := solo_account h hidle hid
  have hnone : held (τ.task id) = none := by rw [held, hreturned]; rfl
  have hsink : τ.shared.sessions id = none := by
    rw [hreturned] at hregistered
    exact Option.isSome_eq_false_iff.mp hregistered |> Option.isNone_iff_eq_none.mp
  rw [hnone] at hlost
  rw [← hlost.used_eq_iff]
  exact and_iff_left hsink

/-- 203.0.113.9, port 40000 only. -/
def testAllocator : PortAllocator :=
  ⟨[.v4 0xcb007109#32], 40000, 40000, by decide, by decide, ∅, 0, 40000⟩

def testTuple : SocketAddr := .v4 0xcb007109#32 40000

def testId : SessionId := ⟨0⟩

def bindTuple : List BindAct :=
  [.request, .validate (.ok ()), .authenticate (.ok ()), .allocate, .bind (some testTuple)]

def openSession : List BindAct :=
  bindTuple ++ [.sendResponse (.ok ()), .sendObserved (.ok ()), .register, .spawn]

def closeSession : List BindAct := [.capsules (.ok ()), .abort, .dropRun, .unregister, .release]

def solo (acts : List BindAct) : Option BindSys :=
  exec step (initial (some testAllocator)) (acts.map (Tasks.Label.task testId))

theorem returns_clean_served : ∃ (acts : List BindAct) (τ : BindSys),
    Run (Fires step) (initial (some testAllocator)) (acts.map (Tasks.Label.task testId)) τ ∧
      (τ.task testId).handler = .returned (.ok ()) ∧ τ.shared.inUse = ∅ ∧
      τ.shared.sessions testId = none := by
  have hexec : (solo (openSession ++ closeSession)).map (fun τ => (τ.task testId).handler) =
      some (.returned (.ok ())) := by
    decide +kernel
  obtain ⟨τ, hτ, hreturned⟩ := Option.map_eq_some_iff.mp hexec
  have hrun := run_of_exec hτ
  have hsent : ∀ act ∈ openSession ++ closeSession, ¬ act.SendFails := by
    simp [closeSession, openSession, bindTuple, BindAct.SendFails]
  exact ⟨_, τ, hrun, hreturned, (returns_clean_iff hrun rfl rfl hreturned).mpr hsent⟩

/-- The response cannot be sent: the handler returns through `?` and the only tuple stays
in use. -/
theorem tuple_leaked : ∃ (acts : List BindAct) (τ : BindSys) (e : ProxyError),
    Run (Fires step) (initial (some testAllocator)) (acts.map (Tasks.Label.task testId)) τ ∧
      (τ.task testId).handler = .returned (.error e) ∧ testTuple ∈ τ.shared.inUse ∧
      testTuple ∉ (initial (some testAllocator)).shared.inUse := by
  have hexec : (solo (bindTuple ++ [.sendResponse (.error (.http "closed"))])).map
      (fun τ => ((τ.task testId).handler, decide (testTuple ∈ τ.shared.inUse))) =
        some (.returned (.error (.http "closed")), true) := by
    decide +kernel
  obtain ⟨τ, hτ, hobs⟩ := Option.map_eq_some_iff.mp hexec
  obtain ⟨hreturned, hleaked⟩ := Prod.mk.inj hobs
  exact ⟨_, τ, _, run_of_exec hτ, hreturned, of_decide_eq_true hleaked, by decide⟩

end Solo

/-- As long as no tuple is released before its socket is gone, a tuple that is not in use
has no socket; so none that `allocate` hands out has one. -/
theorem released_is_free {allocator : Option PortAllocator} {labels : List BindLabel} {σ : BindSys}
    (h : Run (Guarded Settled (Fires step)) (initial allocator) labels σ) :
    (∀ addr id, addr ∉ σ.shared.inUse → ¬ (σ.task id).Owns addr) ∧
      ∀ a b addr id, σ.shared.allocator = some a → a.allocate = (b, some addr) →
        ¬ (σ.task id).Owns addr := by
  have hinv : σ.Inv := h.invariant Inv (fun _ _ _ => inv_step) (inv_initial allocator)
  have hfree : ∀ addr id, addr ∉ σ.shared.inUse → ¬ (σ.task id).Owns addr := by
    intro addr id hfree howns
    exact hfree (hinv.exclusive.inUse ((hinv.session id).owned howns))
  refine ⟨hfree, ?_⟩
  intro a b addr id ha hallocate
  apply hfree addr id
  have hinUse : σ.shared.inUse = a.inUse := by rw [UdpBindState.inUse, ha]
  exact hinUse ▸ (PortAllocator.scan_some hallocate).1

/-- Releasing a tuple whose socket is still held leaves a free tuple with a socket. -/
theorem release_unsettled {σ τ : BindSys} {id : SessionId} (hσ : σ.Inv)
    (h : step σ (.task id .release) = some τ) (hnot : ¬ Settled σ (.task id .release)) :
    ∃ addr, addr ∉ τ.shared.inUse ∧ (τ.task id).Owns addr := by
  obtain ⟨⟨g, l⟩, hadvance, rfl⟩ := Option.map_eq_some_iff.mp h
  have hlive : ∃ addr, (σ.task id).run.owner = some addr ∨
      (σ.task id).inbound.owner = some addr := by
    simp only [Settled, BindSession.settles, Bool.and_eq_true, Option.isNone_iff_eq_none,
      not_and_or] at hnot
    rcases hnot with hrun | hinbound
    · obtain ⟨addr, haddr⟩ := Option.ne_none_iff_exists'.mp hrun
      exact ⟨addr, Or.inl haddr⟩
    · obtain ⟨addr, haddr⟩ := Option.ne_none_iff_exists'.mp hinbound
      exact ⟨addr, Or.inr haddr⟩
  obtain ⟨addr, hlive⟩ := hlive
  have hheld := (hσ.session id).owned (Or.inr hlive)
  obtain ⟨addr', r, hhandler, hg, hl⟩ := BindSession.advance_release hadvance
  obtain rfl : addr' = addr := by
    rw [hhandler] at hheld
    exact Option.some.inj hheld
  refine ⟨addr', ?_, ?_⟩
  · simp [hg, UdpBindState.inUse_release]
  · simp only [Function.update_self, hl]
    exact Or.inr hlive

theorem released_is_free_failed : ∃ (labels : List BindLabel) (σ : BindSys),
    Run (Guarded Settled (Fires step)) (initial (some testAllocator)) labels σ ∧
      (σ.task testId).handler = .returned (.ok ()) ∧ ∀ id, ¬ (σ.task id).Owns testTuple := by
  have hexec : (exec (restrict Settled step) (initial (some testAllocator))
      ((openSession ++ ([.pollRun, .recv, .pollInbound, .failInbound] : List BindAct) ++
        closeSession).map (Tasks.Label.task testId))).map
      (fun σ => ((σ.task testId).handler, decide (testTuple ∈ σ.shared.inUse))) =
        some (.returned (.ok ()), false) := by
    decide +kernel
  obtain ⟨σ, hσ, hobs⟩ := Option.map_eq_some_iff.mp hexec
  obtain ⟨hreturned, hfree⟩ := Prod.mk.inj hobs
  have hrun := guarded_run_of_exec hσ
  refine ⟨_, σ, hrun, hreturned, ?_⟩
  intro id
  exact (released_is_free hrun).1 testTuple id (of_decide_eq_false hfree)

/-- The teardown drops the rewrite loop at its suspension point, so that loop never aborts
the receive loop, which keeps the socket while the tuple is handed out again. -/
theorem released_tuple_owned : ∃ (labels : List BindLabel) (σ : BindSys) (a b : PortAllocator),
    Run (Fires step) (initial (some testAllocator)) labels σ ∧
      (σ.task testId).handler = .returned (.ok ()) ∧ testTuple ∉ σ.shared.inUse ∧
      (σ.task testId).Owns testTuple ∧ σ.shared.allocator = some a ∧
      a.allocate = (b, some testTuple) := by
  have hexec : (solo (openSession ++ [.pollRun, .recv, .pollInbound, .suspendInbound] ++
      closeSession)).map
      (fun σ => ((σ.task testId).handler, decide (testTuple ∈ σ.shared.inUse),
        (σ.task testId).inbound.owner, σ.shared.allocator.map fun a => a.allocate.2)) =
        some (.returned (.ok ()), false, some testTuple, some (some testTuple)) := by
    decide +kernel
  obtain ⟨σ, hσ, hobs⟩ := Option.map_eq_some_iff.mp hexec
  simp only [Prod.mk.injEq] at hobs
  obtain ⟨hreturned, hfree, howner, hallocate⟩ := hobs
  obtain ⟨a, ha, hagain⟩ := Option.map_eq_some_iff.mp hallocate
  exact ⟨_, σ, a, a.allocate.1, run_of_exec hσ, hreturned, of_decide_eq_false hfree,
    Or.inr (Or.inr howner), ha, Prod.ext rfl hagain⟩

end BindSys

end Straw
