import Straw.UdpBind.Session

/-!
# What the steps of a bind session do

For every step: the tuple the handler holds, the sink it has registered, and the tasks
that own a socket. One relation says what a step of the handler is; everything else is
read off it.
-/

namespace Straw

open Transition
set_option autoImplicit false

/-- The tuple the handler has allocated and has still to release. -/
def BindPc.held : BindPc → Option SocketAddr
  | .binding _ addr | .unbound _ addr | .accepting addr _ | .reporting addr _
  | .registering addr _ | .spawning addr _ | .serving addr | .aborting addr _
  | .unregistering addr _ | .releasing addr _ => some addr
  | .idle | .entered | .validated | .refusing _ | .allocating _ | .returned _ => none

/-- The socket in the handler's own variable, before it is moved into the rewrite loop. -/
def BindPc.socket : BindPc → Option SocketAddr
  | .accepting _ bound | .reporting _ bound | .registering _ bound | .spawning _ bound => some bound
  | _ => none

def BindPc.registered : BindPc → Bool
  | .spawning _ _ | .serving _ | .aborting _ _ | .unregistering _ _ => true
  | _ => false

def BindPc.spawned : BindPc → Bool
  | .serving _ | .aborting _ _ | .unregistering _ _ | .releasing _ _ | .returned _ => true
  | _ => false

def BindAct.SendFails : BindAct → Prop
  | .sendResponse (.error _) | .sendObserved (.error _) => True
  | _ => False

theorem UdpBindState.inUse_release (g : UdpBindState) (addr : SocketAddr) :
    (g.release addr).inUse = g.inUse.erase addr := by
  unfold release inUse
  cases g.allocator with
  | some a => rfl
  | none => rfl

def BindPc.outside : BindPc → Bool
  | .idle | .entered | .validated | .refusing _ | .allocating _ | .returned _ => true
  | _ => false

/-- What a step of the handler is: before it has a tuple it changes nothing but the
allocator's cursors; then comes one step at a time from the allocation to the return. -/
inductive BindEffect (id : SessionId) (g : UdpBindState) :
    BindAct → BindPc → UdpBindState → BindPc → Prop where
  | outside {act : BindAct} {pc pc' : BindPc} {g' : UdpBindState} (hact : ¬ act.SendFails)
      (hpc : pc.outside = true) (hspawned : pc.spawned = false) (hpc' : pc'.outside = true)
      (hused : g'.inUse = g.inUse) (hsessions : g'.sessions = g.sessions) :
      BindEffect id g act pc g' pc'
  | allocate {attempts : Nat} {addr : SocketAddr} {g' : UdpBindState} (hfree : addr ∉ g.inUse)
      (hused : g'.inUse = insert addr g.inUse) (hsessions : g'.sessions = g.sessions) :
      BindEffect id g .allocate (.allocating (attempts + 1)) g' (.binding attempts addr)
  | bindFailed {attempts : Nat} {addr : SocketAddr} :
      BindEffect id g (.bind none) (.binding attempts addr) g (.unbound attempts addr)
  | bound {attempts : Nat} {addr bound : SocketAddr} (hbound : BoundTo addr bound) :
      BindEffect id g (.bind (some bound)) (.binding attempts addr) g (.accepting addr bound)
  | giveBack {attempts : Nat} {addr : SocketAddr} :
      BindEffect id g .giveBack (.unbound attempts addr) (g.release addr) (.retry attempts)
  | responded {addr bound : SocketAddr} :
      BindEffect id g (.sendResponse (.ok ())) (.accepting addr bound) g (.reporting addr bound)
  | notResponded {addr bound : SocketAddr} {e : ProxyError} :
      BindEffect id g (.sendResponse (.error e)) (.accepting addr bound) g (.returned (.error e))
  | reported {addr bound : SocketAddr} :
      BindEffect id g (.sendObserved (.ok ())) (.reporting addr bound) g (.registering addr bound)
  | notReported {addr bound : SocketAddr} {e : ProxyError} :
      BindEffect id g (.sendObserved (.error e)) (.reporting addr bound) g (.returned (.error e))
  | register {addr bound : SocketAddr} :
      BindEffect id g .register (.registering addr bound) (g.register id) (.spawning addr bound)
  | spawn {addr bound : SocketAddr} :
      BindEffect id g .spawn (.spawning addr bound) g (.serving addr)
  | capsules {addr : SocketAddr} {r : ProxyResult} :
      BindEffect id g (.capsules r) (.serving addr) g (.aborting addr r)
  | abort {addr : SocketAddr} {r : ProxyResult} :
      BindEffect id g .abort (.aborting addr r) g (.unregistering addr r)
  | unregister {addr : SocketAddr} {r : ProxyResult} :
      BindEffect id g .unregister (.unregistering addr r) (g.unregister id) (.releasing addr r)
  | release {addr : SocketAddr} {r : ProxyResult} :
      BindEffect id g .release (.releasing addr r) (g.release addr) (.returned r)

section Handler

variable {id : SessionId} {g g' : UdpBindState} {act : BindAct} {pc pc' : BindPc}

theorem allocate_effect {attempts : Nat}
    (h : handleConnectUdpBindStream id g .allocate (.allocating (attempts + 1)) = some (g', pc')) :
    BindEffect id g .allocate (.allocating (attempts + 1)) g' pc' := by
  unfold handleConnectUdpBindStream at h
  cases ha : g.allocator with
  | none =>
    rw [ha] at h
    cases h
  | some a =>
    have hinUse : g.inUse = a.inUse := by simp [UdpBindState.inUse, ha]
    rcases hb : a.allocate with ⟨b, r⟩
    simp only [ha, Option.map_some, hb] at h
    cases r with
    | none =>
      cases h
      exact .outside not_false rfl rfl rfl (hinUse ▸ PortAllocator.scan_none hb) rfl
    | some addr =>
      cases h
      obtain ⟨hfree, hused⟩ := PortAllocator.scan_some hb
      exact .allocate (hinUse ▸ hfree) (hinUse ▸ hused) rfl

theorem bind_effect (h : handleConnectUdpBindStream id g act pc = some (g', pc')) :
    BindEffect id g act pc g' pc' := by
  by_cases hallocate : ∃ attempts, act = .allocate ∧ pc = .allocating (attempts + 1)
  · obtain ⟨attempts, rfl, rfl⟩ := hallocate
    exact allocate_effect h
  unfold handleConnectUdpBindStream at h
  split at h
  · cases h
    exact .outside not_false rfl rfl rfl rfl rfl
  · rename_i r
    cases h
    cases r <;> exact .outside not_false rfl rfl rfl rfl rfl
  · rename_i r
    cases h
    refine .outside not_false rfl rfl ?_ rfl rfl
    cases g.allocator <;> cases r <;> rfl
  · rename_i r e
    cases h
    cases r <;> exact .outside not_false rfl rfl rfl rfl rfl
  · rename_i attempts
    exact absurd ⟨attempts, rfl, rfl⟩ hallocate
  · cases h
    exact .bindFailed
  · obtain ⟨hbound, h⟩ := Option.ite_none_right_eq_some.mp h
    cases h
    exact .bound hbound
  · cases h
    exact .giveBack
  · rename_i r addr bound
    cases h
    cases r with
    | ok u => exact .responded
    | error e => exact .notResponded
  · rename_i r addr bound
    cases h
    cases r with
    | ok u => exact .reported
    | error e => exact .notReported
  · cases h
    exact .register
  · cases h
    exact .spawn
  · cases h
    exact .capsules
  · cases h
    exact .abort
  · cases h
    exact .unregister
  · cases h
    exact .release
  · cases h

theorem BindPc.held_of_outside (h : pc.outside = true) :
    pc.held = none ∧ pc.socket = none ∧ pc.registered = false := by
  cases pc <;> first | exact ⟨rfl, rfl, rfl⟩ | cases h

theorem BindPc.outside_retry (attempts : Nat) : (BindPc.retry attempts).outside = true := by
  unfold retry
  split <;> rfl

/-- Only the two sends between the bind and the data plane drop the handler's tuple. -/
theorem BindEffect.moves (h : BindEffect id g act pc g' pc') :
    Moves act.SendFails g.inUse g'.inUse pc.held pc'.held := by
  cases h with
  | outside hact hpc hspawned hpc' hused hsessions =>
    refine .keep hact hused ?_
    rw [(BindPc.held_of_outside hpc).1, (BindPc.held_of_outside hpc').1]
  | allocate hfree hused hsessions => exact .acquire _ not_false hfree hused rfl rfl
  | @giveBack attempts addr =>
    exact .release addr not_false rfl (g.inUse_release addr)
      (BindPc.held_of_outside (BindPc.outside_retry attempts)).1
  | @release addr r => exact .release addr not_false rfl (g.inUse_release addr) rfl
  | @notResponded addr bound e | @notReported addr bound e =>
    exact .forget addr trivial rfl rfl rfl
  | bindFailed | bound hbound | responded | reported | register | spawn | capsules | abort
  | unregister => exact .keep not_false rfl rfl

theorem BindEffect.registered (h : BindEffect id g act pc g' pc')
    (hpc : (g.sessions id).isSome = pc.registered) :
    (g'.sessions id).isSome = pc'.registered := by
  cases h with
  | outside hact hout hspawned hout' hused hsessions =>
    rw [hsessions, hpc, (BindPc.held_of_outside hout).2.2, (BindPc.held_of_outside hout').2.2]
  | allocate hfree hused hsessions => rwa [hsessions]
  | @giveBack attempts addr =>
    rw [(BindPc.held_of_outside (BindPc.outside_retry attempts)).2.2]
    exact hpc
  | register => simp [UdpBindState.register, BindPc.registered]
  | unregister => simp [UdpBindState.unregister, BindPc.registered]
  | bindFailed | bound hbound | responded | notResponded | reported | notReported | spawn
  | capsules | abort | release => exact hpc

end Handler

namespace BindSession

/-- Some live task of the session holds the socket bound to `addr`. -/
def Owns (l : BindSession) (addr : SocketAddr) : Prop :=
  l.handler.socket = some addr ∨ l.run.owner = some addr ∨ l.inbound.owner = some addr

variable {id : SessionId} {g g' : UdpBindState} {act : BindAct} {l l' : BindSession}

/-- The loops change neither the handler nor the relay-wide state; a receive loop gets the
socket of the rewrite loop that spawns it. -/
structure LoopsEffect (act : BindAct) (l l' : BindSession) : Prop where
  sent : ¬ act.SendFails
  handler : l'.handler = l.handler
  run : ∀ {b}, l'.run.owner = some b → l.run.owner = some b
  inbound : ∀ {b}, l'.inbound.owner = some b → l.inbound.owner = some b ∨ l.run.owner = some b

theorem loops_effect {connected : Bool} (h : l.runLoops connected act = some l') :
    LoopsEffect act l l' := by
  cases act with
  | deliver =>
    obtain ⟨-, h⟩ := Option.ite_none_right_eq_some.mp h
    cases h
    exact ⟨not_false, rfl, fun h => h, Or.inl⟩
  | pollRun =>
    simp only [runLoops] at h
    split at h
    · rename_i bound hrun
      cases h
      exact ⟨not_false, rfl, by simp [hrun, Spawned.owner], by simp [hrun, Spawned.owner, Spawned.spawn]⟩
    · obtain ⟨run, hrun, rfl⟩ := Option.map_eq_some_iff.mp h
      exact ⟨not_false, rfl, fun h => Spawned.owner_poll hrun ▸ h, Or.inl⟩
  | recv =>
    simp only [runLoops] at h
    split at h
    · split at h
      · cases h
        exact ⟨not_false, rfl, fun h => h, Or.inl⟩
      · split at h
        · obtain ⟨run, hrun, rfl⟩ := Option.map_eq_some_iff.mp h
          exact ⟨not_false, rfl, fun h => Spawned.owner_suspend hrun ▸ h, Or.inl⟩
        · obtain ⟨run, hrun, rfl⟩ := Option.map_eq_some_iff.mp h
          refine ⟨not_false, rfl, ?_, ?_⟩
          · simp [Spawned.owner_finish hrun]
          · simp only [Spawned.owner_abort]
            exact Or.inl
    · cases h
  | suspendRun =>
    obtain ⟨run, hrun, rfl⟩ := Option.map_eq_some_iff.mp h
    exact ⟨not_false, rfl, fun h => Spawned.owner_suspend hrun ▸ h, Or.inl⟩
  | dropRun =>
    obtain ⟨run, hrun, rfl⟩ := Option.map_eq_some_iff.mp h
    exact ⟨not_false, rfl, by simp [Spawned.owner_drop hrun], Or.inl⟩
  | pollInbound =>
    obtain ⟨inbound, hin, rfl⟩ := Option.map_eq_some_iff.mp h
    exact ⟨not_false, rfl, fun h => h, fun h => Or.inl (Spawned.owner_poll hin ▸ h)⟩
  | suspendInbound =>
    obtain ⟨inbound, hin, rfl⟩ := Option.map_eq_some_iff.mp h
    exact ⟨not_false, rfl, fun h => h, fun h => Or.inl (Spawned.owner_suspend hin ▸ h)⟩
  | failInbound =>
    obtain ⟨inbound, hin, rfl⟩ := Option.map_eq_some_iff.mp h
    exact ⟨not_false, rfl, fun h => h, by simp [Spawned.owner_finish hin]⟩
  | dropInbound =>
    obtain ⟨inbound, hin, rfl⟩ := Option.map_eq_some_iff.mp h
    exact ⟨not_false, rfl, fun h => h, by simp [Spawned.owner_drop hin]⟩
  | request | validate r | authenticate r | respond r | allocate | bind b | giveBack
  | sendResponse r | sendObserved r | register | spawn | capsules r | abort | unregister
  | release => cases h

/-- Either the handler takes the step or one of its loops does. -/
theorem advance_split (h : advance id act g l = some (g', l')) :
    (handleConnectUdpBindStream id g act l.handler = some (g', l'.handler) ∧
        l'.run = l.runAfter act ∧ l'.inbound = l.inbound) ∨
      (g' = g ∧ LoopsEffect act l l') := by
  unfold advance at h
  split at h
  · rename_i g₁ pc hstep
    cases h
    exact Or.inl ⟨hstep, rfl, rfl⟩
  · obtain ⟨l₁, hloops, heq⟩ := Option.map_eq_some_iff.mp h
    cases heq
    exact Or.inr ⟨rfl, loops_effect hloops⟩

theorem advance_cases (h : advance id act g l = some (g', l')) :
    (BindEffect id g act l.handler g' l'.handler ∧ l'.run = l.runAfter act ∧
        l'.inbound = l.inbound) ∨
      (g' = g ∧ LoopsEffect act l l') :=
  (advance_split h).imp_left (And.imp_left bind_effect)

theorem advance_moves (h : advance id act g l = some (g', l')) :
    Moves act.SendFails g.inUse g'.inUse l.handler.held l'.handler.held := by
  rcases advance_cases h with ⟨heffect, -, -⟩ | ⟨rfl, hloops⟩
  · exact heffect.moves
  · exact .keep hloops.sent rfl (by rw [hloops.handler])

theorem advance_registered (h : advance id act g l = some (g', l'))
    (hl : (g.sessions id).isSome = l.handler.registered) :
    (g'.sessions id).isSome = l'.handler.registered := by
  rcases advance_cases h with ⟨heffect, -, -⟩ | ⟨rfl, hloops⟩
  · exact heffect.registered hl
  · rwa [hloops.handler]

theorem advance_release (h : advance id .release g l = some (g', l')) :
    ∃ addr r, l.handler = .releasing addr r ∧ g' = g.release addr ∧
      l' = { l with handler := .returned r } := by
  unfold advance at h
  split at h
  · rename_i g₁ pc hstep
    cases h
    cases hpc : l.handler <;> rw [hpc] at hstep <;> cases hstep
    exact ⟨_, _, rfl, rfl, rfl⟩
  · cases h

theorem owner_runAfter (l : BindSession) (act : BindAct) :
    (l.runAfter act).owner = l.run.owner ∨ (l.runAfter act).owner = l.handler.socket := by
  cases act with
  | spawn =>
    unfold runAfter
    cases l.handler <;> first | exact Or.inr rfl | exact Or.inl rfl
  | abort => exact Or.inl (Spawned.owner_abort l.run)
  | _ => exact Or.inl rfl

/-- The step meets what the bookkeeping of the relay rests on: the socket is bound to the
tuple itself, and the tuple is released only when no task holds the socket. -/
def settles (l : BindSession) : BindAct → Bool
  | .bind (some _) => l.handler.held.all fun addr => addr.port != 0
  | .release => l.run.owner.isNone && l.inbound.owner.isNone
  | _ => true

/-- The tasks own no socket but the one bound to the handler's tuple. -/
structure Inv (l : BindSession) : Prop where
  owned : ∀ {b}, l.Owns b → l.handler.held = some b
  early : l.handler.spawned = false → l.run.owner = none ∧ l.inbound.owner = none

theorem inv_fresh : fresh.Inv where
  owned := by simp [fresh, Owns, BindPc.socket, Spawned.owner]
  early _ := ⟨rfl, rfl⟩

theorem Inv.loops (hl : l.Inv) (h : LoopsEffect act l l') : l'.Inv := by
  constructor
  · intro b hb
    rw [h.handler]
    apply hl.owned
    rcases hb with hb | hb | hb
    · exact Or.inl (h.handler ▸ hb)
    · exact Or.inr (Or.inl (h.run hb))
    · exact Or.inr ((h.inbound hb).symm)
  · intro hspawned
    rw [h.handler] at hspawned
    obtain ⟨hrun, hinbound⟩ := hl.early hspawned
    constructor
    · apply Option.eq_none_iff_forall_ne_some.mpr
      intro b hb
      cases hrun.symm.trans (h.run hb)
    · apply Option.eq_none_iff_forall_ne_some.mpr
      intro b hb
      rcases h.inbound hb with hb | hb
      · cases hinbound.symm.trans hb
      · cases hrun.symm.trans hb

theorem inv_of_handler (hrun : l.run.owner = none) (hinbound : l.inbound.owner = none)
    (hsocket : ∀ {b}, l.handler.socket = some b → l.handler.held = some b) : l.Inv := by
  refine ⟨?_, fun _ => ⟨hrun, hinbound⟩⟩
  intro b hb
  rcases hb with hb | hb | hb
  · exact hsocket hb
  · cases hrun.symm.trans hb
  · cases hinbound.symm.trans hb

theorem Inv.before_spawn {pc : BindPc} (hl : l.Inv) (hpc : l.handler = pc)
    (hspawned : pc.spawned = false) (hrun : l'.run.owner = l.run.owner)
    (hinbound : l'.inbound = l.inbound)
    (hsocket : ∀ {b}, l'.handler.socket = some b → l'.handler.held = some b) : l'.Inv := by
  obtain ⟨hr, hi⟩ := hl.early (hpc ▸ hspawned)
  exact inv_of_handler (hrun.trans hr) (hinbound ▸ hi) hsocket

theorem Inv.after_spawn (hl : l.Inv) (hspawned : l'.handler.spawned = true)
    (hsocket : l'.handler.socket = none) (hheld : l'.handler.held = l.handler.held)
    (hrun : l'.run.owner = l.run.owner) (hinbound : l'.inbound = l.inbound) : l'.Inv := by
  constructor
  · intro b hb
    rw [hheld]
    apply hl.owned
    rcases hb with hb | hb | hb
    · cases hsocket.symm.trans hb
    · exact Or.inr (Or.inl (hrun ▸ hb))
    · exact Or.inr (Or.inr (hinbound ▸ hb))
  · intro hnot
    cases hspawned.symm.trans hnot

theorem Inv.bound_eq {pc : BindPc} {addr bound : SocketAddr} (hl : l.Inv) (hpc : l.handler = pc)
    (hheld : pc.held = some addr) (hsocket : pc.socket = some bound) : addr = bound := by
  have howned := hl.owned (Or.inl (hpc ▸ hsocket))
  rw [hpc, hheld] at howned
  exact Option.some.inj howned

theorem Inv.handler {pc pc' : BindPc} (hl : l.Inv) (hs : l.settles act = true)
    (hpc : l.handler = pc) (hpc' : l'.handler = pc') (h : BindEffect id g act pc g' pc')
    (hrun : l'.run = l.runAfter act) (hinbound : l'.inbound = l.inbound) : l'.Inv := by
  have hnone : pc'.socket = none →
      ∀ {b}, l'.handler.socket = some b → l'.handler.held = some b := by
    intro hsocket b hb
    rw [hpc', hsocket] at hb
    cases hb
  cases h with
  | outside hact hout hspawned hout' hused hsessions =>
    obtain ⟨hr, -⟩ := hl.early (hpc ▸ hspawned)
    have howner : l'.run.owner = l.run.owner := by
      rcases owner_runAfter l act with hkeep | hgot
      · rw [hrun, hkeep]
      · rw [hrun, hgot, hpc, (BindPc.held_of_outside hout).2.1, hr]
    exact hl.before_spawn hpc hspawned howner hinbound (hnone (BindPc.held_of_outside hout').2.1)
  | allocate | bindFailed | notResponded | notReported =>
    exact hl.before_spawn hpc rfl (congrArg _ hrun) hinbound (hnone rfl)
  | @giveBack attempts addr =>
    exact hl.before_spawn hpc rfl (congrArg _ hrun) hinbound
      (hnone (BindPc.held_of_outside (BindPc.outside_retry attempts)).2.1)
  | @bound attempts addr bound hbound =>
    refine hl.before_spawn hpc rfl (congrArg _ hrun) hinbound ?_
    have hport : addr.port ≠ 0 := by simpa [settles, hpc, BindPc.held] using hs
    obtain rfl : bound = addr := hbound.2.resolve_left hport
    intro b hb
    rw [hpc'] at hb ⊢
    exact hb
  | @responded addr bound | @reported addr bound | @register addr bound =>
    obtain rfl : addr = bound := hl.bound_eq hpc rfl rfl
    refine hl.before_spawn hpc rfl (congrArg _ hrun) hinbound ?_
    intro b hb
    rw [hpc'] at hb ⊢
    exact hb
  | @spawn addr bound =>
    obtain ⟨-, hi⟩ := hl.early (by rw [hpc]; rfl)
    obtain rfl : addr = bound := hl.bound_eq hpc rfl rfl
    have howner : l'.run.owner = some addr := by
      rw [hrun, runAfter, hpc]
      rfl
    constructor
    · intro b hb
      rw [hpc']
      rcases hb with hb | hb | hb
      · rw [hpc'] at hb
        cases hb
      · exact howner.symm.trans hb
      · rw [hinbound, hi] at hb
        cases hb
    · intro hnot
      rw [hpc'] at hnot
      cases hnot
  | capsules | unregister =>
    exact hl.after_spawn (by rw [hpc']; rfl) (by rw [hpc']; rfl) (by rw [hpc', hpc]; rfl)
      (congrArg _ hrun) hinbound
  | abort =>
    have howner : l'.run.owner = l.run.owner := by
      rw [hrun]
      exact Spawned.owner_abort l.run
    exact hl.after_spawn (by rw [hpc']; rfl) (by rw [hpc']; rfl) (by rw [hpc', hpc]; rfl) howner
      hinbound
  | release =>
    simp only [settles, Bool.and_eq_true, Option.isNone_iff_eq_none] at hs
    exact inv_of_handler (hrun ▸ hs.1) (hinbound ▸ hs.2) (hnone rfl)

theorem Inv.advance (hl : l.Inv) (hs : l.settles act = true)
    (h : BindSession.advance id act g l = some (g', l')) : l'.Inv := by
  rcases advance_cases h with ⟨heffect, hrun, hinbound⟩ | ⟨-, hloops⟩
  · exact hl.handler hs rfl rfl heffect hrun hinbound
  · exact hl.loops hloops

end BindSession

end Straw
