import Mathlib.Data.Finset.Card
import Straw.Capsule.Codec
import Straw.Lib.Tasks
import Straw.Session.Manager

/-!
# The session limit under concurrent requests

`insert` reads the length of the session map and adds to the two maps in separate steps;
the task of another session may run between any two of them.
-/

namespace Straw.SessionManager

open Transition
set_option autoImplicit false

inductive Call where
  | insert (session : TunnelSession)
  | remove

inductive Pc where
  | idle
  | readLen (session : TunnelSession)
  | insertSnapshot (session : TunnelSession)
  | insertSession (session : TunnelSession)
  | returned (result : Except ProxyError Unit)
  | removeSession
  | removeSnapshot

def limitReached (m : SessionManager) : ProxyError :=
  .invalidRequest s!"session limit reached ({m.maxSessions})"

namespace Pc

def entry : Call → Pc
  | .insert session => .readLen session
  | .remove => .removeSession

def next (s : SessionId) (m : SessionManager) : Pc → Option (SessionManager × Pc)
  | .idle => none
  | .readLen session =>
    some (m, if 0 < m.maxSessions ∧ m.maxSessions ≤ m.len then .returned (.error m.limitReached)
      else .insertSnapshot session)
  | .insertSnapshot session =>
    some ({ m with assigned := m.assigned.insert session.id session.assignedAddresses },
      .insertSession session)
  | .insertSession session =>
    some ({ m with sessions := m.sessions.insert session.id session }, .returned (.ok ()))
  | .returned _ => some (m, .idle)
  | .removeSession => some ({ m with sessions := m.sessions.erase s }, .removeSnapshot)
  | .removeSnapshot => some ({ m with assigned := m.assigned.remove s }, .idle)

/-- The call has passed the check and not yet added its session. -/
def admitted : Pc → Bool
  | .insertSnapshot _ | .insertSession _ => true
  | _ => false

end Pc

inductive Act where
  | start (call : Call)
  | tick

/-- A task inserts and removes the session it serves. -/
def Call.serves (s : SessionId) : Call → Prop
  | .insert session => session.id = s
  | .remove => True

instance (s : SessionId) : (call : Call) → Decidable (call.serves s)
  | .insert session => inferInstanceAs (Decidable (session.id = s))
  | .remove => inferInstanceAs (Decidable True)

def advance (s : SessionId) : Act → SessionManager → Pc → Option (SessionManager × Pc)
  | .start call, m, .idle => if call.serves s then some (m, Pc.entry call) else none
  | .start _, _, _ => none
  | .tick, m, pc => pc.next s m

abbrev Sys := Tasks SessionId SessionManager Pc

abbrev Label := Tasks.Label SessionId Act Empty

def step : Sys → Label → Option Sys := Tasks.step advance Empty.elim

def initial (maxSessions : Nat) : Sys := ⟨new maxSessions, fun _ => .idle⟩

section Solo

/-- A call that nobody interrupts is the sequential operation. -/
theorem solo_insert (m : SessionManager) (session : TunnelSession) :
    ∃ n, Tasks.solo advance session.id (List.replicate n .tick) m (.readLen session) =
      some (match m.insert session with
        | none => (m, .returned (.error m.limitReached))
        | some m' => (m', .returned (.ok ()))) := by
  unfold insert
  by_cases hfull : 0 < m.maxSessions ∧ m.maxSessions ≤ m.len
  · exact ⟨1, by simp [Tasks.solo, advance, Pc.next, hfull]⟩
  · refine ⟨3, ?_⟩
    simp only [List.replicate, Tasks.solo, advance, Pc.next, if_neg hfull, Option.bind_some]

theorem solo_remove (m : SessionManager) (s : SessionId) :
    Tasks.solo advance s [.tick, .tick] m .removeSession = some (m.remove s, .idle) := rfl

end Solo

theorem len_eq_keys (m : SessionManager) : m.len = m.sessions.keys.length := by
  simp only [len, AList.keys, List.keys, List.length_map]

theorem length_insert_le (m : SessionManager) (session : TunnelSession) :
    ({ m with sessions := m.sessions.insert session.id session } : SessionManager).len ≤
      m.len + 1 := by
  rw [len_eq_keys, len_eq_keys, AList.keys_insert, List.length_cons]
  exact Nat.succ_le_succ List.length_erase_le

theorem length_erase_le (m : SessionManager) (s : SessionId) :
    ({ m with sessions := m.sessions.erase s } : SessionManager).len ≤ m.len := by
  rw [len_eq_keys, len_eq_keys, AList.keys_erase]
  exact List.length_erase_le

/-- The calls past the check are exactly those of `F`. -/
def Admits (σ : Sys) (F : Finset SessionId) : Prop := ∀ i, (σ.task i).admitted = true ↔ i ∈ F

/-- Fewer than `n` calls are past the check whenever another one makes it. -/
def Overlap (n : Nat) (σ : Sys) : Label → Prop
  | .task s .tick => ∀ session, σ.task s = .readLen session → ∃ F, Admits σ F ∧ F.card < n
  | _ => True

/-- The table together with the calls that are going to add to it. -/
def Bounded (maxSessions n : Nat) (σ : Sys) : Prop :=
  σ.shared.maxSessions = maxSessions ∧
    ∃ F, Admits σ F ∧ σ.shared.len + F.card + 1 ≤ maxSessions + n

section Steps

variable {σ : Sys} {s : SessionId} {F : Finset SessionId} {m : SessionManager} {pc : Pc}

theorem Admits.unique {F' : Finset SessionId} (h : Admits σ F) (h' : Admits σ F') : F = F' := by
  ext i
  exact (h i).symm.trans (h' i)

theorem Admits.same (h : Admits σ F) (hpc : pc.admitted = (σ.task s).admitted) :
    Admits ⟨m, Function.update σ.task s pc⟩ F := by
  intro i
  by_cases hi : i = s
  · subst hi
    simpa [hpc] using h i
  · simpa [Function.update_of_ne hi] using h i

theorem Admits.enter (h : Admits σ F) (hpc : pc.admitted = true) :
    Admits ⟨m, Function.update σ.task s pc⟩ (Insert.insert s F) := by
  intro i
  by_cases hi : i = s
  · subst hi
    simp [hpc]
  · simpa [Function.update_of_ne hi, hi] using h i

theorem Admits.leave (h : Admits σ F) (hpc : pc.admitted = false) :
    Admits ⟨m, Function.update σ.task s pc⟩ (F.erase s) := by
  intro i
  by_cases hi : i = s
  · subst hi
    simp [hpc]
  · simpa [Function.update_of_ne hi, hi] using h i

variable {maxSessions n : Nat}

/-- A step that admits nobody and adds nothing. -/
theorem Bounded.same (h : Bounded maxSessions n σ) (hpc : pc.admitted = (σ.task s).admitted)
    (hmax : m.maxSessions = σ.shared.maxSessions) (hlen : m.len ≤ σ.shared.len) :
    Bounded maxSessions n ⟨m, Function.update σ.task s pc⟩ := by
  obtain ⟨hlimit, F, hF, hbound⟩ := h
  refine ⟨hmax.trans hlimit, F, hF.same hpc, ?_⟩
  change m.len + F.card + 1 ≤ maxSessions + n
  omega

theorem Bounded.check {session : TunnelSession} (h : Bounded maxSessions n σ)
    (hmax : 0 < maxSessions) (hstage : σ.task s = .readLen session)
    (hoverlap : Overlap n σ (.task s .tick))
    (hnext : Pc.next s σ.shared (.readLen session) = some (m, pc)) :
    Bounded maxSessions n ⟨m, Function.update σ.task s pc⟩ := by
  simp only [Pc.next, Option.some.injEq, Prod.mk.injEq] at hnext
  obtain ⟨rfl, rfl⟩ := hnext
  split
  · exact h.same (by rw [hstage]; rfl) rfl le_rfl
  · rename_i hroom
    obtain ⟨hlimit, F, hF, _⟩ := h
    obtain ⟨F', hF', hcard⟩ := hoverlap session hstage
    obtain rfl := hF.unique hF'
    refine ⟨hlimit, Insert.insert s F, hF.enter rfl, ?_⟩
    have hinsert := Finset.card_insert_le s F
    change σ.shared.len + (Insert.insert s F).card + 1 ≤ maxSessions + n
    omega

theorem Bounded.add {session : TunnelSession} (h : Bounded maxSessions n σ)
    (hstage : σ.task s = .insertSession session) :
    Bounded maxSessions n
      ⟨{ σ.shared with sessions := σ.shared.sessions.insert session.id session },
        Function.update σ.task s (.returned (.ok ()))⟩ := by
  obtain ⟨hlimit, F, hF, hbound⟩ := h
  have hs : s ∈ F := (hF s).mp (by rw [hstage]; rfl)
  refine ⟨hlimit, F.erase s, hF.leave rfl, ?_⟩
  have hcard := Finset.card_erase_add_one hs
  have hlen := length_insert_le σ.shared session
  simp only
  omega

theorem Bounded.tick (h : Bounded maxSessions n σ) (hmax : 0 < maxSessions)
    (hoverlap : Overlap n σ (.task s .tick)) (hnext : (σ.task s).next s σ.shared = some (m, pc)) :
    Bounded maxSessions n ⟨m, Function.update σ.task s pc⟩ := by
  cases hstage : σ.task s with
  | idle => simp [hstage, Pc.next] at hnext
  | readLen session => exact h.check hmax hstage hoverlap (by rwa [hstage] at hnext)
  | insertSession session =>
    rw [hstage] at hnext
    cases hnext
    exact h.add hstage
  | removeSession =>
    rw [hstage] at hnext
    cases hnext
    exact h.same (by rw [hstage]; rfl) rfl (length_erase_le σ.shared s)
  | insertSnapshot | returned | removeSnapshot =>
    rw [hstage] at hnext
    cases hnext
    exact h.same (by rw [hstage]; rfl) rfl le_rfl

theorem Bounded.start {call : Call} (h : Bounded maxSessions n σ)
    (hstart : advance s (.start call) σ.shared (σ.task s) = some (m, pc)) :
    Bounded maxSessions n ⟨m, Function.update σ.task s pc⟩ := by
  cases hstage : σ.task s with
  | idle =>
    simp only [hstage, advance] at hstart
    split at hstart
    · cases hstart
      refine h.same ?_ rfl le_rfl
      rw [hstage]
      cases call <;> rfl
    · cases hstart
  | readLen | insertSnapshot | insertSession | returned | removeSession | removeSnapshot =>
    simp [hstage, advance] at hstart

end Steps

/-- Sessions beyond the limit are as many as the calls that may be past the check together,
less one. -/
theorem bounded_run {maxSessions n : Nat} (hmax : 0 < maxSessions) (hn : 0 < n)
    {labels : List Label} {σ : Sys}
    (h : Run (Guarded (Overlap n) (Fires step)) (initial maxSessions) labels σ) :
    Bounded maxSessions n σ := by
  refine h.invariant (Bounded maxSessions n) ?_ ?_
  · rintro σ label τ hσ ⟨hoverlap, hstep⟩
    cases label with
    | task s act =>
      obtain ⟨⟨m, pc⟩, hadv, rfl⟩ := Option.map_eq_some_iff.mp hstep
      cases act with
      | start call => exact hσ.start hadv
      | tick => exact hσ.tick hmax hoverlap hadv
    | env d => exact d.elim
  · refine ⟨rfl, ∅, by simp [Admits, initial, Pc.admitted], ?_⟩
    simp only [initial, new, len, Finset.card_empty]
    change 0 + 0 + 1 ≤ maxSessions + n
    omega

/-- No call is past the check while another one makes it. -/
def OneAtATime (σ : Sys) : Label → Prop
  | .task s .tick => ∀ session, σ.task s = .readLen session → ∀ i, (σ.task i).admitted = false
  | _ => True

theorem OneAtATime.overlap {σ : Sys} {label : Label} (h : OneAtATime σ label) :
    Overlap 1 σ label := by
  cases label with
  | env d => exact d.elim
  | task s act =>
    cases act with
    | start call => trivial
    | tick =>
      intro session hstage
      exact ⟨∅, by simp [Admits, h session hstage], by simp⟩

theorem len_le_maxSessions {maxSessions : Nat} (hmax : 0 < maxSessions) {labels : List Label}
    {σ : Sys} (h : Run (Guarded OneAtATime (Fires step)) (initial maxSessions) labels σ) :
    σ.shared.len ≤ maxSessions := by
  have hoverlap : Run (Guarded (Overlap 1) (Fires step)) (initial maxSessions) labels σ :=
    h.mono fun _ _ _ hstep => ⟨hstep.1.overlap, hstep.2⟩
  obtain ⟨_, F, _, hbound⟩ := bounded_run hmax Nat.one_pos hoverlap
  omega

section Example

def freshSession (s : SessionId) : TunnelSession := ⟨s, [], [], [], [], 0⟩

def request (s : SessionId) : Label := .task s (.start (.insert (freshSession s)))

def oneThenAnother : List Label :=
  [request ⟨0⟩] ++ List.replicate 3 (.task ⟨0⟩ .tick) ++ [request ⟨1⟩, .task ⟨1⟩ .tick]

/-- The second of two requests in a row is refused. -/
theorem len_le_maxSessions_refused :
    ∃ σ, Run (Guarded OneAtATime (Fires step)) (initial 1) oneThenAnother σ ∧
      σ.task ⟨1⟩ = .returned (.error (.invalidRequest "session limit reached (1)")) ∧
      σ.shared.len = 1 ∧ σ.shared.len ≤ 1 := by
  obtain ⟨σ, hσ, hrefused, hlen⟩ :
      ∃ σ, Run (Guarded OneAtATime (Fires step)) (initial 1) oneThenAnother σ ∧
        σ.task ⟨1⟩ = .returned (.error (.invalidRequest "session limit reached (1)")) ∧
        σ.shared.len = 1 := by
    refine ⟨_, .cons ⟨trivial, rfl⟩ (.cons ⟨?_, rfl⟩ (.cons ⟨?_, rfl⟩ (.cons ⟨?_, rfl⟩
      (.cons ⟨trivial, rfl⟩ (.cons ⟨?_, rfl⟩ (.nil _)))))), rfl, rfl⟩
    · intro _ _ i
      by_cases hi : i = ⟨0⟩ <;> simp [Function.update_apply, hi, initial, Pc.entry, Pc.admitted]
    · rintro _ ⟨⟩
    · rintro _ ⟨⟩
    · intro _ _ i
      by_cases hi : i = ⟨1⟩
      · simp [hi, Pc.entry, Pc.admitted]
      · by_cases hi' : i = ⟨0⟩ <;>
          simp [hi, hi', initial, Pc.admitted]
  exact ⟨σ, hσ, hrefused, hlen, len_le_maxSessions Nat.one_pos hσ⟩

/-- Two requests that both read the length before either adds its session. -/
theorem limit_exceeded :
    ∃ σ, Run (Fires step) (initial 1)
        ([request ⟨0⟩, request ⟨1⟩, .task ⟨0⟩ .tick, .task ⟨1⟩ .tick] ++
          List.replicate 2 (.task ⟨0⟩ .tick) ++ List.replicate 2 (.task ⟨1⟩ .tick)) σ ∧
      σ.shared.maxSessions = 1 ∧ σ.shared.len = 2 := by
  have hexec : (exec step (initial 1)
      ([request ⟨0⟩, request ⟨1⟩, .task ⟨0⟩ .tick, .task ⟨1⟩ .tick] ++
        List.replicate 2 (.task ⟨0⟩ .tick) ++ List.replicate 2 (.task ⟨1⟩ .tick))).map
        (fun σ => (σ.shared.maxSessions, σ.shared.len)) = some (1, 2) := by decide +kernel
  obtain ⟨σ, hσ, hobs⟩ := Option.map_eq_some_iff.mp hexec
  obtain ⟨hmax, hlen⟩ := Prod.mk.inj hobs
  exact ⟨σ, run_of_exec hσ, hmax, hlen⟩

end Example

end Straw.SessionManager
