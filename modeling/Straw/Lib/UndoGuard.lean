import Straw.Lib.Outcome

/-!
# Steps that are taken back

A step is a command with the command that takes it back. The steps of a list are carried
out in order, and a guard collects the second commands of those that worked. Dropping the
guard runs them, the newest first, whatever becomes of each; that happens when a step fails
and, if none does, when the guard goes out of scope.
-/

set_option autoImplicit false

universe u

namespace UndoGuard

open Proc

section Steps
variable {γ : Type} {σ : Type u} {ε : Type} (run : γ → Proc σ ε Unit)

def runAll : List γ → Proc σ ε Unit
  | [] => pure ()
  | c :: rest => do
    let _ ← attempt (run c)
    runAll rest

def drop (undo : List γ) : Proc σ ε Unit := runAll run undo.reverse

def applyAll : List (γ × γ) → List γ → Proc σ ε (List γ)
  | [], undo => pure undo
  | (apply, back) :: rest, undo => do
    match ← attempt (run apply) with
    | .ok _ => applyAll rest (undo ++ [back])
    | .error e => do
      drop run undo
      throw e

end Steps

section Log
variable {γ ε : Type}

/-- Every command that is run is put down in the log, and `works` says, given the log so
far, whether it succeeds. -/
structure Logs (run : γ → Proc (List γ) ε Unit) (works : List γ → γ → Prop) : Prop where
  ok : ∀ {log c}, works log c → (run c).exec log = (.ok (), log ++ [c])
  err : ∀ {log c}, ¬ works log c → ∃ e, (run c).exec log = (.error (.err e), log ++ [c])

/-- The first `k` of the steps work, each after those before it, and the one behind them,
if there is one, does not. -/
structure Reaches (works : List γ → γ → Prop) (log : List γ) (steps : List (γ × γ)) (k : Nat) :
    Prop where
  le : k ≤ steps.length
  done : ∀ j step, j < k → steps[j]? = some step →
    works (log ++ (steps.take j).map Prod.fst) step.1
  stuck : ∀ step, steps[k]? = some step → ¬ works (log ++ (steps.take k).map Prod.fst) step.1

/-- `k` commands, the one that fails, and the way back. -/
def trace (steps : List (γ × γ)) (k : Nat) : List γ :=
  (steps.take (k + 1)).map Prod.fst ++ ((steps.take k).map Prod.snd).reverse

variable {run : γ → Proc (List γ) ε Unit} {works : List γ → γ → Prop} {log : List γ}
  {steps : List (γ × γ)} {k : Nat}

theorem exists_reaches (works : List γ → γ → Prop) (log : List γ) (steps : List (γ × γ)) :
    ∃ k, Reaches works log steps k := by
  induction steps generalizing log with
  | nil =>
    refine ⟨0, Nat.le_refl 0, fun j _ hj => absurd hj (Nat.not_lt_zero j), ?_⟩
    intro step hstep
    cases hstep
  | cons step rest ih =>
    by_cases hstep : works log step.1
    · obtain ⟨k, hk⟩ := ih (log ++ [step.1])
      refine ⟨k + 1, Nat.succ_le_succ hk.le, ?_, ?_⟩
      · intro j next hj hnext
        cases j with
        | zero =>
          obtain rfl := Option.some.inj hnext
          simpa using hstep
        | succ j =>
          have hworks := hk.done j next (Nat.lt_of_succ_lt_succ hj) hnext
          simpa using hworks
      · intro next hnext
        have hfails := hk.stuck next hnext
        simpa using hfails
    · refine ⟨0, Nat.zero_le _, fun j _ hj => absurd hj (Nat.not_lt_zero j), ?_⟩
      intro next hnext
      obtain rfl := Option.some.inj hnext
      simpa using hstep

namespace Reaches

theorem head {step : γ × γ} {rest : List (γ × γ)} (h : Reaches works log (step :: rest) (k + 1)) :
    works log step.1 ∧ Reaches works (log ++ [step.1]) rest k := by
  have hfirst := h.done 0 step (Nat.zero_lt_succ k) rfl
  refine ⟨by simpa using hfirst, Nat.le_of_succ_le_succ h.le, ?_, ?_⟩
  · intro j next hj hnext
    have hworks := h.done (j + 1) next (Nat.succ_lt_succ hj) hnext
    simpa using hworks
  · intro next hnext
    have hfails := h.stuck next hnext
    simpa using hfails

end Reaches

namespace Logs

theorem exec_attempt (h : Logs run works) (log : List γ) (c : γ) :
    ∃ r, (attempt (run c)).exec log = (.ok r, log ++ [c]) := by
  rw [Proc.exec_attempt]
  by_cases hc : works log c
  · rw [h.ok hc]
    exact ⟨_, rfl⟩
  · obtain ⟨e, he⟩ := h.err hc
    rw [he]
    exact ⟨_, rfl⟩

theorem exec_runAll (h : Logs run works) (cmds log : List γ) :
    (runAll run cmds).exec log = (.ok (), log ++ cmds) := by
  induction cmds generalizing log with
  | nil =>
    rw [List.append_nil]
    rfl
  | cons c rest ih =>
    obtain ⟨r, hr⟩ := h.exec_attempt log c
    rw [runAll, exec_bind, hr]
    show (runAll run rest).exec (log ++ [c]) = _
    rw [ih, List.append_assoc]
    rfl

end Logs

theorem head?_trace (step : γ × γ) (rest : List (γ × γ)) (k : Nat) :
    (trace (step :: rest) k).head? = some step.1 := rfl

/-- The first step is the last to be taken back. -/
theorem getLast?_trace (step : γ × γ) (rest : List (γ × γ)) (k : Nat) :
    (trace (step :: rest) (k + 1)).getLast? = some step.2 := by
  rw [trace, List.take_succ_cons, List.take_succ_cons, List.map_cons, List.map_cons,
    List.reverse_cons, ← List.append_assoc, List.getLast?_concat]

namespace Logs

theorem exec_drop (h : Logs run works) (undo log : List γ) :
    (drop run undo).exec log = (.ok (), log ++ undo.reverse) := by
  rw [drop, h.exec_runAll]

/-- Either every step works and the guard holds all the way back, or the way back is gone
already. -/
theorem exec_applyAll_cases (h : Logs run works) (hk : Reaches works log steps k)
    (undo : List γ) :
    (k = steps.length ∧ (applyAll run steps undo).exec log =
      (.ok (undo ++ steps.map Prod.snd), log ++ steps.map Prod.fst)) ∨
    ∃ step e, steps[k]? = some step ∧ (applyAll run steps undo).exec log =
      (.error (.err e), log ++ (steps.take k).map Prod.fst ++ [step.1] ++
        (undo ++ (steps.take k).map Prod.snd).reverse) := by
  induction steps generalizing log undo k with
  | nil =>
    refine Or.inl ⟨Nat.le_zero.mp hk.le, ?_⟩
    simp only [List.map_nil, List.append_nil]
    rfl
  | cons step rest ih =>
    obtain ⟨apply, back⟩ := step
    cases k with
    | zero =>
      have hfails : ¬ works log apply := by
        have hstuck := hk.stuck (apply, back) rfl
        simpa using hstuck
      obtain ⟨e, he⟩ := h.err hfails
      refine Or.inr ⟨(apply, back), e, rfl, ?_⟩
      rw [applyAll, exec_bind, Proc.exec_attempt, he]
      show (drop run undo >>= fun _ => throw e).exec (log ++ [apply]) = _
      rw [exec_bind, h.exec_drop]
      simp only [List.take_zero, List.map_nil, List.append_nil]
      rfl
    | succ k =>
      obtain ⟨hworks, hrest⟩ := hk.head
      have hexec : (applyAll run ((apply, back) :: rest) undo).exec log =
          (applyAll run rest (undo ++ [back])).exec (log ++ [apply]) := by
        rw [applyAll, exec_bind, Proc.exec_attempt, h.ok hworks]
      rcases ih hrest (undo ++ [back]) with ⟨hall, hdone⟩ | ⟨step, e, hstep, herror⟩
      · refine Or.inl ⟨congrArg (· + 1) hall, ?_⟩
        rw [hexec, hdone]
        simp
      · refine Or.inr ⟨step, e, hstep, ?_⟩
        rw [hexec, herror]
        simp

/-- What is in the log when the guard has been dropped, by an error or at the end. -/
theorem exec_trace (h : Logs run works) (hk : Reaches works log steps k) :
    ((applyAll run steps [] >>= drop run).exec log).2 = log ++ trace steps k := by
  rcases h.exec_applyAll_cases hk [] with ⟨rfl, hdone⟩ | ⟨step, e, hstep, herror⟩
  · rw [exec_bind, hdone]
    simp [h.exec_drop, trace, List.take_of_length_le]
  · rw [exec_bind, herror]
    simp [trace, List.take_add_one, hstep]

end Logs

end Log

section Effects
variable {γ : Type}

/-- Every undo in the log worked where it stands. -/
def UndoesWork (works : List γ → γ → Prop) (isStep : γ × γ → Prop) (log : List γ) : Prop :=
  ∀ before step after, log = before ++ step.2 :: after → isStep step → works before step.2

theorem UndoesWork.mono {works : List γ → γ → Prop} {isStep : γ × γ → Prop} {log log' : List γ}
    (h : UndoesWork works isStep log') (hle : log <+: log') : UndoesWork works isStep log := by
  obtain ⟨rest, rfl⟩ := hle
  rintro before step after rfl
  exact h before step (after ++ rest) (List.append_assoc _ _ _)

/-- A view of what the commands of a log leave behind. A command that fails leaves
nothing, one that is out of view leaves nothing to be seen, and the second command of a
step, if it works, takes back what the first did, once what was done in between has been
taken back. -/
structure Effects (works : List γ → γ → Prop) (unseen : γ → Prop) (isStep : γ × γ → Prop)
    (σ : Type) where
  state : List γ → σ
  failed : ∀ {log c}, ¬ works log c → state (log ++ [c]) = state log
  unseen : ∀ {log c}, unseen c → state (log ++ [c]) = state log
  undo : ∀ {log step mid}, isStep step → works log step.1 →
    works (log ++ step.1 :: mid) step.2 →
    state (log ++ step.1 :: mid) = state (log ++ [step.1]) →
    state (log ++ step.1 :: mid ++ [step.2]) = state log

namespace Effects

variable {works : List γ → γ → Prop} {unseen : γ → Prop} {isStep : γ × γ → Prop} {σ : Type}
  {log mid : List γ} {steps : List (γ × γ)} {k : Nat}

theorem state_unseen (E : Effects works unseen isStep σ) (log : List γ) {cmds : List γ}
    (h : ∀ c ∈ cmds, unseen c) : E.state (log ++ cmds) = E.state log := by
  induction cmds generalizing log with
  | nil => rw [List.append_nil]
  | cons c rest ih =>
    have hrest := ih (log ++ [c]) fun d hd => h d (List.mem_cons_of_mem c hd)
    rw [List.append_assoc, List.singleton_append] at hrest
    exact hrest.trans (E.unseen (h c List.mem_cons_self))

/-- The steps are taken back in reverse, whatever was done and taken back in between. -/
theorem state_unwind (E : Effects works unseen isStep σ) (hsteps : ∀ step ∈ steps, isStep step)
    (hworks : ∀ j step, steps[j]? = some step →
      works (log ++ (steps.take j).map Prod.fst) step.1)
    (hmid : E.state (log ++ steps.map Prod.fst ++ mid) = E.state (log ++ steps.map Prod.fst))
    (hundoes : UndoesWork works isStep
      (log ++ steps.map Prod.fst ++ mid ++ (steps.map Prod.snd).reverse)) :
    E.state (log ++ steps.map Prod.fst ++ mid ++ (steps.map Prod.snd).reverse) = E.state log := by
  induction steps generalizing log with
  | nil => simpa using hmid
  | cons step rest ih =>
    have hlog : log ++ (step :: rest).map Prod.fst ++ mid ++ ((step :: rest).map Prod.snd).reverse =
        log ++ [step.1] ++ rest.map Prod.fst ++ mid ++ (rest.map Prod.snd).reverse ++ [step.2] := by
      simp
    rw [hlog] at hundoes ⊢
    have hinner : E.state (log ++ [step.1] ++ rest.map Prod.fst ++ mid ++
        (rest.map Prod.snd).reverse) = E.state (log ++ [step.1]) := by
      refine ih (fun s hs => hsteps s (List.mem_cons_of_mem step hs)) ?_ (by simpa using hmid)
        (hundoes.mono (List.prefix_append _ _))
      intro j s hs
      have h := hworks (j + 1) s hs
      simpa using h
    have hfirst : works log step.1 := by
      have h := hworks 0 step rfl
      simpa using h
    have hlast := hundoes _ step [] rfl (hsteps step List.mem_cons_self)
    have hundo : E.state (log ++ step.1 :: (rest.map Prod.fst ++ mid ++
        (rest.map Prod.snd).reverse) ++ [step.2]) = E.state log :=
      E.undo (hsteps step List.mem_cons_self) hfirst (by simpa using hlast) (by simpa using hinner)
    simpa using hundo

/-- A list of steps that is broken off leaves nothing. -/
theorem state_broken (E : Effects works unseen isStep σ) (hsteps : ∀ step ∈ steps, isStep step)
    (hk : Reaches works log steps k) {step : γ × γ} (hstep : steps[k]? = some step)
    (hundoes : UndoesWork works isStep (log ++ (steps.take k).map Prod.fst ++ [step.1] ++
      ((steps.take k).map Prod.snd).reverse)) :
    E.state (log ++ (steps.take k).map Prod.fst ++ [step.1] ++
      ((steps.take k).map Prod.snd).reverse) = E.state log := by
  refine E.state_unwind (fun s hs => hsteps s (List.mem_of_mem_take hs)) ?_
    (E.failed (hk.stuck step hstep)) hundoes
  intro j s hs
  rw [List.getElem?_take] at hs
  split at hs
  · rename_i hj
    rw [List.take_take, Nat.min_eq_left (Nat.le_of_lt hj)]
    exact hk.done j s hj hs
  · cases hs

end Effects

end Effects

end UndoGuard
