import Mathlib.Logic.Function.Basic
import Straw.Lib.Run

/-!
# Tasks over a shared state

A task is a local state; one atomic step of task `k` on input `b` reads and writes
its own local state and the shared one. Steps of the environment change the shared
state only. An assertion about each task alone is proved for all interleavings by
three obligations: the task's own steps keep it, and neither the steps of the other
tasks nor those of the environment interfere with it.
-/

namespace Transition

set_option autoImplicit false

universe u v w x y

structure Tasks (κ : Type u) (γ : Type v) (ℓ : Type w) where
  shared : γ
  task : κ → ℓ

namespace Tasks

inductive Label (κ : Type u) (β : Type x) (δ : Type y) where
  | task (k : κ) (b : β)
  | env (d : δ)

variable {κ : Type u} {γ : Type v} {ℓ : Type w} {β : Type x} {δ : Type y} [DecidableEq κ]
variable (advance : κ → β → γ → ℓ → Option (γ × ℓ)) (env : δ → γ → Option γ)

def step (σ : Tasks κ γ ℓ) : Label κ β δ → Option (Tasks κ γ ℓ)
  | .task k b =>
    (advance k b σ.shared (σ.task k)).map fun r => ⟨r.1, Function.update σ.task k r.2⟩
  | .env d => (env d σ.shared).map fun g => { σ with shared := g }

variable {advance env} {G : Tasks κ γ ℓ → Label κ β δ → Prop} {J : κ → γ → ℓ → Prop}

/-- An assertion that own steps keep and other steps do not interfere with holds of every
task wherever a run ends. -/
theorem run_keeps
    (own : ∀ {σ : Tasks κ γ ℓ} {k b g l}, J k σ.shared (σ.task k) → G σ (.task k b) →
      advance k b σ.shared (σ.task k) = some (g, l) → J k g l)
    (other : ∀ {σ : Tasks κ γ ℓ} {k b g l i}, i ≠ k → J k σ.shared (σ.task k) →
      J i σ.shared (σ.task i) → G σ (.task k b) →
      advance k b σ.shared (σ.task k) = some (g, l) → J i g (σ.task i))
    (outside : ∀ {σ : Tasks κ γ ℓ} {d g i}, J i σ.shared (σ.task i) → G σ (.env d) →
      env d σ.shared = some g → J i g (σ.task i))
    {σ τ : Tasks κ γ ℓ} {as : List (Label κ β δ)}
    (h : Run (Guarded G (Fires (step advance env))) σ as τ)
    (hσ : ∀ k, J k σ.shared (σ.task k)) (k : κ) : J k τ.shared (τ.task k) := by
  refine h.invariant (fun τ => ∀ k, J k τ.shared (τ.task k)) ?_ hσ k
  intro σ a τ hJ hstep i
  obtain ⟨hguard, hfires⟩ := hstep
  cases a with
  | task k b =>
    obtain ⟨⟨g, l⟩, hadv, rfl⟩ := Option.map_eq_some_iff.mp hfires
    by_cases hi : i = k
    · subst hi
      simp only [Function.update_self]
      exact own (hJ i) hguard hadv
    · simp only [Function.update_of_ne hi]
      exact other hi (hJ k) (hJ i) hguard hadv
  | env d =>
    obtain ⟨g, henv, rfl⟩ := Option.map_eq_some_iff.mp hfires
    have hkept : J i g (σ.task i) := outside (hJ i) hguard henv
    exact hkept

/-- The same for runs under no condition. -/
theorem run_keeps_all
    (own : ∀ {k b g g' l l'}, J k g l → advance k b g l = some (g', l') → J k g' l')
    (other : ∀ {k b g g' l l' i li}, i ≠ k → J k g l → J i g li →
      advance k b g l = some (g', l') → J i g' li)
    (outside : ∀ {d g g' i li}, J i g li → env d g = some g' → J i g' li)
    {σ τ : Tasks κ γ ℓ} {as : List (Label κ β δ)} (h : Run (Fires (step advance env)) σ as τ)
    (hσ : ∀ k, J k σ.shared (σ.task k)) (k : κ) : J k τ.shared (τ.task k) := by
  refine run_keeps (J := J) ?_ ?_ ?_ h.trivially hσ k
  · intro σ k b g l hJ _ hadv
    exact own hJ hadv
  · intro σ k b g l i hne hk hi _ hadv
    exact other hne hk hi hadv
  · intro σ d g i hi _ henv
    exact outside hi henv

/-- What a task did not have at the start it was given by a step of its own. -/
theorem run_origin {Q : ℓ → Prop} {R : β → Prop}
    (own : ∀ {k b g g' l l'}, advance k b g l = some (g', l') → Q l' → Q l ∨ R b)
    {σ τ : Tasks κ γ ℓ} {as : List (Label κ β δ)} (h : Run (Fires (step advance env)) σ as τ)
    {k : κ} (hσ : ¬ Q (σ.task k)) (hτ : Q (τ.task k)) : ∃ b, R b ∧ .task k b ∈ as := by
  induction h with
  | nil => exact absurd hτ hσ
  | @snoc υ τ as a hrun hlast ih =>
    have hearlier : Q (υ.task k) → ∃ b, R b ∧ .task k b ∈ as ++ [a] := by
      intro hυ
      obtain ⟨b, hb, hmem⟩ := ih hυ
      exact ⟨b, hb, List.mem_append_left _ hmem⟩
    cases a with
    | env d =>
      obtain ⟨g, -, rfl⟩ := Option.map_eq_some_iff.mp hlast
      exact hearlier hτ
    | task i b =>
      obtain ⟨⟨g, l⟩, hadv, rfl⟩ := Option.map_eq_some_iff.mp hlast
      by_cases hk : k = i
      · subst hk
        simp only [Function.update_self] at hτ
        rcases own hadv hτ with hυ | hb
        · exact hearlier hυ
        · exact ⟨b, hb, List.mem_append_right _ (List.mem_singleton_self _)⟩
      · simp only [Function.update_of_ne hk] at hτ
        exact hearlier hτ

variable (advance) in
def solo (k : κ) : List β → γ → ℓ → Option (γ × ℓ)
  | [], g, l => some (g, l)
  | b :: bs, g, l => (advance k b g l).bind fun r => solo k bs r.1 r.2

theorem exec_solo (k : κ) (bs : List β) (σ : Tasks κ γ ℓ) {g : γ} {l : ℓ}
    (h : solo advance k bs σ.shared (σ.task k) = some (g, l)) :
    exec (step advance env) σ (bs.map (Label.task k)) =
      some ⟨g, Function.update σ.task k l⟩ := by
  induction bs generalizing σ with
  | nil =>
    obtain ⟨rfl, rfl⟩ : σ.shared = g ∧ σ.task k = l := by simpa [solo] using h
    simp [exec]
  | cons b bs ih =>
    obtain ⟨⟨g', l'⟩, hadv, hrest⟩ := Option.bind_eq_some_iff.mp h
    have hnext := ih ⟨g', Function.update σ.task k l'⟩ (by simpa using hrest)
    simp only [List.map_cons, exec, step, hadv, Option.map_some, Option.bind_some]
    rw [hnext, Function.update_idem]

end Tasks

end Transition
