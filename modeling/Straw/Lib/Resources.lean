import Mathlib.Data.Finset.Erase
import Mathlib.Data.Finset.Insert
import Straw.Lib.Tasks

/-!
# Tasks that hold resources

Each task holds at most one resource of a shared set of resources in use. A task takes
a resource that is not in use, returns the one it holds, or forgets it: then the
resource stays in use and nobody holds it.
-/

namespace Transition

set_option autoImplicit false

universe u v w x

variable {ρ : Type x} [DecidableEq ρ]

/-- One step of a task that held `o` and holds `o'`, with the resources in use before and
after it. -/
inductive Moves (forgets : Prop) (used used' : Finset ρ) (o o' : Option ρ) : Prop where
  | keep (hf : ¬ forgets) (hused : used' = used) (ho : o' = o)
  | acquire (r : ρ) (hf : ¬ forgets) (hfree : r ∉ used) (hused : used' = insert r used)
      (hnone : o = none) (ho : o' = some r)
  | release (r : ρ) (hf : ¬ forgets) (hr : o = some r) (hused : used' = used.erase r)
      (ho : o' = none)
  | forget (r : ρ) (hf : forgets) (hr : o = some r) (hused : used' = used) (ho : o' = none)

namespace Moves

variable {forgets : Prop} {used used' : Finset ρ} {o o' : Option ρ} {r : ρ}

theorem stays (h : Moves forgets used used' o o') (hr : r ∈ used) (ho : o ≠ some r) :
    r ∈ used' := by
  cases h with
  | keep hf hused ho' => rwa [hused]
  | acquire r' hf hfree hused hnone ho' =>
    rw [hused]
    exact Finset.mem_insert_of_mem hr
  | release r' hf hr' hused ho' =>
    rw [hused]
    refine Finset.mem_erase.mpr ⟨?_, hr⟩
    intro heq
    exact ho (heq ▸ hr')
  | forget r' hf hr' hused ho' => rwa [hused]

theorem held_cases (h : Moves forgets used used' o o') (hr : o' = some r) :
    o = some r ∧ used' = used ∨ r ∉ used ∧ r ∈ used' := by
  cases h with
  | keep hf hused ho => exact Or.inl ⟨ho ▸ hr, hused⟩
  | acquire r' hf hfree hused hnone ho =>
    obtain rfl : r' = r := Option.some.inj (ho.symm.trans hr)
    exact Or.inr ⟨hfree, by simp [hused]⟩
  | release r' hf hr' hused ho => cases ho.symm.trans hr
  | forget r' hf hr' hused ho => cases ho.symm.trans hr

end Moves

section Exclusive

variable {κ : Type u} {γ : Type v} {ℓ : Type w} [DecidableEq κ]
variable (used : γ → Finset ρ) (held : ℓ → Option ρ)

/-- Every held resource is in use, and one task holds it. -/
structure Exclusive (σ : Tasks κ γ ℓ) : Prop where
  inUse : ∀ {k r}, held (σ.task k) = some r → r ∈ used σ.shared
  unique : ∀ {i k r}, held (σ.task i) = some r → held (σ.task k) = some r → i = k

variable {used held}

theorem Exclusive.step {forgets : Prop} {g : γ} {l : ℓ} {σ : Tasks κ γ ℓ} {k : κ}
    (hσ : Exclusive used held σ)
    (h : Moves forgets (used σ.shared) (used g) (held (σ.task k)) (held l)) :
    Exclusive used held ⟨g, Function.update σ.task k l⟩ := by
  have hdistinct : ∀ {i r}, i ≠ k → held (σ.task i) = some r → held l ≠ some r := by
    intro i r hi hri hrl
    rcases h.held_cases hrl with ⟨hrk, -⟩ | ⟨hfree, -⟩
    · exact hi (hσ.unique hri hrk)
    · exact hfree (hσ.inUse hri)
  constructor
  · intro i r hr
    by_cases hi : i = k
    · subst hi
      simp only [Function.update_self] at hr
      rcases h.held_cases hr with ⟨hrk, hused⟩ | ⟨-, hmem⟩
      · exact hused ▸ hσ.inUse hrk
      · exact hmem
    · simp only [Function.update_of_ne hi] at hr
      exact h.stays (hσ.inUse hr) (fun hrk => hi (hσ.unique hr hrk))
  · intro i j r hri hrj
    by_cases hi : i = k
    · by_cases hj : j = k
      · exact hi.trans hj.symm
      · subst hi
        simp only [Function.update_self, Function.update_of_ne hj] at hri hrj
        exact absurd hri (hdistinct hj hrj)
    · by_cases hj : j = k
      · subst hj
        simp only [Function.update_self, Function.update_of_ne hi] at hri hrj
        exact absurd hrj (hdistinct hi hri)
      · simp only [Function.update_of_ne hi, Function.update_of_ne hj] at hri hrj
        exact hσ.unique hri hrj

end Exclusive

/-- What a task that runs by itself did to the resources in use `before` it: it holds at
most one more and forgot the ones in `lost`. -/
structure Account (before : Finset ρ) (clean : Prop) (used : Finset ρ) (o : Option ρ)
    (lost : Finset ρ) : Prop where
  mem_used : ∀ r, r ∈ used ↔ r ∈ before ∨ r ∈ lost ∨ o = some r
  held_new : ∀ {r}, o = some r → r ∉ before ∧ r ∉ lost
  lost_new : ∀ {r}, r ∈ lost → r ∉ before
  lost_iff : lost = ∅ ↔ clean

namespace Account

variable {forgets clean : Prop} {before used used' lost : Finset ρ} {o o' : Option ρ}

omit [DecidableEq ρ] in
theorem start (before : Finset ρ) : Account before True before none ∅ where
  mem_used := by simp
  held_new := by simp
  lost_new := by simp
  lost_iff := by simp

theorem step (ha : Account before clean used o lost) (h : Moves forgets used used' o o') :
    ∃ lost', Account before (clean ∧ ¬ forgets) used' o' lost' := by
  cases h with
  | keep hf hused ho =>
    subst hused ho
    exact ⟨lost, ha.mem_used, ha.held_new, ha.lost_new, by simp [ha.lost_iff, hf]⟩
  | acquire r hf hfree hused hnone ho =>
    subst hused hnone ho
    have hnew : r ∉ before ∧ r ∉ lost := by
      constructor
      · intro hbefore
        exact hfree ((ha.mem_used r).mpr (Or.inl hbefore))
      · intro hlost
        exact hfree ((ha.mem_used r).mpr (Or.inr (Or.inl hlost)))
    refine ⟨lost, ?_, ?_, ha.lost_new, by simp [ha.lost_iff, hf]⟩
    · intro x
      rw [Finset.mem_insert, ha.mem_used, Option.some.injEq, eq_comm]
      simp only [reduceCtorEq, or_false]
      rw [or_comm, or_assoc]
    · intro x hx
      exact Option.some.inj hx ▸ hnew
  | release r hf hr hused ho =>
    subst hr hused ho
    obtain ⟨hbefore, hlost⟩ := ha.held_new rfl
    refine ⟨lost, ?_, by simp, ha.lost_new, by simp [ha.lost_iff, hf]⟩
    intro x
    rw [Finset.mem_erase, ha.mem_used, Option.some.injEq]
    constructor
    · intro hx
      rcases hx with ⟨hne, hx | hx | hx⟩
      · exact Or.inl hx
      · exact Or.inr (Or.inl hx)
      · exact absurd hx.symm hne
    · intro hx
      have hne : x ≠ r := by
        intro heq
        subst heq
        simp [hbefore, hlost] at hx
      exact ⟨hne, hx.imp_right (Or.imp_right (by simp))⟩
  | forget r hf hr hused ho =>
    subst hr hused ho
    obtain ⟨hbefore, hlost⟩ := ha.held_new rfl
    refine ⟨insert r lost, ?_, by simp, ?_, by simp [hf]⟩
    · intro x
      rw [ha.mem_used, Finset.mem_insert, Option.some.injEq, eq_comm]
      simp only [reduceCtorEq, or_false]
      rw [or_comm (b := x ∈ lost)]
    · intro x hx
      rcases Finset.mem_insert.mp hx with rfl | hx
      · exact hbefore
      · exact ha.lost_new hx

omit [DecidableEq ρ] in
theorem used_eq_iff (ha : Account before clean used none lost) : used = before ↔ clean := by
  have hmem : ∀ r, r ∈ used ↔ r ∈ before ∨ r ∈ lost := by simpa using ha.mem_used
  rw [← ha.lost_iff]
  constructor
  · intro heq
    apply Finset.eq_empty_of_forall_notMem
    intro r hr
    exact ha.lost_new hr (heq ▸ (hmem r).mpr (Or.inr hr))
  · intro hempty
    ext r
    simp [hmem, hempty]

end Account

end Transition
