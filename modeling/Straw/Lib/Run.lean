import Mathlib.Data.List.Induction

/-!
# Finite runs of a labelled transition system

`Step s a t` says that action `a` may take state `s` to state `t`. `Run Step s as t`
is a finite, possibly empty, run whose labels in order are `as`. A condition that
every step of a run has to meet is put into the relation with `Guarded`.

Executable systems give a partial function `step : σ → α → Option σ`; `Fires step`
is its relation and `exec` runs it on a list of labels.
-/

namespace Transition

set_option autoImplicit false

universe u v

variable {σ : Type u} {α : Type v}

inductive Run (Step : σ → α → σ → Prop) : σ → List α → σ → Prop where
  | nil (s : σ) : Run Step s [] s
  | snoc {s t u : σ} {as : List α} {a : α} :
      Run Step s as t → Step t a u → Run Step s (as ++ [a]) u

/-- Steps taken only where `G` holds of the state before the step and of its label. -/
def Guarded (G : σ → α → Prop) (Step : σ → α → σ → Prop) (s : σ) (a : α) (t : σ) : Prop :=
  G s a ∧ Step s a t

def Fires (step : σ → α → Option σ) (s : σ) (a : α) (t : σ) : Prop := step s a = some t

/-- Run the labels one after the other, stopping at the first that is not enabled. -/
def exec (step : σ → α → Option σ) : σ → List α → Option σ
  | s, [] => some s
  | s, a :: as => (step s a).bind fun t => exec step t as

namespace Run

variable {Step : σ → α → σ → Prop} {G : σ → α → Prop} {s t u : σ} {as bs : List α} {a : α}

theorem single (h : Step s a t) : Run Step s [a] t := .snoc (.nil s) h

theorem append (hst : Run Step s as t) (htu : Run Step t bs u) : Run Step s (as ++ bs) u := by
  induction htu with
  | nil => simpa using hst
  | snoc _ hstep ih => rw [← List.append_assoc]; exact .snoc ih hstep

theorem cons (h : Step s a t) (htu : Run Step t as u) : Run Step s (a :: as) u :=
  (single h).append htu

theorem invariant (I : σ → Prop) (hstep : ∀ s a t, I s → Step s a t → I t)
    (h : Run Step s as t) (hs : I s) : I t := by
  induction h with
  | nil => exact hs
  | snoc _ hlast ih => exact hstep _ _ _ ih hlast

theorem unguarded (h : Run (Guarded G Step) s as t) : Run Step s as t := by
  induction h with
  | nil => exact .nil _
  | snoc _ hlast ih => exact .snoc ih hlast.2

theorem mono {Step' : σ → α → σ → Prop} (himp : ∀ s a t, Step s a t → Step' s a t)
    (h : Run Step s as t) : Run Step' s as t := by
  induction h with
  | nil => exact .nil _
  | snoc _ hlast ih => exact .snoc ih (himp _ _ _ hlast)

theorem nil_inv (h : Run Step s [] t) : s = t := by
  generalize has : ([] : List α) = as at h
  cases h with
  | nil => rfl
  | snoc => simp at has

theorem snoc_inv (h : Run Step s (as ++ [a]) u) : ∃ t, Run Step s as t ∧ Step t a u := by
  generalize hcs : as ++ [a] = cs at h
  cases h with
  | nil => simp at hcs
  | @snoc t _ bs b hrun hlast =>
    obtain ⟨rfl, hab⟩ := List.append_inj' hcs rfl
    obtain rfl : a = b := by simpa using hab
    exact ⟨t, hrun, hlast⟩

theorem append_inv (h : Run Step s (as ++ bs) u) : ∃ t, Run Step s as t ∧ Run Step t bs u := by
  induction bs using List.reverseRecOn generalizing u with
  | nil => exact ⟨u, by simpa using h, .nil u⟩
  | append_singleton bs b ih =>
    rw [← List.append_assoc] at h
    obtain ⟨v, hv, hlast⟩ := h.snoc_inv
    obtain ⟨t, hst, htv⟩ := ih hv
    exact ⟨t, hst, .snoc htv hlast⟩

theorem cons_inv (h : Run Step s (a :: as) u) : ∃ t, Step s a t ∧ Run Step t as u := by
  have happ : Run Step s ([] ++ [a] ++ as) u := h
  obtain ⟨t, hst, htu⟩ := happ.append_inv
  obtain ⟨r, hr, hstep⟩ := hst.snoc_inv
  exact ⟨t, hr.nil_inv ▸ hstep, htu⟩

theorem trivially (h : Run Step s as t) : Run (Guarded (fun _ _ => True) Step) s as t :=
  h.mono fun _ _ _ hstep => ⟨trivial, hstep⟩

/-- Facts about all labels of a run hold at each of its steps. -/
theorem labelled {P : α → Prop} (h : Run Step s as t) (hP : ∀ a ∈ as, P a) :
    Run (Guarded (fun _ a => P a) Step) s as t := by
  induction h with
  | nil => exact .nil _
  | snoc _ hlast ih =>
    obtain ⟨hbefore, hthis⟩ := List.forall_mem_append.mp hP
    exact .snoc (ih hbefore) ⟨hthis _ (List.mem_singleton_self _), hlast⟩

/-- A map that turns every step into a step or into nothing turns runs into runs. -/
theorem image {τ : Type u} {β : Type v} {AbsStep : τ → β → τ → Prop} {view : σ → τ}
    (hview : ∀ s a t, Step s a t → view t = view s ∨ ∃ b, AbsStep (view s) b (view t))
    (h : Run Step s as t) : ∃ bs, Run AbsStep (view s) bs (view t) := by
  induction h with
  | nil => exact ⟨[], .nil _⟩
  | snoc _ hlast ih =>
    obtain ⟨bs, hrun⟩ := ih
    rcases hview _ _ _ hlast with hsame | ⟨b, habs⟩
    · exact ⟨bs, hsame ▸ hrun⟩
    · exact ⟨bs ++ [b], .snoc hrun habs⟩

end Run

section Executable

variable {step : σ → α → Option σ} {s t u : σ} {as : List α}

theorem run_of_exec (h : exec step s as = some t) : Run (Fires step) s as t := by
  induction as generalizing s with
  | nil =>
    obtain rfl : s = t := by simpa [exec] using h
    exact .nil s
  | cons a as ih =>
    obtain ⟨v, hv, hrest⟩ := Option.bind_eq_some_iff.mp h
    exact .cons hv (ih hrest)

def restrict (G : σ → α → Prop) [∀ s a, Decidable (G s a)] (step : σ → α → Option σ) (s : σ)
    (a : α) : Option σ :=
  if G s a then step s a else none

theorem guarded_run_of_exec {G : σ → α → Prop} [∀ s a, Decidable (G s a)]
    (h : exec (restrict G step) s as = some t) : Run (Guarded G (Fires step)) s as t := by
  refine (run_of_exec h).mono ?_
  intro s a t hfires
  unfold Fires restrict at hfires
  split at hfires
  · exact ⟨by assumption, hfires⟩
  · cases hfires

section Image

variable {τ : Type v} {view : τ → σ} {absStep : τ → α → Option τ} {a b : τ}

/-- A run from the image of an abstract state, where the step functions commute with the
map, is the image of an abstract run under guards that the map takes along. -/
theorem guarded_run_of_image {G : σ → α → Prop} {H : τ → α → Prop}
    (hview : ∀ a l, step (view a) l = (absStep a l).map view)
    (hguard : ∀ a l, G (view a) l → H a l) (h : Run (Guarded G (Fires step)) (view a) as s) :
    ∃ b, s = view b ∧ Run (Guarded H (Fires absStep)) a as b := by
  induction h with
  | nil => exact ⟨a, rfl, .nil a⟩
  | snoc _ hlast ih =>
    obtain ⟨b, rfl, hrun⟩ := ih
    obtain ⟨hG, hfires⟩ := hlast
    rw [Fires, hview] at hfires
    obtain ⟨c, hc, rfl⟩ := Option.map_eq_some_iff.mp hfires
    exact ⟨c, rfl, .snoc hrun ⟨hguard b _ hG, hc⟩⟩

theorem run_of_image (hview : ∀ a l, step (view a) l = (absStep a l).map view)
    (h : Run (Fires step) (view a) as s) : ∃ b, s = view b ∧ Run (Fires absStep) a as b := by
  obtain ⟨b, hb, hrun⟩ :=
    guarded_run_of_image (H := fun _ _ => True) hview (fun _ _ _ => trivial) h.trivially
  exact ⟨b, hb, hrun.unguarded⟩

theorem image_of_run (hview : ∀ a l, step (view a) l = (absStep a l).map view)
    (h : Run (Fires absStep) a as b) : Run (Fires step) (view a) as (view b) := by
  induction h with
  | nil => exact .nil _
  | snoc _ hlast ih =>
    refine .snoc ih ?_
    rw [Fires, hview, hlast]
    rfl

end Image

theorem run_unique (h : Run (Fires step) s as t) (h' : Run (Fires step) s as u) : t = u := by
  induction h generalizing u with
  | nil => exact h'.nil_inv
  | snoc _ hlast ih =>
    obtain ⟨v, hv, hlast'⟩ := h'.snoc_inv
    obtain rfl := ih hv
    exact Option.some.inj (hlast.symm.trans hlast')

end Executable

end Transition
