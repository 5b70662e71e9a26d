import Mathlib.Data.List.Basic

/-!
# Computations that may fail or panic

An `Outcome` is a result, a returned error, or a panic: an index out of range, a
violated expectation. A `Proc` also reads and changes a state; what it did to the
state before it failed stays done.
-/

set_option autoImplicit false

universe u v w

inductive Fault (ε : Type u) where
  | err (e : ε)
  | panic
deriving DecidableEq

abbrev Outcome (ε : Type u) (α : Type v) := Except (Fault ε) α

namespace Outcome

variable {ε : Type u} {α β : Type v}

def fail (e : ε) : Outcome ε α := .error (.err e)

def index (xs : List α) (i : Nat) : Outcome ε α :=
  match xs[i]? with
  | some x => .ok x
  | none => .error .panic

def slice (xs : List α) (i j : Nat) : Outcome ε (List α) :=
  if i ≤ j ∧ j ≤ xs.length then .ok ((xs.drop i).take (j - i)) else .error .panic

def update (xs : List α) (i : Nat) (x : α) : Outcome ε (List α) :=
  if i < xs.length then .ok (xs.set i x) else .error .panic

def expect {δ : Type w} : Except δ α → Outcome ε α
  | .ok a => .ok a
  | .error _ => .error .panic

def ofExcept : Except ε α → Outcome ε α
  | .ok a => .ok a
  | .error e => fail e

/-- `.ok()`: the error is dropped; a panic goes through. -/
def discardErr {δ : Type w} : Outcome ε α → Outcome δ (Option α)
  | .ok a => .ok (some a)
  | .error (.err _) => .ok none
  | .error .panic => .error .panic

theorem ok_bind {δ : Type w} (a : α) (f : α → Except δ β) : (Except.ok a >>= f) = f a := rfl

theorem error_bind {δ : Type w} (e : δ) (f : α → Except δ β) :
    ((Except.error e : Except δ α) >>= f) = .error e := rfl

theorem bind_eq_ok {δ : Type w} {x : Except δ α} {f : α → Except δ β} {b : β} :
    (x >>= f) = .ok b ↔ ∃ a, x = .ok a ∧ f a = .ok b := by
  cases x with
  | error e => simp [bind, Except.bind]
  | ok a => simp [bind, Except.bind]

theorem expect_eq_ok {δ : Type w} {x : Except δ α} {a : α} :
    (expect x : Outcome ε α) = .ok a ↔ x = .ok a := by
  cases x <;> simp [expect]

theorem length_of_update {xs ys : List α} {i : Nat} {x : α}
    (h : (update xs i x : Outcome ε (List α)) = .ok ys) : ys.length = xs.length := by
  unfold update at h
  split at h
  · obtain rfl := Except.ok.inj h
    exact List.length_set
  · cases h

end Outcome

def Proc (σ : Type w) (ε : Type u) (α : Type v) := σ → Outcome ε α × σ

namespace Proc

variable {σ : Type w} {ε : Type u} {α β : Type v}

def exec (x : Proc σ ε α) (s : σ) : Outcome ε α × σ := x s

def ofOutcome (o : Outcome ε α) : Proc σ ε α := fun s => (o, s)

def throw (e : ε) : Proc σ ε α := ofOutcome (Outcome.fail e)

def modify (f : σ → σ) : Proc σ ε Unit := fun s => (.ok (), f s)

/-- Run to a returned result or error and go on with it; only a panic goes through. -/
def attempt (x : Proc σ ε α) : Proc σ ε (Except ε α) := fun s =>
  match x s with
  | (.ok a, t) => (.ok (.ok a), t)
  | (.error (.err e), t) => (.ok (.error e), t)
  | (.error .panic, t) => (.error .panic, t)

instance : Monad (Proc σ ε) where
  pure a := fun s => (.ok a, s)
  bind x f := fun s =>
    match x s with
    | (.ok a, t) => f a t
    | (.error e, t) => (.error e, t)

theorem exec_bind (x : Proc σ ε α) (f : α → Proc σ ε β) (s : σ) :
    (x >>= f).exec s = match x.exec s with
      | (.ok a, t) => (f a).exec t
      | (.error e, t) => (.error e, t) := rfl

theorem exec_bind_cases {x : Proc σ ε α} {f : α → Proc σ ε β} {s t : σ} {o : Outcome ε β}
    (h : (x >>= f).exec s = (o, t)) :
    (∃ a r, x.exec s = (.ok a, r) ∧ (f a).exec r = (o, t)) ∨
      ∃ e, x.exec s = (.error e, t) ∧ o = .error e := by
  rw [exec_bind] at h
  split at h
  · rename_i a r hx
    exact Or.inl ⟨a, r, hx, h⟩
  · rename_i e r hx
    obtain ⟨rfl, rfl⟩ := Prod.mk.inj h
    exact Or.inr ⟨e, hx, rfl⟩

theorem exec_ofOutcome_bind_cases {x : Outcome ε α} {f : α → Proc σ ε β} {s t : σ}
    {o : Outcome ε β} (h : (ofOutcome x >>= f).exec s = (o, t)) :
    (∃ a, x = .ok a ∧ (f a).exec s = (o, t)) ∨ ∃ e, x = .error e ∧ o = .error e ∧ t = s := by
  cases x with
  | ok a => exact Or.inl ⟨a, rfl, h⟩
  | error e =>
    obtain ⟨rfl, rfl⟩ := Prod.mk.inj h
    exact Or.inr ⟨e, rfl, rfl, rfl⟩

theorem exec_attempt (x : Proc σ ε α) (s : σ) :
    (attempt x).exec s = match x.exec s with
      | (.ok a, t) => (.ok (.ok a), t)
      | (.error (.err e), t) => (.ok (.error e), t)
      | (.error .panic, t) => (.error .panic, t) := rfl

theorem exec_attempt_cases {x : Proc σ ε α} {s t : σ} {o : Outcome ε (Except ε α)}
    (h : (attempt x).exec s = (o, t)) :
    (∃ a, x.exec s = (.ok a, t) ∧ o = .ok (.ok a)) ∨
      (∃ e, x.exec s = (.error (.err e), t) ∧ o = .ok (.error e)) ∨
      (x.exec s = (.error .panic, t) ∧ o = .error .panic) := by
  unfold exec attempt at h
  split at h
  · rename_i a r hx
    obtain ⟨rfl, rfl⟩ := Prod.mk.inj h
    exact Or.inl ⟨a, hx, rfl⟩
  · rename_i e r hx
    obtain ⟨rfl, rfl⟩ := Prod.mk.inj h
    exact Or.inr (Or.inl ⟨e, hx, rfl⟩)
  · rename_i r hx
    obtain ⟨rfl, rfl⟩ := Prod.mk.inj h
    exact Or.inr (Or.inr ⟨hx, rfl⟩)

/-- A relation between the states before and after a computation, whatever it returns. -/
def Relates (R : σ → σ → Prop) (x : Proc σ ε α) : Prop := ∀ s, R s (x.exec s).2

namespace Relates

variable {R : σ → σ → Prop}

theorem ofOutcome [Std.Refl R] (o : Outcome ε α) : Relates R (ofOutcome o : Proc σ ε α) :=
  Std.Refl.refl

theorem modify {f : σ → σ} (hf : ∀ s, R s (f s)) : Relates R (modify f : Proc σ ε Unit) := hf

theorem bind [IsTrans σ R] {x : Proc σ ε α} {f : α → Proc σ ε β} (hx : Relates R x)
    (hf : ∀ a, Relates R (f a)) : Relates R (x >>= f) := by
  intro s
  have hfirst := hx s
  rcases hexec : (x >>= f).exec s with ⟨o, u⟩
  rcases exec_bind_cases hexec with ⟨a, t, hxs, hfa⟩ | ⟨e, hxs, -⟩
  · rw [hxs] at hfirst
    have hsecond := hf a t
    rw [hfa] at hsecond
    exact IsTrans.trans _ _ _ hfirst hsecond
  · rwa [hxs] at hfirst

theorem attempt {x : Proc σ ε α} (hx : Relates R x) : Relates R (attempt x) := by
  intro s
  have hsame : ((Proc.attempt x).exec s).2 = (x.exec s).2 := by
    rw [exec_attempt]
    split <;> rename_i heq <;> rw [heq]
  rw [hsame]
  exact hx s

end Relates

def Persists (P : σ → Prop) (s t : σ) : Prop := P s → P t

instance {P : σ → Prop} : Std.Refl (Persists P) := ⟨fun _ h => h⟩

instance {P : σ → Prop} : IsTrans σ (Persists P) := ⟨fun _ _ _ h h' hs => h' (h hs)⟩

/-- A property of the state that a computation keeps, whether it succeeds or not. -/
abbrev Maintains (P : σ → Prop) (x : Proc σ ε α) : Prop := Relates (Persists P) x

def NoPanic (x : Proc σ ε α) : Prop := ∀ s, (x.exec s).1 ≠ .error .panic

namespace NoPanic

theorem ofOutcome {o : Outcome ε α} (ho : o ≠ .error .panic) :
    NoPanic (ofOutcome o : Proc σ ε α) := fun _ => ho

theorem throw (e : ε) : NoPanic (throw e : Proc σ ε α) := fun _ h => by cases h

theorem pure (a : α) : NoPanic (Pure.pure a : Proc σ ε α) := fun _ h => by cases h

theorem modify (f : σ → σ) : NoPanic (modify f : Proc σ ε Unit) := fun _ h => by cases h

/-- The second part is only reached with a result of the first. -/
theorem bind {x : Proc σ ε α} {f : α → Proc σ ε β} (hx : NoPanic x)
    (hf : ∀ a s t, x.exec s = (.ok a, t) → NoPanic (f a)) : NoPanic (x >>= f) := by
  intro s hpanic
  rcases hexec : (x >>= f).exec s with ⟨o, u⟩
  rw [hexec] at hpanic
  rcases exec_bind_cases hexec with ⟨a, t, hxs, hfa⟩ | ⟨e, hxs, rfl⟩
  · have hsafe := hf a s t hxs t
    rw [hfa] at hsafe
    exact hsafe hpanic
  · obtain rfl := Except.error.inj hpanic
    exact hx s (by rw [hxs])

theorem attempt {x : Proc σ ε α} (hx : NoPanic x) : NoPanic (attempt x) := by
  intro s hpanic
  rcases hexec : (Proc.attempt x).exec s with ⟨o, t⟩
  rw [hexec] at hpanic
  rcases exec_attempt_cases hexec with ⟨a, -, rfl⟩ | ⟨e, -, rfl⟩ | ⟨hpanicked, -⟩
  · cases hpanic
  · cases hpanic
  · exact hx s (by rw [hpanicked])

end NoPanic

end Proc
