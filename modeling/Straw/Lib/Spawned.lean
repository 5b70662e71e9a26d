/-!
# Spawned tasks

An asynchronous task as its runtime sees it. It owns what its future holds from the
moment it is spawned until it ends. It can be aborted at any time, but then it goes on
to its next suspension point, where its future is dropped and nothing more of it runs.
Nobody has to wait for a task, and one that is neither aborted nor done lives on.
-/

set_option autoImplicit false

universe u

inductive Spawned (ρ : Type u) where
  | unspawned
  | waiting (owned : ρ) (aborted : Bool)
  | polling (owned : ρ) (aborted : Bool)
  | suspended (owned : ρ) (aborted : Bool)
  | ended

namespace Spawned

variable {ρ : Type u}

def owner : Spawned ρ → Option ρ
  | .unspawned | .ended => none
  | .waiting r _ | .polling r _ | .suspended r _ => some r

def spawn (r : ρ) : Spawned ρ := .waiting r false

def abort : Spawned ρ → Spawned ρ
  | .waiting r _ => .waiting r true
  | .polling r _ => .polling r true
  | .suspended r _ => .suspended r true
  | .unspawned => .unspawned
  | .ended => .ended

/-- The runtime runs the task up to its next suspension point. -/
def poll : Spawned ρ → Option (Spawned ρ)
  | .waiting r false | .suspended r false => some (.polling r false)
  | _ => none

def suspend : Spawned ρ → Option (Spawned ρ)
  | .polling r aborted => some (.suspended r aborted)
  | _ => none

def finish : Spawned ρ → Option (Spawned ρ)
  | .polling _ _ => some .ended
  | _ => none

/-- The runtime drops the future of an aborted task. -/
def drop : Spawned ρ → Option (Spawned ρ)
  | .waiting _ true | .suspended _ true => some .ended
  | _ => none

variable {t t' : Spawned ρ}

@[simp] theorem owner_abort (t : Spawned ρ) : t.abort.owner = t.owner := by
  cases t <;> rfl

theorem owner_poll (h : t.poll = some t') : t'.owner = t.owner := by
  unfold poll at h
  split at h <;> cases h <;> rfl

theorem owner_suspend (h : t.suspend = some t') : t'.owner = t.owner := by
  unfold suspend at h
  split at h <;> cases h
  rfl

theorem owner_finish (h : t.finish = some t') : t'.owner = none := by
  unfold finish at h
  split at h <;> cases h
  rfl

theorem owner_drop (h : t.drop = some t') : t'.owner = none := by
  unfold drop at h
  split at h <;> cases h <;> rfl

end Spawned
