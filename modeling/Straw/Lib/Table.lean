import Mathlib.Logic.Function.Basic

/-!
# Partial maps

A concurrent or hash map of which only lookups are observed: each key has at most
one value. Single operations are atomic, so a map is just its lookup function.
-/

set_option autoImplicit false

universe u v

abbrev Table (κ : Type u) (ν : Type v) := κ → Option ν

namespace Table

variable {κ : Type u} {ν : Type v}

def empty : Table κ ν := fun _ => none

@[simp] theorem empty_apply (k : κ) : (empty : Table κ ν) k = none := rfl

def retain (t : Table κ ν) (keep : κ → ν → Bool) : Table κ ν := fun k => (t k).filter (keep k)

variable [DecidableEq κ]

def insert (t : Table κ ν) (k : κ) (v : ν) : Table κ ν := Function.update t k (some v)

def remove (t : Table κ ν) (k : κ) : Table κ ν := Function.update t k none

theorem insert_apply (t : Table κ ν) (k k' : κ) (v : ν) :
    t.insert k v k' = if k' = k then some v else t k' := by
  simp only [insert, Function.update_apply]

theorem remove_apply (t : Table κ ν) (k k' : κ) :
    t.remove k k' = if k' = k then none else t k' := by
  simp only [remove, Function.update_apply]

@[simp] theorem insert_self (t : Table κ ν) (k : κ) (v : ν) : t.insert k v k = some v := by
  simp [insert_apply]

@[simp] theorem remove_self (t : Table κ ν) (k : κ) : t.remove k k = none := by
  simp [remove_apply]

theorem insert_of_ne (t : Table κ ν) {k k' : κ} (v : ν) (h : k' ≠ k) : t.insert k v k' = t k' := by
  simp [insert_apply, h]

theorem remove_of_ne (t : Table κ ν) {k k' : κ} (h : k' ≠ k) : t.remove k k' = t k' := by
  simp [remove_apply, h]

end Table
