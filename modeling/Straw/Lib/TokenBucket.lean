import Mathlib.Algebra.BigOperators.Group.List.Basic
import Mathlib.Data.Nat.ModEq

/-!
# Token buckets

A bucket earns `rate` tokens in `unit` ticks and holds `rate` of them at most. The
tokens of a span of ticks are rounded down, so two spans may earn less than their sum:
`level_level_of_whole` says when they do not, `level_lt_rate` when they do.
-/

set_option autoImplicit false

namespace TokenBucket

variable {rate unit : Nat}

def level (rate unit tokens ticks : Nat) : Nat := min (tokens + rate * ticks / unit) rate

theorem level_le (rate unit tokens ticks : Nat) : level rate unit tokens ticks ≤ rate :=
  Nat.min_le_right _ _

/-- Each step waits for a number of ticks and then takes no more than there is. -/
inductive Run (rate unit : Nat) : Nat → List (Nat × Nat) → Nat → Prop where
  | nil (tokens : Nat) : Run rate unit tokens [] tokens
  | cons {tokens left last ticks spent : Nat} {steps : List (Nat × Nat)} :
      left + spent ≤ level rate unit tokens ticks → Run rate unit left steps last →
      Run rate unit tokens ((ticks, spent) :: steps) last

theorem Run.spent_le {tokens last : Nat} {steps : List (Nat × Nat)}
    (h : Run rate unit tokens steps last) :
    (steps.map Prod.snd).sum ≤ tokens + rate * (steps.map Prod.fst).sum / unit := by
  induction h with
  | nil => simp
  | @cons tokens left last ticks spent steps hstep _ ih =>
    simp only [List.map_cons, List.sum_cons]
    calc spent + (steps.map Prod.snd).sum
        ≤ spent + (left + rate * (steps.map Prod.fst).sum / unit) := Nat.add_le_add_left ih _
      _ = left + spent + rate * (steps.map Prod.fst).sum / unit := by omega
      _ ≤ tokens + rate * ticks / unit + rate * (steps.map Prod.fst).sum / unit :=
          Nat.add_le_add_right (Nat.le_trans hstep (Nat.min_le_left _ _)) _
      _ = tokens + (rate * ticks / unit + rate * (steps.map Prod.fst).sum / unit) := by omega
      _ ≤ tokens + (rate * ticks + rate * (steps.map Prod.fst).sum) / unit :=
          Nat.add_le_add_left Nat.div_add_div_le_add_div _
      _ = tokens + rate * (ticks + (steps.map Prod.fst).sum) / unit := by rw [Nat.mul_add]

/-- A window: what the bucket held before it does not matter. -/
theorem Run.window_le {tokens last ticks spent : Nat} {steps : List (Nat × Nat)}
    (h : Run rate unit tokens ((ticks, spent) :: steps) last) :
    spent + (steps.map Prod.snd).sum ≤ rate + rate * (steps.map Prod.fst).sum / unit := by
  cases h with
  | cons hstep hrest =>
    have hfull := Nat.le_trans hstep (level_le _ _ _ _)
    have hlater := hrest.spent_le
    omega

/-- Nothing is lost when the first span earns whole tokens. -/
theorem level_level_of_whole {tokens first second : Nat} (h : rate * first % unit = 0) :
    level rate unit (level rate unit tokens first) second =
      level rate unit tokens (first + second) := by
  have hsum : rate * (first + second) / unit = rate * first / unit + rate * second / unit := by
    rw [Nat.mul_add]
    exact Nat.add_div_of_dvd_right (Nat.dvd_of_mod_eq_zero h)
  unfold level
  rw [hsum]
  generalize rate * first / unit = x
  generalize rate * second / unit = y
  omega

/-- A span of `unit` ticks fills the bucket. -/
theorem level_of_unit_le (hunit : 0 < unit) (tokens : Nat) {ticks : Nat} (h : unit ≤ ticks) :
    level rate unit tokens ticks = rate := by
  have hearned : rate ≤ rate * ticks / unit := by
    rw [Nat.le_div_iff_mul_le hunit]
    exact Nat.mul_le_mul_left _ h
  unfold level
  omega

theorem level_full (ticks : Nat) : level rate unit rate ticks = rate :=
  Nat.min_eq_right (Nat.le_add_right _ _)

/-- Two spans that together fall short of `unit`, or cut it where no whole number of tokens is
earned, do not fill an empty bucket. -/
theorem level_lt_rate (hrate : 0 < rate) (hunit : 0 < unit) {first second : Nat}
    (h : first + second < unit ∨ first + second = unit ∧ rate * first % unit ≠ 0) :
    level rate unit (level rate unit 0 first) second < rate := by
  have hsum : rate * first / unit + rate * second / unit < rate := by
    rw [← Nat.mul_lt_mul_left hunit, Nat.mul_add]
    have hfirst := Nat.div_add_mod (rate * first) unit
    have hsecond := Nat.div_add_mod (rate * second) unit
    have hboth : rate * first + rate * second = rate * (first + second) := (Nat.mul_add ..).symm
    rcases h with hshort | ⟨hwhole, hmod⟩
    · have hless : rate * (first + second) < rate * unit := (Nat.mul_lt_mul_left hrate).mpr hshort
      rw [Nat.mul_comm rate unit] at hless
      omega
    · rw [hwhole, Nat.mul_comm rate unit] at hboth
      omega
  unfold level
  omega

end TokenBucket
