import Mathlib.Data.List.Pairwise
import Mathlib.Order.Defs.PartialOrder
import Mathlib.Order.Lattice.Nat

/-!
# Coalescing intervals

Intervals of natural numbers, each belonging to a group. One pass over a list extends the
last interval kept by the next one when both are of one group and they overlap or adjoin.
The pass keeps what is covered as long as the starts of a group increase; its result is
separated only if the groups follow each other without returning.
-/

set_option autoImplicit false

universe u v

structure Intervals (α : Type u) (κ : Type v) where
  group : α → κ
  lo : α → Nat
  hi : α → Nat
  extend : α → α → α
  group_extend : ∀ a b, group (extend a b) = group a
  lo_extend : ∀ a b, lo (extend a b) = lo a
  hi_extend : ∀ a b, hi (extend a b) = max (hi a) (hi b)

namespace Intervals

variable {α : Type u} {κ : Type v} (I : Intervals α κ)

def Covers (as : List α) (g : κ) (x : Nat) : Prop :=
  ∃ a ∈ as, I.group a = g ∧ I.lo a ≤ x ∧ x ≤ I.hi a

theorem covers_cons {a : α} {as : List α} {g : κ} {x : Nat} :
    I.Covers (a :: as) g x ↔ (I.group a = g ∧ I.lo a ≤ x ∧ x ≤ I.hi a) ∨ I.Covers as g x := by
  simp only [Covers, List.mem_cons, or_and_right, exists_or, exists_eq_left]

/-- The starts of each group increase along the list. -/
def Ascending (as : List α) : Prop :=
  as.Pairwise fun a b => I.group a = I.group b → I.lo a ≤ I.lo b

theorem Ascending.extend {I : Intervals α κ} {last b : α} {bs : List α} (h : I.Ascending (last :: b :: bs)) :
    I.Ascending (I.extend last b :: bs) := by
  obtain ⟨hlast, htail⟩ := List.pairwise_cons.mp h
  refine List.pairwise_cons.mpr ⟨?_, (List.pairwise_cons.mp htail).2⟩
  intro c hc hgroup
  rw [I.lo_extend]
  exact hlast c (List.mem_cons_of_mem _ hc) ((I.group_extend last b).symm.trans hgroup)

variable [DecidableEq κ]

def coalesceFrom (last : α) : List α → List α
  | [] => [last]
  | b :: bs =>
    if I.group last = I.group b ∧ I.lo b ≤ I.hi last + 1 then
      coalesceFrom (I.extend last b) bs
    else last :: coalesceFrom b bs

variable {I}

theorem coalesceFrom_pos {last b : α} (bs : List α)
    (h : I.group last = I.group b ∧ I.lo b ≤ I.hi last + 1) :
    I.coalesceFrom last (b :: bs) = I.coalesceFrom (I.extend last b) bs := if_pos h

theorem coalesceFrom_neg {last b : α} (bs : List α)
    (h : ¬ (I.group last = I.group b ∧ I.lo b ≤ I.hi last + 1)) :
    I.coalesceFrom last (b :: bs) = last :: I.coalesceFrom b bs := if_neg h

/-- Every interval kept starts where some interval of its group started. -/
theorem source_of_mem_coalesceFrom {last c : α} {as : List α} (h : c ∈ I.coalesceFrom last as) :
    ∃ a ∈ last :: as, I.group c = I.group a ∧ I.lo c = I.lo a := by
  induction as generalizing last with
  | nil =>
    obtain rfl := List.mem_singleton.mp h
    exact ⟨c, List.mem_cons_self, rfl, rfl⟩
  | cons b bs ih =>
    by_cases ht : I.group last = I.group b ∧ I.lo b ≤ I.hi last + 1
    · rw [coalesceFrom_pos bs ht] at h
      obtain ⟨a, ha, hgroup, hlo⟩ := ih h
      rcases List.mem_cons.mp ha with rfl | ha
      · exact ⟨last, List.mem_cons_self, hgroup.trans (I.group_extend _ _),
          hlo.trans (I.lo_extend _ _)⟩
      · exact ⟨a, List.mem_cons_of_mem _ (List.mem_cons_of_mem _ ha), hgroup, hlo⟩
    · rw [coalesceFrom_neg bs ht] at h
      rcases List.mem_cons.mp h with rfl | h
      · exact ⟨c, List.mem_cons_self, rfl, rfl⟩
      · obtain ⟨a, ha, hsame⟩ := ih h
        exact ⟨a, List.mem_cons_of_mem _ ha, hsame⟩

/-- Every group of the list still has an interval. -/
theorem exists_mem_coalesceFrom {last a : α} {as : List α} (h : a ∈ last :: as) :
    ∃ c ∈ I.coalesceFrom last as, I.group c = I.group a := by
  induction as generalizing last a with
  | nil =>
    obtain rfl := List.mem_singleton.mp h
    exact ⟨a, List.mem_singleton_self a, rfl⟩
  | cons b bs ih =>
    by_cases ht : I.group last = I.group b ∧ I.lo b ≤ I.hi last + 1
    · rw [coalesceFrom_pos bs ht]
      have hext : ∃ a' ∈ I.extend last b :: bs, I.group a' = I.group a := by
        rcases List.mem_cons.mp h with rfl | h
        · exact ⟨_, List.mem_cons_self, I.group_extend _ _⟩
        · rcases List.mem_cons.mp h with rfl | h
          · exact ⟨_, List.mem_cons_self, (I.group_extend _ _).trans ht.1⟩
          · exact ⟨a, List.mem_cons_of_mem _ h, rfl⟩
      obtain ⟨a', ha', hgroup⟩ := hext
      obtain ⟨c, hc, hsame⟩ := ih ha'
      exact ⟨c, hc, hsame.trans hgroup⟩
    · rw [coalesceFrom_neg bs ht]
      rcases List.mem_cons.mp h with rfl | h
      · exact ⟨a, List.mem_cons_self, rfl⟩
      · obtain ⟨c, hc, hsame⟩ := ih h
        exact ⟨c, List.mem_cons_of_mem _ hc, hsame⟩

/-- A property that extending keeps holds of every interval of the result. -/
theorem coalesceFrom_forall {P : α → Prop}
    (hextend : ∀ a b, P a → P b → I.group a = I.group b → P (I.extend a b)) {last : α}
    {as : List α} (h : ∀ a ∈ last :: as, P a) : ∀ c ∈ I.coalesceFrom last as, P c := by
  induction as generalizing last with
  | nil => exact h
  | cons b bs ih =>
    obtain ⟨hlast, htail⟩ := List.forall_mem_cons.mp h
    obtain ⟨hb, hbs⟩ := List.forall_mem_cons.mp htail
    by_cases ht : I.group last = I.group b ∧ I.lo b ≤ I.hi last + 1
    · rw [coalesceFrom_pos bs ht]
      exact ih (List.forall_mem_cons.mpr ⟨hextend last b hlast hb ht.1, hbs⟩)
    · rw [coalesceFrom_neg bs ht]
      exact List.forall_mem_cons.mpr ⟨hlast, ih htail⟩

theorem coalesceFrom_covers {last : α} {as : List α} (h : I.Ascending (last :: as)) (g : κ)
    (x : Nat) : I.Covers (I.coalesceFrom last as) g x ↔ I.Covers (last :: as) g x := by
  induction as generalizing last with
  | nil => exact Iff.rfl
  | cons b bs ih =>
    obtain ⟨hlast, htail⟩ := List.pairwise_cons.mp h
    by_cases ht : I.group last = I.group b ∧ I.lo b ≤ I.hi last + 1
    · rw [coalesceFrom_pos bs ht, ih h.extend, covers_cons, covers_cons, covers_cons,
        I.group_extend, I.lo_extend, I.hi_extend, ← ht.1, ← or_assoc]
      have hle := hlast b List.mem_cons_self ht.1
      -- the two intervals together are the extended one, as the second starts inside it
      have hunion : (I.lo last ≤ x ∧ x ≤ max (I.hi last) (I.hi b)) ↔
          (I.lo last ≤ x ∧ x ≤ I.hi last) ∨ (I.lo b ≤ x ∧ x ≤ I.hi b) := by omega
      rw [hunion, and_or_left]
    · rw [coalesceFrom_neg bs ht, covers_cons, ih htail]
      exact I.covers_cons.symm

/-- The groups of the result follow each other as those of the list do. -/
theorem pairwise_group_of_coalesceFrom {R : κ → κ → Prop} (hrefl : ∀ g, R g g) {last : α}
    {as : List α} (h : (I.coalesceFrom last as).Pairwise fun a b => R (I.group a) (I.group b)) :
    (last :: as).Pairwise fun a b => R (I.group a) (I.group b) := by
  induction as generalizing last with
  | nil => exact h
  | cons b bs ih =>
    by_cases ht : I.group last = I.group b ∧ I.lo b ≤ I.hi last + 1
    · rw [coalesceFrom_pos bs ht] at h
      obtain ⟨hext, htail⟩ := List.pairwise_cons.mp (ih h)
      rw [I.group_extend] at hext
      refine List.pairwise_cons.mpr ⟨?_, List.pairwise_cons.mpr ⟨?_, htail⟩⟩
      · intro c hc
        rcases List.mem_cons.mp hc with rfl | hc
        · rw [ht.1]
          exact hrefl _
        · exact hext c hc
      · intro c hc
        rw [← ht.1]
        exact hext c hc
    · rw [coalesceFrom_neg bs ht] at h
      obtain ⟨hlast, htail⟩ := List.pairwise_cons.mp h
      refine List.pairwise_cons.mpr ⟨?_, ih htail⟩
      intro a ha
      obtain ⟨c, hc, hgroup⟩ := exists_mem_coalesceFrom (I := I) ha
      rw [← hgroup]
      exact hlast c hc

theorem coalesceFrom_separated [PartialOrder κ] {last : α} {as : List α}
    (hgroups : (last :: as).Pairwise fun a b => I.group a ≤ I.group b)
    (hlo : I.Ascending (last :: as)) :
    (I.coalesceFrom last as).Pairwise fun a b =>
      I.group a ≤ I.group b ∧ (I.group a = I.group b → I.hi a + 1 < I.lo b) := by
  induction as generalizing last with
  | nil => exact List.pairwise_singleton _ _
  | cons b bs ih =>
    obtain ⟨hlast, htail⟩ := List.pairwise_cons.mp hgroups
    by_cases ht : I.group last = I.group b ∧ I.lo b ≤ I.hi last + 1
    · rw [coalesceFrom_pos bs ht]
      refine ih (List.pairwise_cons.mpr ⟨?_, (List.pairwise_cons.mp htail).2⟩) hlo.extend
      intro c hc
      rw [I.group_extend]
      exact hlast c (List.mem_cons_of_mem _ hc)
    · rw [coalesceFrom_neg bs ht]
      have hloTail : I.Ascending (b :: bs) := (List.pairwise_cons.mp hlo).2
      refine List.pairwise_cons.mpr ⟨?_, ih htail hloTail⟩
      intro c hc
      obtain ⟨a, ha, hgroup, hstart⟩ := source_of_mem_coalesceFrom hc
      rw [hgroup, hstart]
      refine ⟨hlast a ha, ?_⟩
      intro hsame
      -- the group of the last interval has not ended, so the next one is of it too
      have hba : I.group b ≤ I.group a ∧ (I.group b = I.group a → I.lo b ≤ I.lo a) := by
        rcases List.mem_cons.mp ha with rfl | ha
        · exact ⟨le_refl _, fun _ => Nat.le_refl _⟩
        · exact ⟨(List.pairwise_cons.mp htail).1 a ha, (List.pairwise_cons.mp hloTail).1 a ha⟩
      have hb : I.group last = I.group b :=
        le_antisymm (hlast b List.mem_cons_self) (hsame ▸ hba.1)
      have hle := hba.2 (hb.symm.trans hsame)
      have hgap : ¬ I.lo b ≤ I.hi last + 1 := fun hle => ht ⟨hb, hle⟩
      omega

end Intervals
