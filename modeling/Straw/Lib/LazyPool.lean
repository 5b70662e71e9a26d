import Mathlib.Data.Finset.Max
import Straw.Lib.Word

/-!
# Lazily materialised pools

A pool hands out the elements of a large ordered set without ever listing it: a
cursor scans the elements that were never used, and a finite set keeps the ones
that came back. `Scan` is one iteration of the cursor loop together with the rank
that makes the loop end. `Available` collects what a pool can still hand out; the
results below say how each operation changes it. `offsets` is the scan over a block
of words that leaves out its first few.
-/

namespace LazyPool

set_option autoImplicit false

universe u v

variable {γ : Type u} {α : Type v}

inductive Iter (γ : Type u) (α : Type v) where
  | exhausted
  | skip (cursor : γ)
  | found (a : α) (cursor : γ)

structure Scan (γ : Type u) (α : Type v) where
  iter : γ → Iter γ α
  rank : γ → Nat
  skip_rank : ∀ {c c' : γ}, iter c = .skip c' → rank c' < rank c
  found_rank : ∀ {c c' : γ} {a : α}, iter c = .found a c' → rank c' < rank c

namespace Scan

variable (S : Scan γ α)

def next (c : γ) : Option α × γ :=
  match _h : S.iter c with
  | .exhausted => (none, c)
  | .skip c' => next c'
  | .found a c' => (some a, c')
termination_by S.rank c
decreasing_by exact S.skip_rank _h

/-- The elements the scan has still to produce. -/
inductive Ahead : γ → α → Prop where
  | here {c c' : γ} {a : α} : S.iter c = .found a c' → Ahead c a
  | skip {c c' : γ} {a : α} : S.iter c = .skip c' → Ahead c' a → Ahead c a
  | later {c c' : γ} {a b : α} : S.iter c = .found b c' → Ahead c' a → Ahead c a

variable {S}

theorem not_ahead_of_exhausted {c : γ} (h : S.iter c = .exhausted) (a : α) : ¬ S.Ahead c a := by
  intro ha
  cases ha <;> simp_all

theorem ahead_skip_iff {c c' : γ} (h : S.iter c = .skip c') (a : α) :
    S.Ahead c a ↔ S.Ahead c' a := by
  constructor
  · intro ha
    cases ha with
    | here h' => simp [h] at h'
    | skip h' hc =>
      rw [h] at h'
      injection h' with hc'
      subst hc'
      exact hc
    | later h' _ => simp [h] at h'
  · exact .skip h

theorem ahead_found_iff {c c' : γ} {b : α} (h : S.iter c = .found b c') (a : α) :
    S.Ahead c a ↔ a = b ∨ S.Ahead c' a := by
  constructor
  · intro ha
    cases ha with
    | here h' => rw [h] at h'; exact Or.inl (by injection h' with hb; exact hb.symm)
    | skip h' _ => simp [h] at h'
    | later h' hc => rw [h] at h'; injection h' with _ hc'; subst hc'; exact Or.inr hc
  · rintro (rfl | ha)
    · exact .here h
    · exact .later h ha

theorem next_spec (S : Scan γ α) (c : γ) :
    (∀ c', S.next c = (none, c') → ∀ x, ¬ S.Ahead c x ∧ ¬ S.Ahead c' x) ∧
    (∀ a c', S.next c = (some a, c') →
      S.rank c' < S.rank c ∧ ∀ x, S.Ahead c x ↔ x = a ∨ S.Ahead c' x) := by
  induction hr : S.rank c using Nat.strongRecOn generalizing c with
  | ind n ih =>
    unfold next
    split
    · rename_i h
      refine ⟨?_, by simp⟩
      intro c' hc' x
      obtain rfl : c = c' := by simpa using hc'
      exact ⟨not_ahead_of_exhausted h x, not_ahead_of_exhausted h x⟩
    · rename_i d h
      have hlt := S.skip_rank h
      obtain ⟨hnone, hsome⟩ := ih (S.rank d) (by omega) d rfl
      constructor
      · intro c' hc' x
        rw [ahead_skip_iff h]
        exact hnone c' hc' x
      · intro a c' hc'
        obtain ⟨hrank, hahead⟩ := hsome a c' hc'
        exact ⟨by omega, fun x => by rw [ahead_skip_iff h]; exact hahead x⟩
    · rename_i b d h
      refine ⟨by simp, ?_⟩
      intro a c' hc'
      obtain ⟨rfl, rfl⟩ : b = a ∧ d = c' := by simpa using hc'
      have hlt := S.found_rank h
      exact ⟨by omega, fun x => ahead_found_iff h x⟩

end Scan

section Offsets

variable {w : Nat}

/-- The words `base + o` for `reserved ≤ o < limit`, the cursor being the next offset. -/
def offsets (base : BitVec w) (reserved limit : Nat) (c : BitVec w) : Iter (BitVec w) (BitVec w) :=
  if c.toNat < limit then
    if c.toNat < reserved then .skip (c + 1#w) else .found (base + c) (c + 1#w)
  else .exhausted

theorem toNat_increment {c : BitVec w} {limit : Nat} (hlimit : limit < 2 ^ w) (hc : c.toNat < limit) :
    (c + 1#w).toNat = c.toNat + 1 := by
  have hw : w ≠ 0 := by
    rintro rfl
    omega
  rw [BitVec.toNat_add, BitVec.toNat_ofNat, Nat.mod_eq_of_lt (Nat.one_lt_two_pow hw),
    Nat.mod_eq_of_lt (by omega)]

theorem increment_le_iff {c r : BitVec w} {limit : Nat} (hlimit : limit < 2 ^ w)
    (hc : c.toNat < limit) : c + 1#w ≤ r ↔ c.toNat < r.toNat := by
  rw [BitVec.le_def, toNat_increment hlimit hc]
  exact Nat.succ_le_iff

theorem offsets_increment {base c c' a : BitVec w} {reserved limit : Nat} (hlimit : limit < 2 ^ w)
    (h : offsets base reserved limit c = .skip c' ∨ offsets base reserved limit c = .found a c') :
    c.toNat < limit ∧ c'.toNat = c.toNat + 1 := by
  unfold offsets at h
  split at h
  · rename_i hc
    have hone := toNat_increment hlimit hc
    split at h
    · obtain h | h := h
      · obtain rfl : c + 1#w = c' := by simpa using h
        exact ⟨hc, hone⟩
      · simp at h
    · obtain h | h := h
      · simp at h
      · obtain ⟨_, rfl⟩ : base + c = a ∧ c + 1#w = c' := by simpa using h
        exact ⟨hc, hone⟩
  · simp at h

/-- A loop whose iteration turns out to be `offsets` ends: the cursor closes in on the limit. -/
def scanOffsets (iter : BitVec w → Iter (BitVec w) (BitVec w)) {base : BitVec w} {reserved limit : Nat}
    (hlimit : limit < 2 ^ w) (hiter : iter = offsets base reserved limit) :
    Scan (BitVec w) (BitVec w) where
  iter := iter
  rank c := limit - c.toNat
  skip_rank := by
    intro c c' h
    rw [hiter] at h
    have := offsets_increment (a := 0#w) hlimit (Or.inl h)
    omega
  found_rank := by
    intro c c' a h
    rw [hiter] at h
    have := offsets_increment hlimit (Or.inr h)
    omega

theorem ahead_offsets_iff {S : Scan (BitVec w) (BitVec w)} {base : BitVec w} {reserved limit : Nat}
    (hlimit : limit < 2 ^ w) (hS : S.iter = offsets base reserved limit) (c a : BitVec w) :
    S.Ahead c a ↔ ∃ o, c.toNat ≤ o ∧ reserved ≤ o ∧ o < limit ∧ a = base + BitVec.ofNat w o := by
  induction hr : limit - c.toNat generalizing c with
  | zero =>
    have hex : S.iter c = .exhausted := by rw [hS, offsets, if_neg (by omega)]
    refine ⟨fun h => absurd h (Scan.not_ahead_of_exhausted hex a), ?_⟩
    rintro ⟨o, h1, _, h2, _⟩
    omega
  | succ n ih =>
    have hc : c.toNat < limit := by omega
    have hone := toNat_increment hlimit hc
    have ih' := ih (c + 1#w) (by omega)
    by_cases hres : c.toNat < reserved
    · have hskip : S.iter c = .skip (c + 1#w) := by rw [hS, offsets, if_pos hc, if_pos hres]
      rw [Scan.ahead_skip_iff hskip, ih']
      constructor
      · rintro ⟨o, h1, h2, h3, h4⟩
        exact ⟨o, by omega, h2, h3, h4⟩
      · rintro ⟨o, h1, h2, h3, h4⟩
        exact ⟨o, by omega, h2, h3, h4⟩
    · have hfound : S.iter c = .found (base + c) (c + 1#w) := by
        rw [hS, offsets, if_pos hc, if_neg hres]
      rw [Scan.ahead_found_iff hfound, ih']
      constructor
      · rintro (rfl | ⟨o, h1, h2, h3, h4⟩)
        · exact ⟨c.toNat, Nat.le_refl _, by omega, hc, by simp⟩
        · exact ⟨o, by omega, h2, h3, h4⟩
      · rintro ⟨o, h1, h2, h3, h4⟩
        by_cases ho : o = c.toNat
        · exact Or.inl (by simp [h4, ho])
        · exact Or.inr ⟨o, by omega, h2, h3, h4⟩

end Offsets

def popFirst [LinearOrder α] (s : Finset α) : Option (α × Finset α) :=
  if h : s.Nonempty then some (s.min' h, s.erase (s.min' h)) else none

theorem popFirst_none [LinearOrder α] {s : Finset α} (h : popFirst s = none) : s = ∅ := by
  unfold popFirst at h
  split at h
  · simp at h
  · exact Finset.not_nonempty_iff_eq_empty.mp (by assumption)

theorem popFirst_some [LinearOrder α] {s t : Finset α} {a : α} (h : popFirst s = some (a, t)) :
    a ∈ s ∧ t = s.erase a := by
  unfold popFirst at h
  split at h
  · rename_i hs
    simp only [Option.some.injEq, Prod.mk.injEq] at h
    obtain ⟨rfl, rfl⟩ := h
    exact ⟨s.min'_mem hs, rfl⟩
  · simp at h

structure Pool (γ : Type u) (α : Type v) where
  cursor : γ
  free : Finset α

namespace Pool

variable [LinearOrder α] (S : Scan γ α)

def next (p : Pool γ α) : Option α × Pool γ α :=
  match popFirst p.free with
  | some (a, free) => (some a, { p with free })
  | none => ((S.next p.cursor).1, { p with cursor := (S.next p.cursor).2 })

def rank (p : Pool γ α) : Nat := S.rank p.cursor + p.free.card

def Available (p : Pool γ α) (a : α) : Prop := a ∈ p.free ∨ S.Ahead p.cursor a

variable {S}

theorem next_none {p p' : Pool γ α} (h : p.next S = (none, p')) (x : α) :
    ¬ p.Available S x ∧ ¬ p'.Available S x := by
  unfold next at h
  split at h
  · simp at h
  · rename_i hpop
    have hempty := popFirst_none hpop
    simp only [Prod.mk.injEq] at h
    obtain ⟨h1, rfl⟩ := h
    have hx := (S.next_spec p.cursor).1 (S.next p.cursor).2 (by rw [← h1]) x
    simp only [Available, hempty, Finset.notMem_empty, false_or]
    exact hx

theorem next_some {p p' : Pool γ α} {a : α} (h : p.next S = (some a, p')) :
    p'.rank S < p.rank S ∧ ∀ x, p.Available S x ↔ x = a ∨ p'.Available S x := by
  unfold next at h
  split at h
  · rename_i b free hpop
    obtain ⟨hmem, rfl⟩ := popFirst_some hpop
    simp only [Prod.mk.injEq, Option.some.injEq] at h
    obtain ⟨rfl, rfl⟩ := h
    refine ⟨?_, ?_⟩
    · have := Finset.card_erase_lt_of_mem hmem
      simp only [rank]
      omega
    · intro x
      by_cases hx : x = b
      · subst x
        simp [Available, hmem]
      · simp [Available, hx]
  · rename_i hpop
    have hempty := popFirst_none hpop
    simp only [Prod.mk.injEq] at h
    obtain ⟨h1, rfl⟩ := h
    obtain ⟨hrank, hahead⟩ := (S.next_spec p.cursor).2 a (S.next p.cursor).2 (by rw [← h1])
    refine ⟨?_, ?_⟩
    · simp only [rank]
      omega
    · intro x
      simp only [Available, hempty, Finset.notMem_empty, false_or]
      exact hahead x

variable (S)

/-- Draw until an element turns up that is not taken; taken ones are dropped. -/
def nextUntaken (taken : α → Bool) (p : Pool γ α) : Option α × Pool γ α :=
  match _h : p.next S with
  | (none, p') => (none, p')
  | (some a, p') => if taken a then nextUntaken taken p' else (some a, p')
termination_by p.rank S
decreasing_by exact (next_some _h).1

variable {S}

variable (S) in
/-- `q` is `p` after a draw that gave `got`: only taken elements were lost. -/
structure Drew (taken : α → Bool) (p q : Pool γ α) (got : Option α) : Prop where
  sub : ∀ x, q.Available S x → p.Available S x
  cover : ∀ x, p.Available S x → got = some x ∨ taken x = true ∨ q.Available S x
  fresh : ∀ x, got = some x → taken x = false ∧ p.Available S x
  drained : got = none → ∀ x, ¬ q.Available S x

theorem nextUntaken_drew (S : Scan γ α) (taken : α → Bool) (p : Pool γ α) :
    Drew S taken p (p.nextUntaken S taken).2 (p.nextUntaken S taken).1 := by
  induction hr : p.rank S using Nat.strongRecOn generalizing p with
  | ind n ih =>
    unfold nextUntaken
    split
    · rename_i q hq
      have hempty := next_none hq
      exact ⟨fun x hx => absurd hx (hempty x).2, fun x hx => absurd hx (hempty x).1, by simp,
        fun _ x => (hempty x).2⟩
    · rename_i b q hq
      obtain ⟨hrank, havail⟩ := next_some hq
      by_cases hb : taken b = true
      · -- `b` is lost to the pool, which is otherwise as available as before
        have hrest := ih (q.rank S) (by omega) q rfl
        simp only [hb, if_true]
        refine ⟨fun x hx => (havail x).mpr (Or.inr (hrest.sub x hx)), ?_, ?_, hrest.drained⟩
        · intro x hx
          rcases (havail x).mp hx with rfl | hx
          · exact Or.inr (Or.inl hb)
          · exact hrest.cover x hx
        · intro x hx
          obtain ⟨hfree, hav⟩ := hrest.fresh x hx
          exact ⟨hfree, (havail x).mpr (Or.inr hav)⟩
      · simp only [hb, Bool.false_eq_true, if_false]
        refine ⟨fun x hx => (havail x).mpr (Or.inr hx), ?_, ?_, by simp⟩
        · intro x hx
          rcases (havail x).mp hx with rfl | hx
          · exact Or.inl rfl
          · exact Or.inr (Or.inr hx)
        · intro x hx
          obtain rfl := Option.some.inj hx
          exact ⟨by simpa using hb, (havail b).mpr (Or.inl rfl)⟩

theorem nextUntaken_eq_none_iff (S : Scan γ α) (taken : α → Bool) (p : Pool γ α) :
    (p.nextUntaken S taken).1 = none ↔ ∀ x, p.Available S x → taken x = true := by
  have hdrew := nextUntaken_drew S taken p
  constructor
  · intro h x hx
    rcases hdrew.cover x hx with hgot | htaken | hav
    · rw [h] at hgot
      cases hgot
    · exact htaken
    · exact absurd hav (hdrew.drained h x)
  · intro h
    cases hr : (p.nextUntaken S taken).1 with
    | none => rfl
    | some a =>
      obtain ⟨hfree, hav⟩ := hdrew.fresh a hr
      rw [h a hav] at hfree
      cases hfree

def recycle (p : Pool γ α) (a : α) : Pool γ α := { p with free := insert a p.free }

theorem available_recycle_iff (p : Pool γ α) (a x : α) :
    (p.recycle a).Available S x ↔ x = a ∨ p.Available S x := by
  simp only [Available, recycle, Finset.mem_insert]
  exact or_assoc

end Pool

end LazyPool
