import Straw.Forwarding.Limiter
import Straw.Lib.TokenBucket

/-!
# Runs of a rate limiter

A session's packets are calls of `try_consume_at`. Its two buckets are the same machine
with two costs, one for the packet and one for its bytes; what the buckets let through in
any window is bounded by the burst and the rate.
-/

namespace Straw

open TokenBucket
set_option autoImplicit false

structure Call where
  bytes : UInt64
  now : Nat

/-- The two buckets of a limiter. -/
inductive Bucket where
  | packets
  | bytes

namespace Bucket

def rate : Bucket → RateLimits → UInt64
  | packets, limits => limits.packetsPerSec
  | bytes, limits => limits.bytesPerSec

def tokens : Bucket → SessionLimiter → UInt64
  | packets, l => l.packetTokens
  | bytes, l => l.byteTokens

def cost : Bucket → UInt64 → UInt64
  | packets, _ => 1
  | bytes, size => size

end Bucket

namespace SessionLimiter

/-- The answers to a sequence of calls. -/
def answers (l : SessionLimiter) : List Call → List Bool
  | [] => []
  | c :: cs =>
    let (admitted, l) := l.tryConsumeAt c.bytes c.now
    admitted :: l.answers cs

/-- The calls that are let through. -/
def admitted (l : SessionLimiter) : List Call → List Call
  | [] => []
  | c :: cs =>
    let (ok, l) := l.tryConsumeAt c.bytes c.now
    if ok then c :: l.admitted cs else l.admitted cs

def after (l : SessionLimiter) (calls : List Call) : SessionLimiter :=
  calls.foldl (fun l c => (l.tryConsumeAt c.bytes c.now).2) l

section Step

variable (l : SessionLimiter) (b : Bucket) (size : UInt64) (now : Nat)

@[simp] theorem limits_refill : (l.refill now).limits = l.limits := by
  unfold refill
  simp only
  split <;> rfl

theorem lastRefill_refill : (l.refill now).lastRefill = max l.lastRefill now := by
  unfold refill
  simp only
  split
  · omega
  · simp only
    omega

theorem tokens_refill : b.tokens (l.refill now) =
    if now ≤ l.lastRefill then b.tokens l
    else min (b.tokens l + earned (b.rate l.limits) (now - l.lastRefill)) (b.rate l.limits) := by
  unfold refill
  simp only
  by_cases h : now - l.lastRefill = 0
  · rw [if_pos h, if_pos (by omega)]
  · rw [if_neg h, if_neg (by omega)]
    cases b <;> rfl

end Step

/-- Whether the bucket, if it limits anything, has enough for a call. -/
def Affords (l : SessionLimiter) (size : UInt64) (b : Bucket) : Prop :=
  b.rate l.limits = 0 ∨ b.cost size ≤ b.tokens l

/-- The last lines of `try_consume_at`. -/
def spend (l : SessionLimiter) (size : UInt64) : SessionLimiter :=
  { l with
    packetTokens := if 0 < l.limits.packetsPerSec then l.packetTokens - 1 else l.packetTokens
    byteTokens := if 0 < l.limits.bytesPerSec then l.byteTokens - size else l.byteTokens }

section Calls

variable {l : SessionLimiter} {size : UInt64} {now : Nat}

theorem refuses_iff (l : SessionLimiter) (size : UInt64) :
    (!((l.limits.packetsPerSec == 0 || decide (1 ≤ l.packetTokens)) &&
      (l.limits.bytesPerSec == 0 || decide (size ≤ l.byteTokens)))) = true ↔
      ¬ ∀ b, l.Affords size b := by
  rw [Bool.not_eq_true', ← Bool.not_eq_true, not_iff_not]
  simp only [Bool.and_eq_true, Bool.or_eq_true, beq_iff_eq, decide_eq_true_eq]
  constructor
  · rintro ⟨hpackets, hbytes⟩ b
    cases b with
    | packets => exact hpackets
    | bytes => exact hbytes
  · exact fun h => ⟨h .packets, h .bytes⟩

theorem tryConsumeAt_of_affords (hlimited : l.limits.isUnlimited = false)
    (h : ∀ b, (l.refill now).Affords size b) :
    l.tryConsumeAt size now = (true, (l.refill now).spend size) := by
  rw [tryConsumeAt, if_neg (by simp [hlimited])]
  exact if_neg fun hrefuse => (refuses_iff _ size).mp hrefuse h

theorem tryConsumeAt_of_not_affords (hlimited : l.limits.isUnlimited = false) {b : Bucket}
    (h : ¬ (l.refill now).Affords size b) :
    l.tryConsumeAt size now = (false, l.refill now) := by
  rw [tryConsumeAt, if_neg (by simp [hlimited])]
  exact if_pos ((refuses_iff _ size).mpr fun hall => h (hall b))

/-- A call refills both buckets, and then takes from both or from none. -/
theorem tryConsumeAt_cases (hlimited : l.limits.isUnlimited = false) (size : UInt64) (now : Nat) :
    ((∀ b, (l.refill now).Affords size b) ∧
      l.tryConsumeAt size now = (true, (l.refill now).spend size)) ∨
    ((∃ b, ¬ (l.refill now).Affords size b) ∧
      l.tryConsumeAt size now = (false, l.refill now)) := by
  by_cases h : ∀ b, (l.refill now).Affords size b
  · exact Or.inl ⟨h, tryConsumeAt_of_affords hlimited h⟩
  · obtain ⟨b, hb⟩ := not_forall.mp h
    exact Or.inr ⟨⟨b, hb⟩, tryConsumeAt_of_not_affords hlimited hb⟩

theorem tryConsumeAt_unlimited (h : l.limits.isUnlimited = true) :
    l.tryConsumeAt size now = (true, l) := by
  rw [tryConsumeAt, h]
  rfl

theorem limits_tryConsumeAt : (l.tryConsumeAt size now).2.limits = l.limits := by
  cases hunlimited : l.limits.isUnlimited with
  | true => rw [tryConsumeAt_unlimited hunlimited]
  | false =>
    rcases tryConsumeAt_cases hunlimited size now with ⟨-, h⟩ | ⟨-, h⟩
    · rw [h]
      exact limits_refill l now
    · rw [h]
      exact limits_refill l now

theorem tokens_spend {b : Bucket} (hrate : b.rate l.limits ≠ 0) (h : l.Affords size b) :
    (b.tokens (l.spend size)).toNat + (b.cost size).toNat = (b.tokens l).toNat := by
  have hcost : b.cost size ≤ b.tokens l := h.resolve_left hrate
  have hpos : 0 < b.rate l.limits := UInt64.pos_iff_ne_zero.mpr hrate
  have htokens : b.tokens (l.spend size) = b.tokens l - b.cost size := by
    cases b with
    | packets => exact if_pos hpos
    | bytes => exact if_pos hpos
  rw [htokens, UInt64.toNat_sub_of_le _ _ hcost]
  have hle : (b.cost size).toNat ≤ (b.tokens l).toNat := hcost
  omega

theorem lastRefill_tryConsumeAt (hlimited : l.limits.isUnlimited = false) :
    (l.tryConsumeAt size now).2.lastRefill = max l.lastRefill now := by
  rcases tryConsumeAt_cases hlimited size now with ⟨-, h⟩ | ⟨-, h⟩
  · rw [h]
    exact lastRefill_refill l now
  · rw [h]
    exact lastRefill_refill l now

end Calls

theorem isUnlimited_of_rate {limits : RateLimits} {b : Bucket} (h : b.rate limits ≠ 0) :
    limits.isUnlimited = false := by
  cases b with
  | packets => exact Bool.and_eq_false_iff.mpr (Or.inl (beq_false_of_ne h))
  | bytes => exact Bool.and_eq_false_iff.mpr (Or.inr (beq_false_of_ne h))

/-- No bucket holds more than one second of tokens. -/
def Bounded (l : SessionLimiter) : Prop := ∀ b : Bucket, b.tokens l ≤ b.rate l.limits

/-- The refill is the exact one: neither the cut to a `u64` nor the sum loses anything. -/
def Fits (l : SessionLimiter) (now : Nat) : Prop :=
  ∀ b : Bucket, (b.tokens l).toNat +
    (b.rate l.limits).toNat * ((now - l.lastRefill) / 1000) / 1000000 < 2 ^ 64

section Levels

variable {l : SessionLimiter} {b : Bucket} {size : UInt64} {now : Nat}

theorem bounded_new (limits : RateLimits) (now : Nat) : (new limits now).Bounded := by
  intro b
  cases b with
  | packets => exact UInt64.le_refl _
  | bytes => exact UInt64.le_refl _

theorem Bounded.refill (hl : l.Bounded) (now : Nat) : (l.refill now).Bounded := by
  intro b
  rw [tokens_refill, limits_refill]
  split
  · exact hl b
  · rw [UInt64.le_iff_toNat_le, UInt64.toNat_min]
    exact Nat.min_le_right _ _

theorem Bounded.spend (hl : l.Bounded) (h : ∀ b, l.Affords size b) : (l.spend size).Bounded := by
  intro b
  by_cases hrate : b.rate l.limits = 0
  · have hkept : b.tokens (l.spend size) = b.tokens l := by
      have hzero : ¬ 0 < b.rate l.limits := by
        rw [hrate]
        exact UInt64.lt_irrefl 0
      cases b with
      | packets => exact if_neg hzero
      | bytes => exact if_neg hzero
    rw [hkept]
    exact hl b
  · have hspent := tokens_spend hrate (h b)
    have hle : (b.tokens l).toNat ≤ (b.rate l.limits).toNat := hl b
    apply UInt64.le_iff_toNat_le.mpr
    change _ ≤ (b.rate l.limits).toNat
    omega

theorem Bounded.tryConsumeAt (hl : l.Bounded) (size : UInt64) (now : Nat) :
    (l.tryConsumeAt size now).2.Bounded := by
  cases hunlimited : l.limits.isUnlimited with
  | true =>
    rw [tryConsumeAt_unlimited hunlimited]
    exact hl
  | false =>
    rcases tryConsumeAt_cases hunlimited size now with ⟨hafford, h⟩ | ⟨-, h⟩
    · rw [h]
      exact (hl.refill now).spend hafford
    · rw [h]
      exact hl.refill now

theorem Bounded.after (hl : l.Bounded) (calls : List Call) : (l.after calls).Bounded := by
  induction calls generalizing l with
  | nil => exact hl
  | cons c cs ih => exact ih (hl.tryConsumeAt c.bytes c.now)

theorem limits_after (l : SessionLimiter) (calls : List Call) :
    (l.after calls).limits = l.limits := by
  induction calls generalizing l with
  | nil => rfl
  | cons c cs ih => exact (ih _).trans limits_tryConsumeAt

/-- The cut to a `u64` and an overflow of the sum only lower the tokens. -/
theorem tokens_refill_le (hl : l.Bounded) (b : Bucket) (now : Nat) :
    (b.tokens (l.refill now)).toNat ≤
      level (b.rate l.limits).toNat 1000000 (b.tokens l).toNat ((now - l.lastRefill) / 1000) := by
  have hbound : (b.tokens l).toNat ≤ (b.rate l.limits).toNat := hl b
  rw [tokens_refill]
  unfold level
  split
  · omega
  · rw [UInt64.toNat_min, UInt64.toNat_add, earned, UInt64.toNat_ofNat']
    have hearned : (b.rate l.limits).toNat * ((now - l.lastRefill) / 1000) % 2 ^ 128 / 1000000 ≤
        (b.rate l.limits).toNat * ((now - l.lastRefill) / 1000) / 1000000 :=
      Nat.div_le_div_right (Nat.mod_le _ _)
    apply min_le_min _ (Nat.le_refl _)
    apply Nat.le_trans (Nat.mod_le _ _)
    exact Nat.add_le_add_left (Nat.le_trans (Nat.mod_le _ _) hearned) _

theorem tokens_refill_eq (hl : l.Bounded) (hfits : l.Fits now) (b : Bucket) :
    (b.tokens (l.refill now)).toNat =
      level (b.rate l.limits).toNat 1000000 (b.tokens l).toNat ((now - l.lastRefill) / 1000) := by
  have hbound : (b.tokens l).toNat ≤ (b.rate l.limits).toNat := hl b
  have hb := hfits b
  rw [tokens_refill]
  unfold level
  split
  · next hle =>
    rw [Nat.sub_eq_zero_of_le hle]
    simp only [Nat.zero_div, Nat.mul_zero, Nat.add_zero]
    omega
  · rw [UInt64.toNat_min, UInt64.toNat_add, earned, UInt64.toNat_ofNat']
    have hproduct : (b.rate l.limits).toNat * ((now - l.lastRefill) / 1000) % 2 ^ 128 =
        (b.rate l.limits).toNat * ((now - l.lastRefill) / 1000) := by
      apply Nat.mod_eq_of_lt
      omega
    rw [hproduct, Nat.mod_eq_of_lt (by omega : _ / 1000000 < 2 ^ 64), Nat.mod_eq_of_lt hb]

theorem tokens_tryConsumeAt_le (hl : l.Bounded) (hrate : b.rate l.limits ≠ 0) :
    (b.tokens (l.tryConsumeAt size now).2).toNat +
        (if (l.tryConsumeAt size now).1 then (b.cost size).toNat else 0) ≤
      level (b.rate l.limits).toNat 1000000 (b.tokens l).toNat ((now - l.lastRefill) / 1000) := by
  have hrefill := tokens_refill_le hl b now
  rcases tryConsumeAt_cases (isUnlimited_of_rate hrate) size now with ⟨hafford, h⟩ | ⟨-, h⟩
  · rw [h]
    have hspent := tokens_spend (b := b) (by rwa [limits_refill]) (hafford b)
    simp only [if_true]
    omega
  · rw [h]
    exact hrefill

end Levels

/-- What calls are to one bucket: the microseconds it earns for, and the tokens taken. -/
def steps (b : Bucket) (l : SessionLimiter) : List Call → List (Nat × Nat)
  | [] => []
  | c :: cs =>
    let (ok, after) := l.tryConsumeAt c.bytes c.now
    ((c.now - l.lastRefill) / 1000, if ok then (b.cost c.bytes).toNat else 0) :: after.steps b cs

/-- The time of the last call, or of the one before if there is none. -/
def lastNow (before : Nat) : List Call → Nat
  | [] => before
  | c :: cs => lastNow c.now cs

section Windows

variable {l : SessionLimiter} {b : Bucket}

theorem run_steps (hl : l.Bounded) (hrate : b.rate l.limits ≠ 0) (calls : List Call) :
    Run (b.rate l.limits).toNat 1000000 (b.tokens l).toNat (l.steps b calls)
      (b.tokens (l.after calls)).toNat := by
  induction calls generalizing l with
  | nil => exact Run.nil _
  | cons c cs ih =>
    apply Run.cons (tokens_tryConsumeAt_le hl hrate)
    have hlater := ih (hl.tryConsumeAt c.bytes c.now) (by rwa [limits_tryConsumeAt])
    rwa [limits_tryConsumeAt] at hlater

theorem sum_spent_steps (b : Bucket) (l : SessionLimiter) (calls : List Call) :
    ((l.steps b calls).map Prod.snd).sum =
      ((l.admitted calls).map fun c => (b.cost c.bytes).toNat).sum := by
  induction calls generalizing l with
  | nil => rfl
  | cons c cs ih =>
    simp only [steps, admitted, List.map_cons, List.sum_cons, ih]
    split
    · rw [List.map_cons, List.sum_cons]
    · exact Nat.zero_add _

theorem le_lastNow {before : Nat} {calls : List Call}
    (h : (before :: calls.map Call.now).Pairwise (· ≤ ·)) : before ≤ lastNow before calls := by
  induction calls generalizing before with
  | nil => exact Nat.le_refl _
  | cons c cs ih =>
    rw [List.map_cons, List.pairwise_cons] at h
    exact Nat.le_trans (h.1 _ List.mem_cons_self) (ih h.2)

/-- The gaps between the calls, cut to microseconds one by one, are no longer than the span. -/
theorem sum_ticks_steps_le {before : Nat} {calls : List Call}
    (hlimited : l.limits.isUnlimited = false) (hbefore : before ≤ l.lastRefill)
    (h : (before :: calls.map Call.now).Pairwise (· ≤ ·)) :
    ((l.steps b calls).map Prod.fst).sum ≤ (lastNow before calls - before) / 1000 := by
  induction calls generalizing l before with
  | nil => exact Nat.zero_le _
  | cons c cs ih =>
    rw [List.map_cons, List.pairwise_cons] at h
    have hfirst : before ≤ c.now := h.1 _ List.mem_cons_self
    have hrest := ih (l := (l.tryConsumeAt c.bytes c.now).2) (by rwa [limits_tryConsumeAt])
      (by rw [lastRefill_tryConsumeAt hlimited]; exact Nat.le_max_right _ _) h.2
    have hlast := le_lastNow h.2
    simp only [steps, List.map_cons, List.sum_cons, lastNow]
    omega

theorem admitted_window_le (hl : l.Bounded) (hrate : b.rate l.limits ≠ 0) (first : Call)
    {rest : List Call} (h : ((first :: rest).map Call.now).Pairwise (· ≤ ·)) :
    ((l.admitted (first :: rest)).map fun c => (b.cost c.bytes).toNat).sum ≤
      (b.rate l.limits).toNat + (b.rate l.limits).toNat *
        ((lastNow first.now rest - first.now) / 1000) / 1000000 := by
  have hlimited := isUnlimited_of_rate hrate
  have hwindow := (run_steps hl hrate (first :: rest)).window_le
  have hticks := sum_ticks_steps_le (b := b) (l := (l.tryConsumeAt first.bytes first.now).2)
    (by rwa [limits_tryConsumeAt])
    (by rw [lastRefill_tryConsumeAt hlimited]; exact Nat.le_max_right _ _) h
  rw [← sum_spent_steps]
  calc ((l.steps b (first :: rest)).map Prod.snd).sum
      ≤ _ := hwindow
    _ ≤ _ := Nat.add_le_add_left
        (Nat.div_le_div_right (Nat.mul_le_mul_left _ hticks)) _

theorem le_lastRefill_after (l : SessionLimiter) (calls : List Call) :
    l.lastRefill ≤ (l.after calls).lastRefill := by
  induction calls generalizing l with
  | nil => exact Nat.le_refl _
  | cons c cs ih =>
    apply Nat.le_trans _ (ih (l.tryConsumeAt c.bytes c.now).2)
    cases hunlimited : l.limits.isUnlimited with
    | true => rw [tryConsumeAt_unlimited hunlimited]
    | false =>
      rw [lastRefill_tryConsumeAt hunlimited]
      exact Nat.le_max_left _ _

theorem affords_of_admitted {size : UInt64} {now : Nat} (hrate : b.rate l.limits ≠ 0)
    (h : (l.tryConsumeAt size now).1 = true) : b.cost size ≤ b.tokens (l.refill now) := by
  rcases tryConsumeAt_cases (isUnlimited_of_rate hrate) size now with ⟨hafford, -⟩ | ⟨-, hcall⟩
  · exact (hafford b).resolve_left (by rwa [limits_refill])
  · rw [hcall] at h
    cases h

/-- Rates of up to 2^32 leave room in a `u64` for the tokens of 2^31 seconds. -/
theorem Bounded.fits {now : Nat} (hl : l.Bounded)
    (hrates : ∀ b : Bucket, b.rate l.limits ≤ 4294967296)
    (hnow : now - l.lastRefill < 2147483648000000000) : l.Fits now := by
  intro b
  have htokens : (b.tokens l).toNat ≤ (b.rate l.limits).toNat := hl b
  have hsmall : (b.rate l.limits).toNat ≤ 4294967296 := hrates b
  have hproduct : (b.rate l.limits).toNat * ((now - l.lastRefill) / 1000) ≤
      4294967296 * 2147483648000000 := Nat.mul_le_mul hsmall (by omega)
  have hquotient := Nat.div_le_div_right (c := 1000000) hproduct
  omega

/-- Where the refill is exact, the call of the data plane does not panic. -/
theorem Fits.refillFits {now : Nat} (h : l.Fits now) : l.refillFits now = true := by
  have hbucket : ∀ b : Bucket, sumFits (b.rate l.limits) (b.tokens l) (now - l.lastRefill) = true := by
    intro b
    have hb := h b
    have hproduct : (b.rate l.limits).toNat * ((now - l.lastRefill) / 1000) < 2 ^ 128 := by omega
    rw [sumFits, decide_eq_true_iff, earned, UInt64.toNat_ofNat', Nat.mod_eq_of_lt hproduct,
      Nat.mod_eq_of_lt (by omega)]
    exact ⟨hproduct, hb⟩
  rw [SessionLimiter.refillFits, Bool.and_eq_true]
  exact ⟨hbucket .packets, hbucket .bytes⟩

theorem tryConsume_eq_ok {size : UInt64} {now : Nat} {answer : Bool × SessionLimiter}
    (h : l.tryConsume size now = .ok answer) : l.tryConsumeAt size now = answer := by
  unfold tryConsume at h
  split at h
  · exact Except.ok.inj h
  · cases h

/-- What one session sends in any window of its calls is at most the burst of one second and
the rate over the window. Every reachable state is one of `l`. -/
theorem admitted_le_rate (limits : RateLimits) (created : Nat) (before : List Call) (first : Call)
    (rest : List Call) (h : ((before ++ first :: rest).map Call.now).Pairwise (· ≤ ·)) :
    let l := (new limits created).after before
    let micros := (lastNow first.now rest - first.now) / 1000
    (limits.packetsPerSec ≠ 0 → (l.admitted (first :: rest)).length ≤
      limits.packetsPerSec.toNat + limits.packetsPerSec.toNat * micros / 1000000) ∧
    (limits.bytesPerSec ≠ 0 → ((l.admitted (first :: rest)).map fun c => c.bytes.toNat).sum ≤
      limits.bytesPerSec.toNat + limits.bytesPerSec.toNat * micros / 1000000) ∧
    -- tokens stay within one second, also between the refill and the check
    (∀ b : Bucket, b.tokens l ≤ b.rate limits ∧ b.tokens (l.refill first.now) ≤ b.rate limits) ∧
    -- what is taken is there
    ((l.tryConsumeAt first.bytes first.now).1 = true →
      ∀ b : Bucket, b.rate limits ≠ 0 → b.cost first.bytes ≤ b.tokens (l.refill first.now)) ∧
    -- and the sums of the refill are those of the naturals
    ((∀ b : Bucket, b.rate limits ≤ 4294967296) →
      first.now - created < 2147483648000000000 → l.Fits first.now) := by
  intro l micros
  have hl : l.Bounded := (bounded_new limits created).after before
  have hlimits : l.limits = limits := limits_after _ before
  rw [List.map_append, List.pairwise_append] at h
  refine ⟨?_, ?_, ?_, ?_, ?_⟩
  · intro hrate
    have hwindow := admitted_window_le (b := .packets) hl (by rwa [hlimits]) first h.2.1
    rw [hlimits] at hwindow
    have hcount : ((l.admitted (first :: rest)).map fun c =>
        (Bucket.cost .packets c.bytes).toNat).sum = (l.admitted (first :: rest)).length := by
      change ((l.admitted (first :: rest)).map fun _ => 1).sum = _
      rw [List.map_const', List.sum_replicate_nat, Nat.mul_one]
    rwa [hcount] at hwindow
  · intro hrate
    have hwindow := admitted_window_le (b := .bytes) hl (by rwa [hlimits]) first h.2.1
    rwa [hlimits] at hwindow
  · intro b
    have hrefilled := hl.refill first.now b
    rw [limits_refill, hlimits] at hrefilled
    have hheld := hl b
    rw [hlimits] at hheld
    exact ⟨hheld, hrefilled⟩
  · intro hok b hrate
    apply affords_of_admitted _ hok
    rwa [hlimits]
  · intro hrates hspan
    have hlast : created ≤ l.lastRefill := le_lastRefill_after (new limits created) before
    apply hl.fits
    · rwa [hlimits]
    · omega

theorem admitted_le_rate_half_second :
    (((new ⟨3, 0⟩ 0).after [⟨100, 0⟩]).admitted
      [⟨100, 0⟩, ⟨100, 0⟩, ⟨100, 0⟩, ⟨100, 500000000⟩, ⟨100, 500000000⟩]).length = 3 ∧
    (((new ⟨3, 0⟩ 0).after [⟨100, 0⟩]).admitted
      [⟨100, 0⟩, ⟨100, 0⟩, ⟨100, 0⟩, ⟨100, 500000000⟩, ⟨100, 500000000⟩]).length ≤
        3 + 3 * 500000 / 1000000 :=
  ⟨by decide +kernel, (admitted_le_rate ⟨3, 0⟩ 0 [⟨100, 0⟩] ⟨100, 0⟩
    [⟨100, 0⟩, ⟨100, 0⟩, ⟨100, 500000000⟩, ⟨100, 500000000⟩] (by decide)).1 (by decide)⟩

end Windows

end SessionLimiter

end Straw
