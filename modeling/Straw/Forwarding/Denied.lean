import Straw.Forwarding.RateLimit

/-!
# Calls that are denied

A denied call takes no tokens, but it refills the buckets, and the part of a token that was
earned since the last refill is dropped. Whether that can change a later answer depends on
the rates and on how long after the last refill the call is made.
-/

namespace Straw.SessionLimiter

open TokenBucket
set_option autoImplicit false

section Refills

variable {l m : SessionLimiter} {size : UInt64} {first second now : Nat}

theorem refill_of_le (h : now ≤ l.lastRefill) : l.refill now = l := by
  unfold refill
  exact if_pos (Nat.sub_eq_zero_of_le h)

theorem refill_refill_self (l : SessionLimiter) (now : Nat) :
    (l.refill now).refill now = l.refill now := by
  apply refill_of_le
  rw [lastRefill_refill]
  exact Nat.le_max_right _ _

theorem eq_of_tokens (hlimits : l.limits = m.limits) (hlast : l.lastRefill = m.lastRefill)
    (h : ∀ b : Bucket, (b.tokens l).toNat = (b.tokens m).toNat) : l = m := by
  have hpackets : l.packetTokens = m.packetTokens := UInt64.toNat_inj.mp (h .packets)
  have hbytes : l.byteTokens = m.byteTokens := UInt64.toNat_inj.mp (h .bytes)
  cases l
  cases m
  simp only at hlimits hlast hpackets hbytes
  rw [hlimits, hlast, hpackets, hbytes]

/-- A call sees of the state only what its refill makes of it. -/
theorem tryConsumeAt_congr (hlimited : l.limits.isUnlimited = false)
    (h : l.refill now = m.refill now) : l.tryConsumeAt size now = m.tryConsumeAt size now := by
  have hlimits : m.limits = l.limits := by
    rw [← limits_refill m now, ← h, limits_refill]
  have hneg : ¬ l.limits.isUnlimited = true := by
    rw [hlimited]
    exact Bool.false_ne_true
  rw [tryConsumeAt, tryConsumeAt, hlimits, h, if_neg hneg, if_neg hneg]

theorem answers_congr {c : Call} (hlimited : l.limits.isUnlimited = false)
    (h : l.refill c.now = m.refill c.now) (cs : List Call) :
    l.answers (c :: cs) = m.answers (c :: cs) := by
  rw [answers, answers, tryConsumeAt_congr hlimited h]

theorem answers_singleton (l : SessionLimiter) (c : Call) :
    l.answers [c] = [(l.tryConsumeAt c.bytes c.now).1] := rfl

theorem Fits.mono (h : l.Fits second) (hle : first ≤ second) : l.Fits first := by
  intro b
  apply Nat.lt_of_le_of_lt _ (h b)
  apply Nat.add_le_add_left
  apply Nat.div_le_div_right
  apply Nat.mul_le_mul_left
  omega

theorem fits_of_le (h : now ≤ l.lastRefill) : l.Fits now := by
  intro b
  rw [Nat.sub_eq_zero_of_le h]
  have := (b.tokens l).toNat_lt
  simp only [Nat.zero_div, Nat.mul_zero, Nat.add_zero]
  exact this

theorem isUnlimited_of_denied (h : (l.tryConsumeAt size now).1 = false) :
    l.limits.isUnlimited = false := by
  cases hunlimited : l.limits.isUnlimited with
  | true =>
    rw [tryConsumeAt_unlimited hunlimited] at h
    cases h
  | false => rfl

theorem denied_eq_refill (h : (l.tryConsumeAt size now).1 = false) :
    (l.tryConsumeAt size now).2 = l.refill now := by
  rcases tryConsumeAt_cases (isUnlimited_of_denied h) size now with ⟨-, hcall⟩ | ⟨-, hcall⟩
  · rw [hcall] at h
    cases h
  · rw [hcall]

/-- Without a byte limit, a whole token earned is enough. -/
theorem admits_of_earned (hl : l.Bounded) (hfits : l.Fits now) (hbytes : l.limits.bytesPerSec = 0)
    (h : 1000000 ≤ l.limits.packetsPerSec.toNat * ((now - l.lastRefill) / 1000)) (size : UInt64) :
    (l.tryConsumeAt size now).1 = true := by
  have hrate : Bucket.packets.rate l.limits ≠ 0 := by
    intro hzero
    change l.limits.packetsPerSec = 0 at hzero
    rw [hzero, UInt64.toNat_zero, Nat.zero_mul] at h
    cases h
  have hpos : 0 < l.limits.packetsPerSec.toNat := UInt64.pos_iff_ne_zero.mpr hrate
  rw [tryConsumeAt_of_affords (isUnlimited_of_rate hrate)]
  intro b
  cases b with
  | packets =>
    apply Or.inr
    apply UInt64.le_iff_toNat_le.mpr
    rw [tokens_refill_eq hl hfits]
    change 1 ≤ min (l.packetTokens.toNat +
      l.limits.packetsPerSec.toNat * ((now - l.lastRefill) / 1000) / 1000000)
      l.limits.packetsPerSec.toNat
    omega
  | bytes =>
    apply Or.inl
    rwa [limits_refill]

/-- A refill on the way changes nothing once it fills the buckets, or if it drops neither a
part of a token nor a part of a microsecond. -/
theorem refill_refill (hl : l.Bounded) (hle : first ≤ second)
    (h : 1000000 ≤ (first - l.lastRefill) / 1000 ∨ (first - l.lastRefill) % 1000 = 0 ∧
      ∀ b : Bucket, (b.rate l.limits).toNat * ((first - l.lastRefill) / 1000) % 1000000 = 0)
    (hfits : l.Fits second) (hfits' : (l.refill first).Fits second) :
    (l.refill first).refill second = l.refill second := by
  rcases Nat.le_total first l.lastRefill with hearly | hlate
  · rw [refill_of_le hearly]
  apply eq_of_tokens
  · simp only [limits_refill]
  · simp only [lastRefill_refill]
    omega
  intro b
  rw [tokens_refill_eq (hl.refill first) hfits', tokens_refill_eq hl (hfits.mono hle),
    tokens_refill_eq hl hfits, limits_refill, lastRefill_refill]
  have hlast : max l.lastRefill first = first := Nat.max_eq_right hlate
  rw [hlast]
  rcases h with hfull | ⟨hmicros, hwhole⟩
  · rw [level_of_unit_le (by decide) _ hfull, level_full, level_of_unit_le (by decide)]
    omega
  · rw [level_level_of_whole (hwhole b)]
    congr 1
    omega

end Refills

/-- No sum of the run overflows. -/
def FitsRun (l : SessionLimiter) : List Call → Prop
  | [] => True
  | c :: cs => l.Fits c.now ∧ (l.tryConsumeAt c.bytes c.now).2.FitsRun cs

/-- A call that is denied `elapsed` after the last refill changes no later answer, in any
state that a limiter with these limits can be in. -/
def DeniedCostsNothing (limits : RateLimits) (elapsed : Nat) : Prop :=
  ∀ (created : Nat) (earlier : List Call) (size : UInt64) (now : Nat) (later : List Call),
    let l := (new limits created).after earlier
    let denied := l.tryConsumeAt size now
    now - l.lastRefill = elapsed → denied.1 = false →
    (now :: later.map Call.now).Pairwise (· ≤ ·) → l.FitsRun later → denied.2.FitsRun later →
    denied.2.answers later = l.answers later

section Bursts

variable {l : SessionLimiter} {now : Nat}

theorem tokens_spend_zero (l : SessionLimiter) : (l.spend 0).byteTokens = l.byteTokens := by
  unfold spend
  simp only [UInt64.sub_zero, ite_self]

/-- An empty packet with no time to refill for takes a packet token. -/
theorem tryConsumeAt_empty (hrate : l.limits.packetsPerSec ≠ 0) (hnow : now ≤ l.lastRefill)
    (h : 1 ≤ l.packetTokens) : l.tryConsumeAt 0 now = (true, l.spend 0) := by
  have hafford : ∀ b, (l.refill now).Affords 0 b := by
    rw [refill_of_le hnow]
    intro b
    cases b with
    | packets => exact Or.inr h
    | bytes => exact Or.inr UInt64.zero_le
  rw [tryConsumeAt_of_affords (isUnlimited_of_rate (b := .packets) hrate) hafford,
    refill_of_le hnow]

theorem tryConsumeAt_empty_denied (hrate : l.limits.packetsPerSec ≠ 0) (hnow : now ≤ l.lastRefill)
    (h : l.packetTokens = 0) : (l.tryConsumeAt 0 now).1 = false := by
  have hafford : ¬ (l.refill now).Affords 0 .packets := by
    rw [refill_of_le hnow]
    rintro (hzero | hone)
    · exact hrate hzero
    · change 1 ≤ l.packetTokens at hone
      rw [h] at hone
      exact absurd hone (by decide)
  rw [tryConsumeAt_of_not_affords (isUnlimited_of_rate (b := .packets) hrate) hafford]

theorem packetTokens_spend (hrate : l.limits.packetsPerSec ≠ 0) (h : 1 ≤ l.packetTokens) :
    (l.spend 0).packetTokens.toNat + 1 = l.packetTokens.toNat :=
  tokens_spend (b := .packets) hrate (Or.inr h)

theorem one_le_of_ne_zero {x : UInt64} (h : x ≠ 0) : 1 ≤ x :=
  UInt64.le_iff_toNat_le.mpr (UInt64.pos_iff_ne_zero.mpr h)

/-- As many empty packets as there are tokens leave no token. -/
theorem after_burst (hrate : l.limits.packetsPerSec ≠ 0) (hnow : now ≤ l.lastRefill) :
    l.after (List.replicate l.packetTokens.toNat ⟨0, now⟩) = { l with packetTokens := 0 } := by
  generalize hn : l.packetTokens.toNat = n
  induction n generalizing l with
  | zero =>
    have hzero : l.packetTokens = 0 := UInt64.toNat_inj.mp hn
    rw [← hzero]
    rfl
  | succ n ih =>
    have hone : 1 ≤ l.packetTokens := by
      apply one_le_of_ne_zero
      intro hzero
      rw [hzero] at hn
      cases hn
    have hspent := packetTokens_spend hrate hone
    change ((l.tryConsumeAt 0 now).2).after (List.replicate n ⟨0, now⟩) = _
    rw [tryConsumeAt_empty hrate hnow hone]
    apply (ih (l := l.spend 0) hrate hnow (by omega)).trans
    rw [tokens_spend_zero]
    rfl

/-- A burst is answered as a whole exactly if there is a token for each of its packets. -/
theorem answers_burst (hrate : l.limits.packetsPerSec ≠ 0) (hnow : now ≤ l.lastRefill) (n : Nat) :
    l.answers (List.replicate n ⟨0, now⟩) = List.replicate n true ↔
      n ≤ (Bucket.packets.tokens l).toNat := by
  change _ ↔ n ≤ l.packetTokens.toNat
  induction n generalizing l with
  | zero => exact iff_of_true rfl (Nat.zero_le _)
  | succ n ih =>
    rw [List.replicate_succ, List.replicate_succ, answers]
    by_cases hzero : l.packetTokens = 0
    · have hdenied := tryConsumeAt_empty_denied hrate hnow hzero
      simp [hdenied, hzero]
    · have hone := one_le_of_ne_zero hzero
      have hspent := packetTokens_spend hrate hone
      rw [tryConsumeAt_empty hrate hnow hone]
      simp only [List.cons.injEq, true_and]
      rw [ih (l := l.spend 0) hrate hnow]
      omega

theorem fitsRun_replicate (hlimited : l.limits.isUnlimited = false) (h : l.Fits now) (n : Nat)
    (size : UInt64) : l.FitsRun (List.replicate n ⟨size, now⟩) := by
  induction n generalizing l with
  | zero => exact trivial
  | succ n ih =>
    refine ⟨h, ih (by rwa [limits_tryConsumeAt]) (fits_of_le ?_)⟩
    rw [lastRefill_tryConsumeAt hlimited]
    exact Nat.le_max_right _ _

theorem answers_replicate_refill (hlimited : l.limits.isUnlimited = false) (n : Nat)
    (size : UInt64) : (l.refill now).answers (List.replicate n ⟨size, now⟩) =
      l.answers (List.replicate n ⟨size, now⟩) := by
  cases n with
  | zero => rfl
  | succ n =>
    apply answers_congr (by rwa [limits_refill])
    exact refill_refill_self l now

end Bursts

/-- A limiter that has spent all it had when it was made. -/
def drained (limits : RateLimits) : SessionLimiter where
  limits := limits
  packetTokens := 0
  byteTokens := 0
  lastRefill := 0

section Drained

variable {limits : RateLimits} {elapsed : Nat}

theorem tokens_drained (limits : RateLimits) (b : Bucket) : (b.tokens (drained limits)).toNat = 0 := by
  cases b <;> rfl

@[simp] theorem limits_drained (limits : RateLimits) : (drained limits).limits = limits := rfl

@[simp] theorem lastRefill_drained (limits : RateLimits) : (drained limits).lastRefill = 0 := rfl

theorem bounded_drained (limits : RateLimits) : (drained limits).Bounded := by
  intro b
  apply UInt64.le_iff_toNat_le.mpr
  rw [tokens_drained]
  exact Nat.zero_le _

/-- One packet takes all the bytes, and empty ones the rest of the packets. -/
theorem exists_after_eq_drained (hlimited : limits.isUnlimited = false) :
    ∃ earlier, (new limits 0).after earlier = drained limits := by
  have hafford : ∀ b, ((new limits 0).refill 0).Affords limits.bytesPerSec b := by
    rw [refill_of_le (Nat.le_refl 0)]
    intro b
    cases b with
    | packets =>
      by_cases hzero : limits.packetsPerSec = 0
      · exact Or.inl hzero
      · exact Or.inr (one_le_of_ne_zero hzero)
    | bytes => exact Or.inr (UInt64.le_refl _)
  have hfirst : (new limits 0).tryConsumeAt limits.bytesPerSec 0 =
      (true, (new limits 0).spend limits.bytesPerSec) := by
    rw [tryConsumeAt_of_affords hlimited hafford, refill_of_le (Nat.le_refl 0)]
  have hbytes : ((new limits 0).spend limits.bytesPerSec).byteTokens = 0 := by
    change (if 0 < limits.bytesPerSec then limits.bytesPerSec - limits.bytesPerSec
      else limits.bytesPerSec) = 0
    by_cases hpos : 0 < limits.bytesPerSec
    · rw [if_pos hpos, UInt64.sub_self]
    · rw [if_neg hpos]
      exact Classical.not_not.mp fun hne => hpos (UInt64.pos_iff_ne_zero.mpr hne)
  by_cases hzero : limits.packetsPerSec = 0
  · refine ⟨[⟨limits.bytesPerSec, 0⟩], ?_⟩
    apply (congrArg Prod.snd hfirst).trans
    have hpackets : ((new limits 0).spend limits.bytesPerSec).packetTokens = 0 := by
      change (if 0 < limits.packetsPerSec then limits.packetsPerSec - 1
        else limits.packetsPerSec) = 0
      rw [hzero]
      rfl
    refine eq_of_tokens (m := drained limits) rfl rfl ?_
    intro b
    cases b with
    | packets => exact congrArg UInt64.toNat hpackets
    | bytes => exact congrArg UInt64.toNat hbytes
  · refine ⟨⟨limits.bytesPerSec, 0⟩ :: List.replicate
      ((new limits 0).spend limits.bytesPerSec).packetTokens.toNat ⟨0, 0⟩, ?_⟩
    change ((new limits 0).tryConsumeAt limits.bytesPerSec 0).2.after _ = _
    rw [hfirst]
    apply (after_burst (l := (new limits 0).spend limits.bytesPerSec) hzero (Nat.le_refl 0)).trans
    rw [hbytes]
    rfl

theorem fits_drained (limits : RateLimits) : (drained limits).Fits 1000000000 := by
  intro b
  have hrate := (b.rate limits).toNat_lt
  rw [tokens_drained, limits_drained, lastRefill_drained]
  omega

theorem tokens_drained_full (limits : RateLimits) (b : Bucket) :
    (b.tokens ((drained limits).refill 1000000000)).toNat = (b.rate limits).toNat := by
  rw [tokens_refill_eq (bounded_drained limits) (fits_drained limits), lastRefill_drained]
  exact level_of_unit_le (by decide) _ (by decide)

/-- The tokens of a limiter that is polled before its second is over. -/
theorem tokens_drained_early (h : elapsed / 1000 < 1000000) (b : Bucket) :
    (b.tokens ((drained limits).refill elapsed)).toNat =
      level (b.rate limits).toNat 1000000 0 (elapsed / 1000) := by
  rw [tokens_refill_eq (bounded_drained limits) ((fits_drained limits).mono (by omega)),
    tokens_drained]
  rfl

theorem fits_drained_polled (h : elapsed / 1000 < 1000000) :
    ((drained limits).refill elapsed).Fits 1000000000 := by
  intro b
  rw [tokens_drained_early h, limits_refill, lastRefill_refill, limits_drained, lastRefill_drained]
  have hrate := (b.rate limits).toNat_lt
  have hticks : elapsed / 1000 + (1000000000 - max 0 elapsed) / 1000 ≤ 1000000 := by omega
  generalize (1000000000 - max 0 elapsed) / 1000 = rest at hticks
  calc level (b.rate limits).toNat 1000000 0 (elapsed / 1000) +
        (b.rate limits).toNat * rest / 1000000
      ≤ (b.rate limits).toNat * (elapsed / 1000) / 1000000 +
        (b.rate limits).toNat * rest / 1000000 := by
          apply Nat.add_le_add_right
          unfold level
          omega
    _ ≤ ((b.rate limits).toNat * (elapsed / 1000) + (b.rate limits).toNat * rest) / 1000000 :=
          Nat.div_add_div_le_add_div
    _ = (b.rate limits).toNat * (elapsed / 1000 + rest) / 1000000 := by rw [Nat.mul_add]
    _ ≤ (b.rate limits).toNat * 1000000 / 1000000 :=
          Nat.div_le_div_right (Nat.mul_le_mul_left _ hticks)
    _ < 2 ^ 64 := by omega

/-- After a poll that drops a part of a token or of a microsecond the bucket is not full when
its second is over. -/
theorem tokens_drained_polled {b : Bucket} (hrate : b.rate limits ≠ 0)
    (h : elapsed / 1000 < 1000000)
    (hloss : elapsed % 1000 ≠ 0 ∨ (b.rate limits).toNat * (elapsed / 1000) % 1000000 ≠ 0) :
    (b.tokens (((drained limits).refill elapsed).refill 1000000000)).toNat <
      (b.rate limits).toNat := by
  rw [tokens_refill_eq ((bounded_drained limits).refill elapsed) (fits_drained_polled h),
    tokens_drained_early h, limits_refill, lastRefill_refill, limits_drained, lastRefill_drained]
  apply level_lt_rate
  · exact UInt64.pos_iff_ne_zero.mpr hrate
  · decide
  · by_cases hmicros : elapsed % 1000 = 0
    · exact Or.inr ⟨by omega, hloss.resolve_left (not_not_intro hmicros)⟩
    · exact Or.inl (by omega)

theorem admits_drained_full (hlimited : limits.isUnlimited = false) :
    (((drained limits).refill 1000000000).tryConsumeAt limits.bytesPerSec 1000000000).1 = true := by
  rw [tryConsumeAt_of_affords hlimited]
  rw [refill_refill_self]
  intro b
  have hfull := UInt64.toNat_inj.mp (tokens_drained_full limits b)
  by_cases hzero : b.rate limits = 0
  · exact Or.inl hzero
  · apply Or.inr
    rw [hfull]
    cases b with
    | packets => exact one_le_of_ne_zero hzero
    | bytes => exact UInt64.le_refl _

theorem exists_rate_of_limited (h : limits.isUnlimited = false) : ∃ b : Bucket, b.rate limits ≠ 0 := by
  rcases Bool.and_eq_false_iff.mp h with hpackets | hbytes
  · exact ⟨.packets, ne_of_beq_false hpackets⟩
  · exact ⟨.bytes, ne_of_beq_false hbytes⟩

section Poll

-- a call that a drained limiter denies before its second is over
variable (hlimited : limits.isUnlimited = false) (hearly : elapsed / 1000 < 1000000)
  (hpoor : ¬ (limits.bytesPerSec = 0 ∧
    1000000 ≤ limits.packetsPerSec.toNat * (elapsed / 1000)))
include hlimited hearly hpoor

/-- A packet of all the bytes is denied, since not all of them have been earned, or, if bytes
are not counted, no packet. -/
theorem tryConsumeAt_drained :
    (drained limits).tryConsumeAt limits.bytesPerSec elapsed =
      (false, (drained limits).refill elapsed) := by
  by_cases hbytes : limits.bytesPerSec = 0
  · have hrate : limits.packetsPerSec ≠ 0 := by
      intro hpackets
      rw [RateLimits.isUnlimited, hpackets, hbytes] at hlimited
      cases hlimited
    apply tryConsumeAt_of_not_affords (b := .packets) hlimited
    rintro (hzero | hone)
    · exact hrate (by rwa [limits_refill] at hzero)
    · have hearned := UInt64.le_iff_toNat_le.mp hone
      rw [tokens_drained_early hearly] at hearned
      have hshort : ¬ 1000000 ≤ limits.packetsPerSec.toNat * (elapsed / 1000) :=
        fun hle => hpoor ⟨hbytes, hle⟩
      change 1 ≤ min (0 + limits.packetsPerSec.toNat * (elapsed / 1000) / 1000000) _ at hearned
      omega
  · apply tryConsumeAt_of_not_affords (b := .bytes) hlimited
    rintro (hzero | hall)
    · exact hbytes (by rwa [limits_refill] at hzero)
    · have hearned := UInt64.le_iff_toNat_le.mp hall
      rw [tokens_drained_early hearly] at hearned
      have hpos : 0 < limits.bytesPerSec.toNat := UInt64.pos_iff_ne_zero.mpr hbytes
      have hpart : limits.bytesPerSec.toNat * (elapsed / 1000) / 1000000 <
          limits.bytesPerSec.toNat := by
        apply Nat.div_lt_of_lt_mul
        rw [Nat.mul_comm 1000000]
        exact Nat.mul_lt_mul_of_pos_left hearly hpos
      change limits.bytesPerSec.toNat ≤
        min (0 + limits.bytesPerSec.toNat * (elapsed / 1000) / 1000000) _ at hearned
      omega

/-- A poll of a drained limiter that costs nothing leaves no trace when the second is over. -/
theorem answers_drained
    (hnothing : DeniedCostsNothing limits elapsed) (n : Nat) (size : UInt64) :
    (((drained limits).refill elapsed).refill 1000000000).answers
        (List.replicate n ⟨size, 1000000000⟩) =
      ((drained limits).refill 1000000000).answers (List.replicate n ⟨size, 1000000000⟩) := by
  obtain ⟨earlier, hearlier⟩ := exists_after_eq_drained hlimited
  have hdenied := tryConsumeAt_drained hlimited hearly hpoor
  have hlimited' : ((drained limits).refill elapsed).limits.isUnlimited = false := by
    rwa [limits_refill]
  have hsame := hnothing 0 earlier limits.bytesPerSec elapsed
    (List.replicate n ⟨size, 1000000000⟩)
  simp only [hearlier, hdenied, lastRefill_drained, Nat.sub_zero, forall_const] at hsame
  rw [answers_replicate_refill hlimited', answers_replicate_refill hlimited]
  apply hsame
  · rw [List.map_replicate, List.pairwise_cons]
    refine ⟨?_, List.pairwise_replicate.mpr (Or.inr (Nat.le_refl _))⟩
    intro t ht
    rw [List.eq_of_mem_replicate ht]
    change elapsed ≤ 1000000000
    omega
  · exact fitsRun_replicate hlimited (fits_drained limits) n size
  · exact fitsRun_replicate hlimited' (fits_drained_polled hearly) n size

/-- The bucket is as full after the poll as without it: a burst of one second's packets, or
one packet of one second's bytes, would tell. -/
theorem tokens_polled_of_nothing (hnothing : DeniedCostsNothing limits elapsed) {b : Bucket}
    (hrate : b.rate limits ≠ 0) :
    b.rate limits ≤ b.tokens (((drained limits).refill elapsed).refill 1000000000) := by
  have hsame := answers_drained hlimited hearly hpoor hnothing
  have hfull : b.rate ((drained limits).refill 1000000000).limits ≠ 0 := by
    rwa [limits_refill]
  have hpolled : b.rate (((drained limits).refill elapsed).refill 1000000000).limits ≠ 0 := by
    rwa [limits_refill, limits_refill]
  cases b with
  | packets =>
    have hlast : ∀ l : SessionLimiter, 1000000000 ≤ (l.refill 1000000000).lastRefill := by
      intro l
      rw [lastRefill_refill]
      exact Nat.le_max_right _ _
    have hburst := (answers_burst hfull (hlast (drained limits)) limits.packetsPerSec.toNat).mpr
      (Nat.le_of_eq (tokens_drained_full limits .packets).symm)
    rw [← hsame] at hburst
    exact UInt64.le_iff_toNat_le.mpr ((answers_burst hpolled (hlast _) _).mp hburst)
  | bytes =>
    have hone := hsame 1 limits.bytesPerSec
    rw [List.replicate_one, answers_singleton, answers_singleton, admits_drained_full hlimited,
      List.cons.injEq] at hone
    have hall := affords_of_admitted hpolled hone.1
    rwa [refill_refill_self] at hall

end Poll

/-- A denied call is harmless exactly if the session is not limited, if the limiter would be
full anyway, if every bucket has earned a whole number of tokens in a whole number of
microseconds, or if there is no such call. -/
theorem deniedCostsNothing_iff (limits : RateLimits) (elapsed : Nat) :
    DeniedCostsNothing limits elapsed ↔
      limits.isUnlimited = true ∨ 1000000 ≤ elapsed / 1000 ∨
      (elapsed % 1000 = 0 ∧
        limits.packetsPerSec.toNat * (elapsed / 1000) % 1000000 = 0 ∧
        limits.bytesPerSec.toNat * (elapsed / 1000) % 1000000 = 0) ∨
      (limits.bytesPerSec = 0 ∧ 1000000 ≤ limits.packetsPerSec.toNat * (elapsed / 1000)) := by
  constructor
  · intro hnothing
    by_contra hcond
    simp only [not_or, Bool.not_eq_true, Nat.not_le] at hcond
    obtain ⟨hlimited, hearly, hpart, hpoor⟩ := hcond
    have hwhole : ∀ b : Bucket, b.rate limits ≠ 0 →
        elapsed % 1000 = 0 ∧ (b.rate limits).toNat * (elapsed / 1000) % 1000000 = 0 := by
      intro b hrate
      by_contra hloss
      have hless := tokens_drained_polled hrate hearly (Decidable.not_and_iff_or_not.mp hloss)
      have hall := tokens_polled_of_nothing hlimited hearly hpoor hnothing hrate
      exact absurd (UInt64.le_iff_toNat_le.mp hall) (Nat.not_le_of_lt hless)
    have hwhole' : ∀ b : Bucket, (b.rate limits).toNat * (elapsed / 1000) % 1000000 = 0 := by
      intro b
      by_cases hzero : b.rate limits = 0
      · rw [hzero, UInt64.toNat_zero, Nat.zero_mul, Nat.zero_mod]
      · exact (hwhole b hzero).2
    obtain ⟨b, hrate⟩ := exists_rate_of_limited hlimited
    exact hpart ⟨(hwhole b hrate).1, hwhole' .packets, hwhole' .bytes⟩
  · intro hcond created earlier size now later l denied helapsed hdenied hsorted hfits hfits'
    have hl : l.Bounded := (bounded_new limits created).after earlier
    have hlimits : l.limits = limits := limits_after _ earlier
    have hlimited : l.limits.isUnlimited = false := isUnlimited_of_denied hdenied
    have hrefill : denied.2 = l.refill now := denied_eq_refill hdenied
    cases later with
    | nil => rfl
    | cons c cs =>
      have hle : now ≤ c.now := (List.pairwise_cons.mp hsorted).1 _ List.mem_cons_self
      rw [hrefill] at hfits' ⊢
      -- from the refill of the first later call on, the two limiters are one
      apply answers_congr (by rwa [limits_refill])
      apply refill_refill hl hle _ hfits.1 hfits'.1
      rw [helapsed, hlimits]
      rcases hcond with hunlimited | hfull | ⟨hmicros, hpackets, hbytes⟩ | ⟨hzero, hearned⟩
      · rw [hlimits, hunlimited] at hlimited
        cases hlimited
      · exact Or.inl hfull
      · refine Or.inr ⟨hmicros, ?_⟩
        intro b
        cases b with
        | packets => exact hpackets
        | bytes => exact hbytes
      · have hadmitted := admits_of_earned hl (hfits.1.mono hle)
          (by rwa [hlimits]) (by rwa [hlimits, helapsed]) size
        exact absurd hadmitted (by rw [hdenied]; exact Bool.false_ne_true)

/-- At three packets a second 400 ms earn a token, but not after a call that was denied half
way; a client that keeps sending every 333 ms gets nothing through. -/
theorem denied_call_costs :
    (((new ⟨3, 0⟩ 0).after (List.replicate 3 ⟨100, 0⟩)).tryConsumeAt 100 200000000).1 = false ∧
    (((new ⟨3, 0⟩ 0).after (List.replicate 3 ⟨100, 0⟩)).tryConsumeAt 100 200000000).2.answers
      [⟨100, 400000000⟩] = [false] ∧
    ((new ⟨3, 0⟩ 0).after (List.replicate 3 ⟨100, 0⟩)).answers [⟨100, 400000000⟩] = [true] ∧
    ((new ⟨3, 0⟩ 0).after (List.replicate 3 ⟨100, 0⟩)).answers
      ((List.range 5).map fun i => ⟨100, 333000000 * (i + 1)⟩) = List.replicate 5 false := by
  decide +kernel

end Drained

end Straw.SessionLimiter
