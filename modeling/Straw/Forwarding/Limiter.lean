import Straw.Lib.Outcome
import Straw.Types

/-!
# Token buckets

Packets and bytes per second, each with a burst of one second. Times are in
nanoseconds. As everywhere in the data plane an overflow panics, which is what
`try_consume` does here; `try_consume_at` is the call without that check, so that its
sums wrap around.
-/

namespace Straw

set_option autoImplicit false

/-- Zero means unlimited. -/
structure RateLimits where
  packetsPerSec : UInt64
  bytesPerSec : UInt64

def RateLimits.isUnlimited (l : RateLimits) : Bool := l.packetsPerSec == 0 && l.bytesPerSec == 0

structure SessionLimiter where
  limits : RateLimits
  packetTokens : UInt64
  byteTokens : UInt64
  lastRefill : Nat

namespace SessionLimiter

def new (limits : RateLimits) (now : Nat) : SessionLimiter where
  limits := limits
  packetTokens := limits.packetsPerSec
  byteTokens := limits.bytesPerSec
  lastRefill := now

/-- The tokens earned over `elapsed`: whole microseconds count, the product is a `u128`
and the quotient is cut to a `u64`. -/
def earned (rate : UInt64) (elapsed : Nat) : UInt64 :=
  UInt64.ofNat (rate.toNat * (elapsed / 1000) % 2 ^ 128 / 1000000)

def refill (l : SessionLimiter) (now : Nat) : SessionLimiter :=
  let elapsed := now - l.lastRefill
  if elapsed = 0 then l
  else
    { l with
      packetTokens := min (l.packetTokens + earned l.limits.packetsPerSec elapsed)
        l.limits.packetsPerSec
      byteTokens := min (l.byteTokens + earned l.limits.bytesPerSec elapsed) l.limits.bytesPerSec
      lastRefill := now }

def tryConsumeAt (l : SessionLimiter) (bytes : UInt64) (now : Nat) : Bool × SessionLimiter :=
  if l.limits.isUnlimited then (true, l)
  else
    let l := l.refill now
    let packetsOk := l.limits.packetsPerSec == 0 || 1 ≤ l.packetTokens
    let bytesOk := l.limits.bytesPerSec == 0 || bytes ≤ l.byteTokens
    if !(packetsOk && bytesOk) then (false, l)
    else
      (true, { l with
        packetTokens := if 0 < l.limits.packetsPerSec then l.packetTokens - 1 else l.packetTokens
        byteTokens := if 0 < l.limits.bytesPerSec then l.byteTokens - bytes else l.byteTokens })

/-- The product stays in a `u128` and the sum in a `u64`; the cast between them cuts
without a check. -/
def sumFits (rate tokens : UInt64) (elapsed : Nat) : Bool :=
  rate.toNat * (elapsed / 1000) < 2 ^ 128 ∧ tokens.toNat + (earned rate elapsed).toNat < 2 ^ 64

def refillFits (l : SessionLimiter) (now : Nat) : Bool :=
  sumFits l.limits.packetsPerSec l.packetTokens (now - l.lastRefill) &&
    sumFits l.limits.bytesPerSec l.byteTokens (now - l.lastRefill)

def tryConsume (l : SessionLimiter) (bytes : UInt64) (now : Nat) :
    Outcome Empty (Bool × SessionLimiter) :=
  if l.limits.isUnlimited || l.refillFits now then .ok (l.tryConsumeAt bytes now)
  else .error .panic

end SessionLimiter

end Straw
