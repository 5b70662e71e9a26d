import Mathlib.Algebra.Group.Nat.Defs
import Mathlib.Order.Defs.LinearOrder
import Mathlib.Data.List.Induction

/-!
# Fixed-width words and big-endian bytes

The linear order of `BitVec w`, addition that reports overflow, and the byte
strings a word is written to and read from, most significant byte first.
-/

set_option autoImplicit false

namespace Word

instance linearOrder (w : Nat) : LinearOrder (BitVec w) where
  le_refl := BitVec.le_refl
  le_trans _ _ _ := BitVec.le_trans
  le_antisymm _ _ := BitVec.le_antisymm
  le_total := BitVec.le_total
  lt_iff_le_not_ge a b := by rw [BitVec.lt_def, BitVec.le_def, BitVec.le_def]; omega
  toDecidableLE := inferInstance

variable {w : Nat}

def checkedAdd (a b : BitVec w) : Option (BitVec w) :=
  if a.toNat + b.toNat < 2 ^ w then some (a + b) else none

theorem checkedAdd_some {a b c : BitVec w} (h : checkedAdd a b = some c) :
    c.toNat = a.toNat + b.toNat := by
  unfold checkedAdd at h
  split at h
  · obtain rfl := Option.some.inj h
    rw [BitVec.toNat_add, Nat.mod_eq_of_lt (by assumption)]
  · simp at h

end Word

namespace BigEndian

def toNat (bs : List UInt8) : Nat := bs.foldl (fun n b => n * 256 + b.toNat) 0

/-- The last `k` base-256 digits of a number, most significant first. -/
def ofNat : Nat → Nat → List UInt8
  | 0, _ => []
  | k + 1, n => ofNat k (n / 256) ++ [UInt8.ofNat n]

@[simp] theorem ofNat_length (k n : Nat) : (ofNat k n).length = k := by
  induction k generalizing n with
  | zero => rfl
  | succ k ih => simp [ofNat, ih]

theorem toNat_append_singleton (bs : List UInt8) (b : UInt8) :
    toNat (bs ++ [b]) = toNat bs * 256 + b.toNat := by
  simp [toNat, List.foldl_append]

theorem toNat_lt (bs : List UInt8) : toNat bs < 256 ^ bs.length := by
  induction bs using List.reverseRecOn with
  | nil => simp [toNat]
  | append_singleton bs b ih =>
    have hb := b.toNat_lt
    rw [toNat_append_singleton, List.length_append, List.length_singleton, Nat.pow_succ]
    omega

theorem toNat_ofNat (k n : Nat) : toNat (ofNat k n) = n % 256 ^ k := by
  induction k generalizing n with
  | zero => simp [ofNat, toNat, Nat.mod_one]
  | succ k ih =>
    have hbyte : (UInt8.ofNat n).toNat = n % 256 := by simp
    have hpow : 256 ^ (k + 1) = 256 * 256 ^ k := by rw [Nat.pow_succ, Nat.mul_comm]
    rw [ofNat, toNat_append_singleton, ih, hbyte, hpow, Nat.mod_mul]
    omega

theorem ofNat_toNat (bs : List UInt8) : ofNat bs.length (toNat bs) = bs := by
  induction bs using List.reverseRecOn with
  | nil => rfl
  | append_singleton bs b ih =>
    have hb := b.toNat_lt
    have hdiv : (toNat bs * 256 + b.toNat) / 256 = toNat bs := by omega
    have hlast : UInt8.ofNat (toNat bs * 256 + b.toNat) = b := by
      apply UInt8.toNat_inj.mp
      rw [UInt8.toNat_ofNat']
      omega
    rw [toNat_append_singleton, List.length_append, List.length_singleton, ofNat, hdiv, ih, hlast]

section BitVec

variable {w k : Nat} (hw : 256 ^ k = 2 ^ w)

include hw

theorem bitVec_toNat_ofNat (a : BitVec w) : BitVec.ofNat w (toNat (ofNat k a.toNat)) = a := by
  have hlt : a.toNat < 256 ^ k := by
    rw [hw]
    exact a.isLt
  rw [toNat_ofNat, Nat.mod_eq_of_lt hlt, BitVec.ofNat_toNat, BitVec.setWidth_eq]

theorem ofNat_bitVec_toNat {bs : List UInt8} (h : bs.length = k) :
    ofNat k (BitVec.ofNat w (toNat bs)).toNat = bs := by
  have hlt : toNat bs < 2 ^ w := by
    rw [← hw, ← h]
    exact toNat_lt bs
  rw [BitVec.toNat_ofNat, Nat.mod_eq_of_lt hlt, ← h, ofNat_toNat]

end BitVec

end BigEndian
