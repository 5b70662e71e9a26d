import Straw.Lib.Word
import Straw.Lib.Splice

/-!
# Ones' complement checksums

The sum of the big-endian 16-bit words of a byte string, the value in `[0, 0xffff]`
that carrying its high half back in leads to, and the rule a checksum rests on: the
complement of the sum, written where the summed bytes had zeros, makes the whole sum
fold to all ones.
-/

set_option autoImplicit false

namespace OnesComplement

/-- An odd last byte is the high half of a word. -/
def wordSum : List UInt8 → Nat
  | hi :: lo :: rest => hi.toNat * 256 + lo.toNat + wordSum rest
  | [last] => last.toNat * 256
  | [] => 0

/-- Zero is only reached from zero; every other sum ends in `[1, 0xffff]`. -/
def fold (n : Nat) : Nat := if n = 0 then 0 else (n - 1) % 0xffff + 1

theorem fold_of_le {n : Nat} (h : n ≤ 0xffff) : fold n = n := by
  unfold fold
  split <;> omega

theorem fold_carry {n : Nat} (h : 0xffff < n) : fold (n % 2 ^ 16 + n / 2 ^ 16) = fold n := by
  unfold fold
  rw [if_neg (by omega), if_neg (by omega)]
  omega

theorem fold_le (n : Nat) : fold n ≤ 0xffff := by
  unfold fold
  split <;> omega

theorem fold_eq_ones {n : Nat} : fold n = 0xffff ↔ 0 < n ∧ 0xffff ∣ n := by
  unfold fold
  split <;> omega

theorem fold_add_complement (n : Nat) : fold (n + (0xffff - fold n)) = 0xffff := by
  rw [fold_eq_ones]
  unfold fold
  split <;> omega

theorem wordSum_append {xs : List UInt8} (h : xs.length % 2 = 0) (ys : List UInt8) :
    wordSum (xs ++ ys) = wordSum xs + wordSum ys := by
  induction xs using wordSum.induct with
  | case1 hi lo rest ih =>
    have hrest : rest.length % 2 = 0 := by
      simp only [List.length_cons] at h
      omega
    simp only [List.cons_append, wordSum, ih hrest]
    omega
  | case2 last => simp at h
  | case3 => simp [wordSum]

theorem wordSum_le (xs : List UInt8) : 2 * wordSum xs ≤ 0xffff * (xs.length + 1) := by
  induction xs using wordSum.induct with
  | case1 hi lo rest ih =>
    have hhi := hi.toNat_lt
    have hlo := lo.toNat_lt
    simp only [wordSum, List.length_cons]
    omega
  | case2 last =>
    have hlast := last.toNat_lt
    simp only [wordSum, List.length_singleton]
    omega
  | case3 => simp [wordSum]

theorem wordSum_ofNat {n : Nat} (h : n ≤ 0xffff) : wordSum (BigEndian.ofNat 2 n) = n := by
  have hhigh : (UInt8.ofNat (n / 256)).toNat = n / 256 := by
    rw [UInt8.toNat_ofNat']
    omega
  have hlow : (UInt8.ofNat n).toNat = n % 256 := by
    rw [UInt8.toNat_ofNat']
  simp only [BigEndian.ofNat, List.nil_append, List.cons_append, wordSum, hhigh, hlow]
  omega

/-- What a word at an even offset adds to the sum. -/
theorem wordSum_splice {xs ys : List UInt8} {i : Nat} (hi : i % 2 = 0)
    (hlen : i + 2 ≤ xs.length) (hys : ys.length = 2) :
    wordSum (splice xs i ys) = wordSum (splice xs i [0, 0]) + wordSum ys := by
  have htake : (xs.take i).length % 2 = 0 := by
    rw [List.length_take]
    omega
  have hzero : wordSum [0, 0] = 0 := rfl
  have hpair : ([0, 0] : List UInt8).length = 2 := rfl
  rw [splice, splice, wordSum_append htake, wordSum_append htake, wordSum_append (by omega),
    wordSum_append (by omega), hzero, hys, hpair]
  omega

/-- The checksum rule: `seed` is what the sum takes in beside the bytes of `xs`. -/
theorem fold_complement_written {xs : List UInt8} {i : Nat} (hi : i % 2 = 0)
    (hlen : i + 2 ≤ xs.length) (seed : Nat) :
    fold (seed + wordSum (splice xs i (BigEndian.ofNat 2
      (0xffff - fold (seed + wordSum (splice xs i [0, 0])))))) = 0xffff := by
  rw [wordSum_splice hi hlen (BigEndian.ofNat_length 2 _), wordSum_ofNat (Nat.sub_le _ _),
    ← Nat.add_assoc]
  exact fold_add_complement _

/-- The same where the field is zero already. -/
theorem fold_complement_zeroed {xs : List UInt8} {i : Nat} (hi : i % 2 = 0)
    (hlen : i + 2 ≤ xs.length) (hzero : field xs i 2 = [0, 0]) (seed : Nat) :
    fold (seed + wordSum (splice xs i (BigEndian.ofNat 2
      (0xffff - fold (seed + wordSum xs))))) = 0xffff := by
  have hrule := fold_complement_written hi hlen seed
  rwa [splice_of_field hlen hzero] at hrule

end OnesComplement
