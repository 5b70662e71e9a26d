import Straw.Lib.Outcome
import Straw.Types

/-!
# Variable-length integers

The two high bits of the first byte give the length, 1, 2, 4 or 8 bytes; the value
follows in network order.
-/

namespace Straw

set_option autoImplicit false

inductive DecodeError where
  | underflow
  | invalidIpVersion (version : UInt8)
  | invalidPrefixLength (ipVersion prefixLen : UInt8)
  | invalidVarInt
  | bufferTooShort (needed available : Nat)
  | trailingBytes (count : Nat)
deriving DecidableEq

def DecodeError.toString : DecodeError → String
  | .underflow => "unexpected end of buffer"
  | .invalidIpVersion version => s!"invalid IP version: {version}"
  | .invalidPrefixLength ipVersion prefixLen =>
    s!"invalid prefix length {prefixLen} for IPv{ipVersion}"
  | .invalidVarInt => "invalid variable-length integer"
  | .bufferTooShort needed available =>
    s!"buffer too short: need {needed} bytes, have {available}"
  | .trailingBytes count => s!"unexpected trailing bytes: {count} bytes remaining"

/-- The variants of the top-level error that the modelled functions return. -/
inductive ProxyError where
  | decode (e : DecodeError)
  | io (message : String)
  | invalidRequest (message : String)
  | authFailed (message : String)
  | quic (message : String)
  | http (message : String)
  | config (message : String)
  | dnsFailure (message : String)
deriving DecidableEq

def ProxyError.ofDecode {α : Type} (r : Except DecodeError α) : Outcome ProxyError α :=
  Outcome.ofExcept (r.mapError .decode)

namespace Codec

def varintMax : Nat := 2 ^ 62 - 1

def varintLen (val : Nat) : Except DecodeError Nat :=
  if val ≤ 63 then .ok 1
  else if val ≤ 16383 then .ok 2
  else if val ≤ 1073741823 then .ok 4
  else if val ≤ varintMax then .ok 8
  else .error .invalidVarInt

def readVarint : Bytes → Except DecodeError (Nat × Bytes)
  | [] => .error .underflow
  | first :: rest =>
    let len := 1 <<< (first >>> 6).toNat
    if rest.length < len - 1 then .error .underflow
    else
      let val := (rest.take (len - 1)).foldl (fun val b => (val <<< 8) ||| b.toNat)
        (first &&& 0x3f).toNat
      .ok (val, rest.drop (len - 1))

def getU8 : Bytes → Except DecodeError (UInt8 × Bytes)
  | [] => .error .underflow
  | b :: rest => .ok (b, rest)

def getSlice (n : Nat) (buf : Bytes) : Except DecodeError (Bytes × Bytes) :=
  if buf.length < n then .error .underflow else .ok (buf.take n, buf.drop n)

def byteAt (val k : Nat) : UInt8 := UInt8.ofNat (val >>> k)

def writeVarint (val : Nat) : Except DecodeError Bytes := do
  let len ← varintLen val
  match len with
  | 1 => .ok [byteAt val 0]
  | 2 => .ok [0x40 ||| byteAt val 8, byteAt val 0]
  | 4 => .ok [0x80 ||| byteAt val 24, byteAt val 16, byteAt val 8, byteAt val 0]
  | _ => .ok [0xc0 ||| byteAt val 56, byteAt val 48, byteAt val 40, byteAt val 32,
      byteAt val 24, byteAt val 16, byteAt val 8, byteAt val 0]

theorem getSlice_append {n : Nat} {xs : Bytes} (h : xs.length = n) (rest : Bytes) :
    getSlice n (xs ++ rest) = .ok (xs, rest) := by
  subst h
  simp [getSlice]

theorem shiftLeft_or_byteAt (val k : Nat) :
    (val >>> (k + 8)) <<< 8 ||| (byteAt val k).toNat = val >>> k := by
  have hlow : (byteAt val k).toNat = val >>> k % 2 ^ 8 := by simp [byteAt]
  have hlt : val >>> k % 2 ^ 8 < 2 ^ 8 := Nat.mod_lt _ (by decide)
  rw [hlow, ← Nat.shiftLeft_add_eq_or_of_lt hlt, Nat.shiftRight_add, Nat.shiftLeft_eq,
    Nat.shiftRight_eq_div_pow (val >>> k), Nat.mul_comm]
  exact Nat.div_add_mod _ _

def lowBytes (val : Nat) : Nat → Bytes
  | 0 => []
  | n + 1 => byteAt val (8 * n) :: lowBytes val n

theorem length_lowBytes (val n : Nat) : (lowBytes val n).length = n := by
  induction n with
  | zero => rfl
  | succ n ih => simp [lowBytes, ih]

theorem foldl_lowBytes (val n : Nat) :
    (lowBytes val n).foldl (fun val b => (val <<< 8) ||| b.toNat) (val >>> (8 * n)) = val := by
  induction n with
  | zero => rfl
  | succ n ih => rw [lowBytes, List.foldl_cons, Nat.mul_succ, shiftLeft_or_byteAt, ih]

/-- The first byte of each of the four forms splits into the length and the high bits. -/
theorem first_byte (x : Fin 64) :
    ((UInt8.ofNat x.val >>> 6).toNat = 0 ∧ (UInt8.ofNat x.val &&& 0x3f).toNat = x.val) ∧
    (((0x40 ||| UInt8.ofNat x.val) >>> 6).toNat = 1 ∧
      ((0x40 ||| UInt8.ofNat x.val) &&& 0x3f).toNat = x.val) ∧
    (((0x80 ||| UInt8.ofNat x.val) >>> 6).toNat = 2 ∧
      ((0x80 ||| UInt8.ofNat x.val) &&& 0x3f).toNat = x.val) ∧
    (((0xc0 ||| UInt8.ofNat x.val) >>> 6).toNat = 3 ∧
      ((0xc0 ||| UInt8.ofNat x.val) &&& 0x3f).toNat = x.val) := by
  revert x
  decide

theorem readVarint_form {first : UInt8} {val t n : Nat} (hn : 1 <<< t = n + 1)
    (hfirst : (first >>> 6).toNat = t ∧ (first &&& 0x3f).toNat = val >>> (8 * n)) (rest : Bytes) :
    readVarint (first :: lowBytes val n ++ rest) = .ok (val, rest) := by
  have hlen := length_lowBytes val n
  have hshort : ¬ (lowBytes val n ++ rest).length < n := by
    rw [List.length_append, hlen]
    omega
  have htake : (lowBytes val n ++ rest).take n = lowBytes val n := by
    rw [List.take_append_of_le_length (by omega), List.take_of_length_le (by omega)]
  have hdrop : (lowBytes val n ++ rest).drop n = rest := by
    rw [List.drop_append_of_le_length (by omega), List.drop_of_length_le (by omega),
      List.nil_append]
  rw [List.cons_append, readVarint]
  simp only [hfirst.1, hfirst.2, hn, Nat.add_sub_cancel, if_neg hshort, htake, hdrop,
    foldl_lowBytes]

theorem writeVarint_cases {val : Nat} {bs : Bytes} (h : writeVarint val = .ok bs) :
    (val < 2 ^ 6 ∧ bs = byteAt val (8 * 0) :: lowBytes val 0) ∨
    (val < 2 ^ 14 ∧ bs = (0x40 ||| byteAt val (8 * 1)) :: lowBytes val 1) ∨
    (val < 2 ^ 30 ∧ bs = (0x80 ||| byteAt val (8 * 3)) :: lowBytes val 3) ∨
    (val < 2 ^ 62 ∧ bs = (0xc0 ||| byteAt val (8 * 7)) :: lowBytes val 7) := by
  unfold writeVarint varintLen varintMax at h
  split at h
  · rename_i hval
    exact Or.inl ⟨by omega, (Except.ok.inj h).symm⟩
  · split at h
    · rename_i hval
      exact Or.inr (Or.inl ⟨by omega, (Except.ok.inj h).symm⟩)
    · split at h
      · rename_i hval
        exact Or.inr (Or.inr (Or.inl ⟨by omega, (Except.ok.inj h).symm⟩))
      · split at h
        · rename_i hval
          exact Or.inr (Or.inr (Or.inr ⟨by omega, (Except.ok.inj h).symm⟩))
        · cases h

theorem writeVarint_ok {val : Nat} (h : val < 2 ^ 62) : ∃ bs, writeVarint val = .ok bs := by
  have hmax : val ≤ varintMax := by
    unfold varintMax
    omega
  unfold writeVarint varintLen
  split
  · exact ⟨_, rfl⟩
  · split
    · exact ⟨_, rfl⟩
    · split
      · exact ⟨_, rfl⟩
      · exact ⟨_, rfl⟩

theorem varintLen_mem {val len : Nat} (h : varintLen val = .ok len) : len ∈ [1, 2, 4, 8] := by
  unfold varintLen at h
  split at h
  · exact Except.ok.inj h ▸ by decide
  · split at h
    · exact Except.ok.inj h ▸ by decide
    · split at h
      · exact Except.ok.inj h ▸ by decide
      · split at h
        · exact Except.ok.inj h ▸ by decide
        · cases h

theorem varintLen_writeVarint {val : Nat} {bs : Bytes} (h : writeVarint val = .ok bs) :
    varintLen val = .ok bs.length := by
  unfold writeVarint at h
  cases hlen : varintLen val with
  | error e =>
    rw [hlen] at h
    cases h
  | ok len =>
    rw [hlen] at h
    have hmem := varintLen_mem hlen
    simp only [List.mem_cons, List.not_mem_nil, or_false] at hmem
    rcases hmem with rfl | rfl | rfl | rfl <;> cases h <;> rfl

theorem length_writeVarint_le {val : Nat} {bs : Bytes} (h : writeVarint val = .ok bs) :
    bs.length ≤ 8 := by
  have hmem := varintLen_mem (varintLen_writeVarint h)
  simp only [List.mem_cons, List.not_mem_nil, or_false] at hmem
  omega

theorem readVarint_writeVarint {val : Nat} {bs : Bytes} (h : writeVarint val = .ok bs)
    (rest : Bytes) : readVarint (bs ++ rest) = .ok (val, rest) := by
  have hhigh : ∀ n, val < 2 ^ (8 * n + 6) → val >>> (8 * n) < 64 := by
    intro n hn
    rw [Nat.shiftRight_eq_div_pow, Nat.div_lt_iff_lt_mul (Nat.two_pow_pos _), Nat.mul_comm]
    exact Nat.pow_add 2 (8 * n) 6 ▸ hn
  rcases writeVarint_cases h with ⟨hval, rfl⟩ | ⟨hval, rfl⟩ | ⟨hval, rfl⟩ | ⟨hval, rfl⟩
  · exact readVarint_form rfl (first_byte ⟨val >>> (8 * 0), hhigh 0 hval⟩).1 rest
  · exact readVarint_form rfl (first_byte ⟨val >>> (8 * 1), hhigh 1 hval⟩).2.1 rest
  · exact readVarint_form rfl (first_byte ⟨val >>> (8 * 3), hhigh 3 hval⟩).2.2.1 rest
  · exact readVarint_form rfl (first_byte ⟨val >>> (8 * 7), hhigh 7 hval⟩).2.2.2 rest

theorem foldl_shift_lt {val k : Nat} (bs : Bytes) (h : val < 2 ^ k) :
    bs.foldl (fun val b => (val <<< 8) ||| b.toNat) val < 2 ^ (k + 8 * bs.length) := by
  induction bs generalizing val k with
  | nil => exact h
  | cons b bs ih =>
    have hb : b.toNat < 2 ^ 8 := b.toNat_lt
    have hstep : (val <<< 8) ||| b.toNat < 2 ^ (k + 8) := by
      rw [← Nat.shiftLeft_add_eq_or_of_lt hb, Nat.shiftLeft_eq, Nat.pow_add]
      have hmul : (val + 1) * 2 ^ 8 ≤ 2 ^ k * 2 ^ 8 := Nat.mul_le_mul_right _ h
      omega
    have hlen : k + 8 + 8 * bs.length = k + 8 * (b :: bs).length := by
      rw [List.length_cons]
      omega
    rw [List.foldl_cons, ← hlen]
    exact ih hstep

/-- The first byte says how many follow, and what is read has six bits of the first byte
and eight of each of the others. -/
theorem readVarint_bits {buf rest : Bytes} {val : Nat} (h : readVarint buf = .ok (val, rest)) :
    ∃ first tail, buf = first :: tail ∧ 1 <<< (first >>> 6).toNat - 1 ≤ tail.length ∧
      rest = tail.drop (1 <<< (first >>> 6).toNat - 1) ∧
      val < 2 ^ (6 + 8 * (1 <<< (first >>> 6).toNat - 1)) := by
  cases buf with
  | nil => cases h
  | cons first tail =>
    simp only [readVarint] at h
    split at h
    · cases h
    · rename_i hlong
      obtain ⟨rfl, rfl⟩ := Prod.mk.inj (Except.ok.inj h)
      have hhead : (first &&& 0x3f).toNat < 2 ^ 6 := by
        rw [UInt8.toNat_and]
        exact Nat.lt_succ_of_le Nat.and_le_right
      have hfits := foldl_shift_lt (tail.take (1 <<< (first >>> 6).toNat - 1)) hhead
      rw [List.length_take, Nat.min_eq_left (by omega)] at hfits
      exact ⟨first, tail, rfl, by omega, rfl, hfits⟩

theorem tag_le (first : UInt8) : (first >>> 6).toNat ≤ 3 := by
  have hfirst := first.toNat_lt
  rw [UInt8.toNat_shiftRight, Nat.shiftRight_eq_div_pow]
  simp only [UInt8.toNat_ofNat, Nat.reducePow, Nat.reduceMod]
  omega

theorem readVarint_lt {buf rest : Bytes} {val : Nat} (h : readVarint buf = .ok (val, rest)) :
    val < 2 ^ 62 := by
  obtain ⟨first, tail, -, -, -, hval⟩ := readVarint_bits h
  have hlen : 1 <<< (first >>> 6).toNat ≤ 8 := by
    rw [Nat.shiftLeft_eq, Nat.one_mul]
    exact Nat.pow_le_pow_right (by decide) (tag_le first)
  exact Nat.lt_of_lt_of_le hval (Nat.pow_le_pow_right (by decide) (by omega))

end Codec

end Straw
