import Straw.Capsule.Codec
import Mathlib.Order.Bounds.Basic

/-!
# Variable-length integers on 64-bit words

`read_varint` and `write_varint` as they run on a buffer: every byte is taken from its
front or put at its end, and the value is a `u64`. They come to the same as `readVarint`
and `writeVarint` of the codec, which compute with numbers.
-/

namespace Straw.Varint

open Outcome Proc Codec
set_option autoImplicit false

def varintMax : UInt64 := ((1 : UInt64) <<< 62) - 1

def varintLen (val : UInt64) : Except DecodeError Nat :=
  if val ≤ 63 then .ok 1
  else if val ≤ 16383 then .ok 2
  else if val ≤ 1073741823 then .ok 4
  else if val ≤ varintMax then .ok 8
  else .error .invalidVarInt

abbrev BufProc := Proc Bytes DecodeError

def remaining : BufProc Nat := fun buf => (.ok buf.length, buf)

/-- Reading from an empty buffer panics. -/
def getU8 : BufProc UInt8
  | [] => (.error .panic, [])
  | b :: buf => (.ok b, buf)

def putU8 (b : UInt8) : BufProc Unit := modify fun buf => buf ++ [b]

def readLoop : Nat → UInt64 → BufProc UInt64
  | 0, val => pure val
  | n + 1, val => do
    let b ← getU8
    readLoop n ((val <<< 8) ||| b.toUInt64)

def readVarint : BufProc UInt64 := do
  if (← remaining) = 0 then throw .underflow
  else
    let first ← getU8
    let len := 1 <<< (first >>> 6).toNat
    if (← remaining) < len - 1 then throw .underflow
    else readLoop (len - 1) (first &&& 0x3f).toUInt64

def writeVarint (val : UInt64) : BufProc Unit := do
  let len ← ofOutcome (ofExcept (varintLen val))
  match len with
  | 1 => putU8 val.toUInt8
  | 2 =>
    putU8 ((0x40 : UInt8) ||| (val >>> 8).toUInt8)
    putU8 val.toUInt8
  | 4 =>
    putU8 ((0x80 : UInt8) ||| (val >>> 24).toUInt8)
    putU8 (val >>> 16).toUInt8
    putU8 (val >>> 8).toUInt8
    putU8 val.toUInt8
  | 8 =>
    putU8 ((0xc0 : UInt8) ||| (val >>> 56).toUInt8)
    putU8 (val >>> 48).toUInt8
    putU8 (val >>> 40).toUInt8
    putU8 (val >>> 32).toUInt8
    putU8 (val >>> 24).toUInt8
    putU8 (val >>> 16).toUInt8
    putU8 (val >>> 8).toUInt8
    putU8 val.toUInt8
  | _ => ofOutcome (.error .panic)

/-! Words and numbers -/

theorem varintLen_eq (val : UInt64) : varintLen val = Codec.varintLen val.toNat := by
  have hmax : varintMax.toNat = Codec.varintMax := by decide
  simp only [varintLen, Codec.varintLen, UInt64.le_iff_toNat_le, hmax]
  rfl

theorem toUInt8_eq_byteAt (val : UInt64) : val.toUInt8 = byteAt val.toNat 0 := by
  apply UInt8.toNat_inj.mp
  rw [UInt64.toNat_toUInt8, byteAt, UInt8.toNat_ofNat', Nat.shiftRight_zero]

theorem byteAt_shiftRight (val k : Nat) : byteAt (val >>> k) 0 = byteAt val k := by
  rw [byteAt, byteAt, Nat.shiftRight_zero]

/-- As long as the value has 56 bits at most, shifting a byte in loses nothing. -/
theorem toNat_shift_or {val : UInt64} (h : val.toNat < 2 ^ 56) (b : UInt8) :
    ((val <<< 8) ||| b.toUInt64).toNat = (val.toNat <<< 8) ||| b.toNat := by
  have hshift : (val <<< 8).toNat = val.toNat <<< 8 := by
    have hlt : val.toNat <<< 8 < 2 ^ 64 := by
      rw [Nat.shiftLeft_eq]
      omega
    rw [UInt64.toNat_shiftLeft]
    exact Nat.mod_eq_of_lt hlt
  rw [UInt64.toNat_or, hshift, UInt8.toNat_toUInt64]

theorem toNat_foldl (bs : Bytes) {val : UInt64} {k : Nat} (h : val.toNat < 2 ^ k)
    (hk : k + 8 * bs.length ≤ 64) :
    (bs.foldl (fun (val : UInt64) b => (val <<< 8) ||| b.toUInt64) val).toNat =
      bs.foldl (fun val b => (val <<< 8) ||| b.toNat) val.toNat := by
  induction bs generalizing val k with
  | nil => rfl
  | cons b bs ih =>
    rw [List.length_cons] at hk
    have hroom : val.toNat < 2 ^ 56 :=
      Nat.lt_of_lt_of_le h (Nat.pow_le_pow_right (by decide) (by omega))
    have hstep := toNat_shift_or hroom b
    have hnext : ((val <<< 8) ||| b.toUInt64).toNat < 2 ^ (k + 8) := by
      rw [hstep]
      exact foldl_shift_lt [b] h
    rw [List.foldl_cons, List.foldl_cons, ih hnext (by omega), hstep]

/-! Both levels agree -/

theorem exec_readLoop {n : Nat} {buf : Bytes} (val : UInt64) (h : n ≤ buf.length) :
    (readLoop n val).exec buf =
      (.ok ((buf.take n).foldl (fun (val : UInt64) b => (val <<< 8) ||| b.toUInt64) val),
        buf.drop n) := by
  induction n generalizing val buf with
  | zero => rfl
  | succ n ih =>
    cases buf with
    | nil => exact absurd h (Nat.not_succ_le_zero n)
    | cons b buf => exact ih _ (Nat.le_of_succ_le_succ h)

theorem exec_readVarint_cons (first : UInt8) (rest : Bytes) :
    readVarint.exec (first :: rest) =
      if rest.length < 1 <<< (first >>> 6).toNat - 1 then (.error (.err .underflow), rest)
      else (readLoop (1 <<< (first >>> 6).toNat - 1) (first &&& 0x3f).toUInt64).exec rest := by
  rw [readVarint, exec_bind]
  show (if rest.length < 1 <<< (first >>> 6).toNat - 1 then throw DecodeError.underflow
    else readLoop _ _ : BufProc UInt64).exec rest = _
  split
  · rfl
  · rfl

theorem exec_readVarint (buf : Bytes) :
    readVarint.exec buf =
      match Codec.readVarint buf with
      | .ok (val, rest) => (.ok (UInt64.ofNat val), rest)
      | .error e => (.error (.err e), buf.tail) := by
  cases buf with
  | nil => rfl
  | cons first rest =>
    rw [exec_readVarint_cons]
    simp only [Codec.readVarint]
    split
    · rfl
    · rename_i hlong
      have hlen : 1 <<< (first >>> 6).toNat ≤ 8 := by
        rw [Nat.shiftLeft_eq, Nat.one_mul]
        exact Nat.pow_le_pow_right (by decide) (tag_le first)
      have hhead : (first &&& 0x3f).toUInt64.toNat < 2 ^ 6 := by
        rw [UInt8.toNat_toUInt64, UInt8.toNat_and]
        exact Nat.lt_succ_of_le Nat.and_le_right
      have hfold := toNat_foldl (rest.take (1 <<< (first >>> 6).toNat - 1)) hhead
        (by rw [List.length_take]; omega)
      rw [exec_readLoop _ (by omega)]
      rw [UInt8.toNat_toUInt64] at hfold
      simp only [← hfold, UInt64.ofNat_toNat]

theorem exec_putU8 (b : UInt8) (buf : Bytes) : (putU8 b).exec buf = (.ok (), buf ++ [b]) := rfl

theorem exec_putU8_bind (b : UInt8) (x : Unit → BufProc Unit) (buf : Bytes) :
    (putU8 b >>= x).exec buf = (x ()).exec (buf ++ [b]) := rfl

/-- A failed call leaves the buffer as it was. -/
theorem exec_writeVarint (val : UInt64) (buf : Bytes) :
    (writeVarint val).exec buf =
      match Codec.writeVarint val.toNat with
      | .ok bs => (.ok (), buf ++ bs)
      | .error e => (.error (.err e), buf) := by
  rw [writeVarint, varintLen_eq, Codec.writeVarint]
  cases hlen : Codec.varintLen val.toNat with
  | error e => rfl
  | ok len =>
    have hmem := varintLen_mem hlen
    simp only [List.mem_cons, List.not_mem_nil, or_false] at hmem
    have hstart : ∀ f : Nat → BufProc Unit,
        (ofOutcome (Outcome.ofExcept (.ok len)) >>= f).exec buf = (f len).exec buf := fun _ => rfl
    rw [hstart, Outcome.ok_bind]
    obtain rfl | rfl | rfl | rfl := hmem
    · simp [exec_putU8, toUInt8_eq_byteAt]
    · simp [exec_putU8_bind, exec_putU8, toUInt8_eq_byteAt, byteAt_shiftRight]
    · simp [exec_putU8_bind, exec_putU8, toUInt8_eq_byteAt, byteAt_shiftRight]
    · simp [exec_putU8_bind, exec_putU8, toUInt8_eq_byteAt, byteAt_shiftRight]

/-! The first byte -/

/-- How long the encoding is that begins with this byte. -/
def announced (first : UInt8) : Nat :=
  if first < 0x40 then 1 else if first < 0x80 then 2 else if first < 0xc0 then 4 else 8

/-- Nothing is there, or less than the first byte announces. -/
def Truncated (buf : Bytes) : Prop := ∀ first ∈ buf.head?, buf.length < announced first

theorem announced_eq (first : UInt8) : 1 <<< (first >>> 6).toNat = announced first := by
  have hfirst := first.toNat_lt
  have htag : (first >>> 6).toNat = first.toNat / 64 := by
    rw [UInt8.toNat_shiftRight, Nat.shiftRight_eq_div_pow]
    rfl
  simp only [announced, UInt8.lt_iff_toNat_lt, UInt8.toNat_ofNat, Nat.reducePow, Nat.reduceMod]
  rw [htag]
  split
  · rw [show first.toNat / 64 = 0 by omega]
    rfl
  · split
    · rw [show first.toNat / 64 = 1 by omega]
      rfl
    · split
      · rw [show first.toNat / 64 = 2 by omega]
        rfl
      · rw [show first.toNat / 64 = 3 by omega]
        rfl

theorem announced_mem (first : UInt8) : announced first ∈ [1, 2, 4, 8] := by
  unfold announced
  split
  · decide
  · split
    · decide
    · split
      · decide
      · decide

theorem truncated_iff (buf : Bytes) :
    Truncated buf ↔ ∃ e, Codec.readVarint buf = .error e := by
  cases buf with
  | nil => exact iff_of_true (fun first h => absurd h (Option.not_mem_none first)) ⟨_, rfl⟩
  | cons first rest =>
    simp only [Truncated, List.head?_cons, Option.mem_some_iff, forall_eq', List.length_cons,
      Codec.readVarint, announced_eq]
    have hone : 1 ≤ announced first := by
      have hmem := announced_mem first
      simp only [List.mem_cons, List.not_mem_nil, or_false] at hmem
      omega
    split
    · exact iff_of_true (by omega) ⟨_, rfl⟩
    · refine iff_of_false (by omega) ?_
      rintro ⟨e, he⟩
      cases he

/-- A length is only given to a value that half of it cannot hold. -/
theorem le_of_varintLen {val len : Nat} (h : Codec.varintLen val = .ok len) :
    len = 1 ∨ 2 ^ (8 * (len / 2) - 2) ≤ val := by
  unfold Codec.varintLen at h
  split at h
  · exact Or.inl (Except.ok.inj h).symm
  · apply Or.inr
    split at h
    · obtain rfl := Except.ok.inj h
      omega
    · split at h
      · obtain rfl := Except.ok.inj h
        omega
      · split at h
        · obtain rfl := Except.ok.inj h
          omega
        · cases h

theorem varintLen_le {buf rest : Bytes} {val len : Nat} {first : UInt8}
    (h : Codec.readVarint (first :: buf) = .ok (val, rest)) (hlen : Codec.varintLen val = .ok len) :
    len ≤ announced first := by
  obtain ⟨first', tail, heq, -, -, hval⟩ := readVarint_bits h
  obtain ⟨rfl, rfl⟩ := List.cons.inj heq
  rw [announced_eq] at hval
  have hmem := announced_mem first
  have hmem' := varintLen_mem hlen
  simp only [List.mem_cons, List.not_mem_nil, or_false] at hmem hmem'
  by_contra hlt
  obtain hone | hge := le_of_varintLen hlen
  · omega
  · have hpow : 2 ^ (6 + 8 * (announced first - 1)) ≤ 2 ^ (8 * (len / 2) - 2) :=
      Nat.pow_le_pow_right (by decide) (by omega)
    omega

/-! What is read and what is written -/

theorem exec_readVarint_ok_iff {buf rest : Bytes} {v : UInt64} :
    readVarint.exec buf = (.ok v, rest) ↔ Codec.readVarint buf = .ok (v.toNat, rest) := by
  rw [exec_readVarint]
  cases hread : Codec.readVarint buf with
  | error e =>
    refine iff_of_false (fun h => ?_) (fun h => ?_)
    · cases (Prod.mk.inj h).1
    · cases h
  | ok r =>
    obtain ⟨val, tail⟩ := r
    have hlt := readVarint_lt hread
    have hval : (UInt64.ofNat val).toNat = val := by
      rw [UInt64.toNat_ofNat', Nat.mod_eq_of_lt (by omega)]
    constructor
    · intro h
      obtain ⟨hv, rfl⟩ := Prod.mk.inj h
      rw [← Except.ok.inj hv, hval]
    · intro h
      obtain ⟨rfl, rfl⟩ := Prod.mk.inj (Except.ok.inj h)
      simp only [UInt64.ofNat_toNat]

/-- `n` bytes are consumed to read `v`. -/
def Reads (v : UInt64) (n : Nat) : Prop :=
  ∃ buf rest, readVarint.exec buf = (.ok v, rest) ∧ buf.length = rest.length + n

theorem announced_of_exec {first : UInt8} {tail rest : Bytes} {v : UInt64}
    (h : readVarint.exec (first :: tail) = (.ok v, rest)) :
    rest = (first :: tail).drop (announced first) ∧ announced first ≤ tail.length + 1 := by
  obtain ⟨first', tail', heq, hle, hrest, -⟩ := readVarint_bits (exec_readVarint_ok_iff.mp h)
  obtain ⟨rfl, rfl⟩ := List.cons.inj heq
  have hmem := announced_mem first
  simp only [List.mem_cons, List.not_mem_nil, or_false] at hmem
  rw [announced_eq] at hle hrest
  obtain ⟨n, hn⟩ : ∃ n, announced first = n + 1 := ⟨announced first - 1, by omega⟩
  rw [hn] at hle hrest ⊢
  exact ⟨hrest, by omega⟩

theorem writeVarint_least {v : UInt64} {bytes : Bytes}
    (h : Codec.writeVarint v.toNat = .ok bytes) :
    IsLeast {n | n ∈ [1, 2, 4, 8] ∧ Reads v n} bytes.length := by
  have hlen := varintLen_writeVarint h
  constructor
  · refine ⟨varintLen_mem hlen, bytes, [], ?_, by simp⟩
    have hread := readVarint_writeVarint h []
    rw [List.append_nil] at hread
    exact exec_readVarint_ok_iff.mpr hread
  · rintro n ⟨-, buf, rest, hread, hn⟩
    cases buf with
    | nil => cases exec_readVarint_ok_iff.mp hread
    | cons first tail =>
      have hle := varintLen_le (exec_readVarint_ok_iff.mp hread) hlen
      obtain ⟨rfl, hfits⟩ := announced_of_exec hread
      rw [List.length_drop, List.length_cons] at hn
      omega

theorem exec_readVarint_of_not_truncated {buf : Bytes} (h : ¬ Truncated buf) :
    ∃ first tail val, buf = first :: tail ∧ announced first ∈ [1, 2, 4, 8] ∧
      readVarint.exec buf = (.ok val, buf.drop (announced first)) ∧ val.toNat < 2 ^ 62 := by
  have hok : ∃ val rest, readVarint.exec buf = (.ok val, rest) := by
    rw [exec_readVarint]
    cases hread : Codec.readVarint buf with
    | error e => exact absurd ((truncated_iff buf).mpr ⟨e, hread⟩) h
    | ok r => exact ⟨_, _, rfl⟩
  obtain ⟨val, rest, hread⟩ := hok
  cases buf with
  | nil => cases exec_readVarint_ok_iff.mp hread
  | cons first tail =>
    refine ⟨first, tail, val, rfl, announced_mem first, ?_,
      readVarint_lt (exec_readVarint_ok_iff.mp hread)⟩
    rw [hread, (announced_of_exec hread).1]

/-- The encoding of a value of at most 62 bits is the shortest that is read as this value,
nothing is written for any other value, and whatever is read has 62 bits at most. -/
theorem varint_codec (v : UInt64) (buf : Bytes) :
    (v.toNat < 2 ^ 62 → ∃ bytes,
      (writeVarint v).exec buf = (.ok (), buf ++ bytes) ∧
      varintLen v = .ok bytes.length ∧
      IsLeast {n | n ∈ [1, 2, 4, 8] ∧ Reads v n} bytes.length ∧
      ∀ rest, readVarint.exec (bytes ++ rest) = (.ok v, rest)) ∧
    (2 ^ 62 ≤ v.toNat → (writeVarint v).exec buf = (.error (.err .invalidVarInt), buf)) ∧
    (Truncated buf → ∃ e rest, readVarint.exec buf = (.error (.err e), rest)) ∧
    (¬ Truncated buf → ∃ first tail val, buf = first :: tail ∧ announced first ∈ [1, 2, 4, 8] ∧
      readVarint.exec buf = (.ok val, buf.drop (announced first)) ∧ val.toNat < 2 ^ 62) := by
  refine ⟨?_, ?_, ?_, exec_readVarint_of_not_truncated⟩
  · intro hv
    obtain ⟨bytes, hwrite⟩ := writeVarint_ok hv
    refine ⟨bytes, ?_, ?_, writeVarint_least hwrite, ?_⟩
    · rw [exec_writeVarint, hwrite]
    · rw [varintLen_eq, varintLen_writeVarint hwrite]
    · intro rest
      exact exec_readVarint_ok_iff.mpr (readVarint_writeVarint hwrite rest)
  · intro hv
    have hlen : Codec.varintLen v.toNat = .error .invalidVarInt := by
      unfold Codec.varintLen Codec.varintMax
      rw [if_neg (by omega), if_neg (by omega), if_neg (by omega), if_neg (by omega)]
    rw [exec_writeVarint, Codec.writeVarint, hlen, error_bind]
  · intro hshort
    obtain ⟨e, hread⟩ := (truncated_iff buf).mp hshort
    exact ⟨e, buf.tail, by rw [exec_readVarint, hread]⟩

theorem varint_codec_two_bytes :
    ∃ bytes : Bytes, (writeVarint 15293).exec [0xaa] = (.ok (), [0xaa] ++ bytes) ∧
      varintLen 15293 = .ok bytes.length ∧
      IsLeast {n | n ∈ [1, 2, 4, 8] ∧ Reads 15293 n} bytes.length ∧
      ∀ rest, readVarint.exec (bytes ++ rest) = (.ok 15293, rest) :=
  (varint_codec 15293 [0xaa]).1 (by decide)

end Straw.Varint
