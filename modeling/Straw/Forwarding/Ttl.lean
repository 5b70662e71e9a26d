import Straw.Forwarding.Header

/-!
# One hop, in place

`decrement_ttl` works on the buffer it is lent. `InPlace` has it with that buffer as the
state, so that what a failed call leaves behind can be said; `Packet.decrementTtl` is the
packet it leaves when it succeeds.
-/

namespace Straw

open Outcome OnesComplement
set_option autoImplicit false

namespace Packet

namespace InPlace

abbrev BufferM := Proc Bytes ForwardingError

def read (i : Nat) : BufferM UInt8 := fun packet => (index packet i, packet)

def readSlice (i j : Nat) : BufferM Bytes := fun packet => (slice packet i j, packet)

def write (i : Nat) (b : UInt8) : BufferM Unit := fun packet =>
  match update packet i b with
  | .ok written => (.ok (), written)
  | .error fault => (.error fault, packet)

def copyFromSlice (i j : Nat) (bytes : Bytes) : BufferM Unit := fun packet =>
  match overwrite packet i j bytes with
  | .ok written => (.ok (), written)
  | .error fault => (.error fault, packet)

def len : BufferM Nat := fun packet => (.ok packet.length, packet)

def recomputeIpv4Checksum : BufferM Unit := do
  let ihl := ((← read 0) &&& 0x0f).toNat * 4
  write 10 0
  write 11 0
  let checksum := ipv4Checksum (← readSlice 0 ihl)
  copyFromSlice 10 12 (BigEndian.ofNat 2 checksum)

def decrementTtl : BufferM Unit := do
  if (← len) = 0 then Proc.throw .malformedPacket
  else
    let first ← read 0
    if first >>> 4 = 4 then
      if (← len) < 20 then Proc.throw .malformedPacket
      else
        let ttl ← read 8
        if ttl ≤ 1 then Proc.throw .ttlExpired
        else do
          write 8 (ttl - 1)
          recomputeIpv4Checksum
    else if first >>> 4 = 6 then
      if (← len) < 40 then Proc.throw .malformedPacket
      else
        let hopLimit ← read 7
        if hopLimit ≤ 1 then Proc.throw .ttlExpired
        else write 7 (hopLimit - 1)
    else Proc.throw .malformedPacket

section Accesses

variable {packet : Bytes} {i j : Nat} {α : Type}

theorem exec_len_bind (f : Nat → BufferM α) :
    (len >>= f).exec packet = (f packet.length).exec packet := rfl

theorem exec_read_bind (h : i < packet.length) (f : UInt8 → BufferM α) :
    (read i >>= f).exec packet = (f (packet.getD i 0)).exec packet := by
  rw [Proc.exec_bind, Proc.exec, read, index_of_lt h 0]

theorem exec_write (h : i < packet.length) (b : UInt8) :
    (write i b).exec packet = (.ok (), splice packet i [b]) := by
  rw [Proc.exec, write, update_of_lt h]

theorem exec_write_bind (h : i < packet.length) (b : UInt8) (f : Unit → BufferM α) :
    (write i b >>= f).exec packet = (f ()).exec (splice packet i [b]) := by
  rw [Proc.exec_bind, exec_write h]

theorem exec_readSlice_bind (n : Nat) (hn : i + n = j) (hj : j ≤ packet.length)
    (f : Bytes → BufferM α) :
    (readSlice i j >>= f).exec packet = (f (field packet i n)).exec packet := by
  rw [Proc.exec_bind, Proc.exec, readSlice, slice_of_le n hn hj]

theorem exec_readSlice_bind_of_lt (hj : packet.length < j) (f : Bytes → BufferM α) :
    (readSlice i j >>= f).exec packet = (.error .panic, packet) := by
  rw [Proc.exec_bind, Proc.exec, readSlice, slice, if_neg (by omega)]

theorem exec_copyFromSlice {bytes : Bytes} (h : i + bytes.length ≤ packet.length)
    (hj : j = i + bytes.length) :
    (copyFromSlice i j bytes).exec packet = (.ok (), splice packet i bytes) := by
  rw [Proc.exec, copyFromSlice, overwrite_of_le h hj]

end Accesses

end InPlace

/-- The length of an IPv4 header as the first byte states it. -/
def statedIhl (packet : Bytes) : Nat := (packet.getD 0 0 &&& 0x0f).toNat * 4

/-- The checksum of the first `ihl` bytes, taken with zeros in its own place. -/
def headerChecksum (packet : Bytes) : Bytes :=
  BigEndian.ofNat 2 (ipv4Checksum ((splice packet 10 [0, 0]).take (statedIhl packet)))

theorem length_headerChecksum (packet : Bytes) : (headerChecksum packet).length = 2 :=
  BigEndian.ofNat_length 2 _

theorem ofNat_two (n : Nat) : BigEndian.ofNat 2 n = [UInt8.ofNat (n >>> 8), UInt8.ofNat n] := by
  rw [Nat.shiftRight_eq_div_pow]
  rfl

theorem recomputeIpv4Checksum_eq {packet : Bytes} (h : 20 ≤ packet.length) :
    recomputeIpv4Checksum packet =
      if statedIhl packet ≤ packet.length then .ok (splice packet 10 (headerChecksum packet))
      else .error .panic := by
  have htwo : 10 + ([0, 0] : Bytes).length ≤ packet.length := by
    simp only [List.length_cons, List.length_nil]
    omega
  have hlen : (splice packet 10 [0, 0]).length = packet.length := length_splice htwo
  rw [recomputeIpv4Checksum, index_of_lt (by omega) 0, ok_bind, update_update_bind (by omega) rfl]
  change (slice (splice packet 10 [0, 0]) 0 (statedIhl packet) >>= _) = _
  split
  · rename_i hihl
    rw [slice_of_le (statedIhl packet) (Nat.zero_add _) (by omega), ok_bind,
      update_update (by omega) rfl, ← ofNat_two, splice_splice htwo (by simp), field_zero,
      headerChecksum]
  · rename_i hihl
    rw [slice, if_neg (by omega), error_bind]

namespace InPlace

theorem exec_recomputeIpv4Checksum {packet : Bytes} (h : 20 ≤ packet.length) :
    recomputeIpv4Checksum.exec packet =
      if statedIhl packet ≤ packet.length then
        (.ok (), splice packet 10 (headerChecksum packet))
      else (.error .panic, splice packet 10 [0, 0]) := by
  have htwo : 10 + ([0, 0] : Bytes).length ≤ packet.length := by
    simp only [List.length_cons, List.length_nil]
    omega
  have hone : (splice packet 10 [0]).length = packet.length :=
    length_splice (by rw [List.length_singleton]; omega)
  have hpair : splice (splice packet 10 [0]) 11 [0] = splice packet 10 [0, 0] :=
    splice_adjacent htwo
  have hlen : (splice packet 10 [0, 0]).length = packet.length := length_splice htwo
  rw [recomputeIpv4Checksum, exec_read_bind (by omega), exec_write_bind (by omega),
    exec_write_bind (by omega), hpair]
  change ((readSlice 0 (statedIhl packet) >>= _).exec _) = _
  split
  · rename_i hihl
    rw [exec_readSlice_bind (statedIhl packet) (Nat.zero_add _) (by omega),
      exec_copyFromSlice (by simp; omega) (by simp), splice_splice htwo (by simp), field_zero,
      headerChecksum]
  · rename_i hihl
    exact exec_readSlice_bind_of_lt (by omega) _

/-- A call ends as `o` says: with the packet of `o` in the buffer when it succeeds, with the
buffer as it was when it returns an error. -/
def EndsAs (packet : Bytes) (result : Outcome ForwardingError Unit × Bytes) :
    Outcome ForwardingError Bytes → Prop
  | .ok out => result = (.ok (), out)
  | .error (.err e) => result = (fail e, packet)
  | .error .panic => result.1 = .error .panic

theorem exec_decrementTtl (packet : Bytes) :
    EndsAs packet (decrementTtl.exec packet) (Packet.decrementTtl packet) := by
  cases packet with
  | nil => rfl
  | cons first rest =>
    have hpos : 0 < (first :: rest).length := List.length_pos_of_ne_nil (by simp)
    have hfirst : (first :: rest).getD 0 0 = first := rfl
    rw [decrementTtl, exec_len_bind, if_neg (by omega), exec_read_bind hpos, hfirst,
      Packet.decrementTtl]
    split
    · rw [exec_len_bind]
      split
      · rfl
      · rename_i hlen
        have hone : 8 + [(first :: rest).getD 8 0 - 1].length ≤ (first :: rest).length := by
          rw [List.length_singleton]
          omega
        rw [exec_read_bind (by omega), index_of_lt (by omega) 0, ok_bind]
        split
        · rfl
        · rw [exec_write_bind (by omega), update_of_lt (by omega), ok_bind,
            exec_recomputeIpv4Checksum (by rw [length_splice hone]; omega),
            recomputeIpv4Checksum_eq (by rw [length_splice hone]; omega)]
          split <;> rfl
    · split
      · rw [exec_len_bind]
        split
        · rfl
        · rw [exec_read_bind (by omega), index_of_lt (by omega) 0, ok_bind]
          split
          · rfl
          · rw [exec_write (by omega), update_of_lt (by omega)]
            rfl
      · rfl

end InPlace

def ttlOffset (packet : Bytes) : Nat := if version packet = 4 then 8 else 7

def ttl (packet : Bytes) : UInt8 := packet.getD (ttlOffset packet) 0

def aged (packet : Bytes) : Bytes := splice packet (ttlOffset packet) [ttl packet - 1]

def afterHop (packet : Bytes) : Bytes :=
  if version packet = 4 then splice (aged packet) 10 (headerChecksum (aged packet))
  else aged packet

theorem ttlOffset_lt {packet : Bytes} (h : WellFormed packet) :
    ttlOffset packet + 1 ≤ packet.length ∧ (version packet = 4 → 20 ≤ packet.length) := by
  have hlen := Nat.le_trans h.header h.complete
  rw [ttlOffset]
  split
  · rename_i h4
    rw [fixedHeaderLen_v4 h4] at hlen
    exact ⟨by omega, fun _ => hlen⟩
  · rename_i h4
    rw [fixedHeaderLen_v6 h4] at hlen
    exact ⟨by omega, fun h => absurd h h4⟩

theorem getD_aged_zero {packet : Bytes} (h : WellFormed packet) :
    (aged packet).getD 0 0 = packet.getD 0 0 := by
  apply getD_congr
  apply getElem?_splice_of_disjoint (ttlOffset_lt h).1
  rw [ttlOffset]
  split <;> omega

theorem length_aged {packet : Bytes} (h : WellFormed packet) :
    (aged packet).length = packet.length := length_splice (ttlOffset_lt h).1

theorem decrementTtl_of_wellFormed {packet : Bytes} (h : WellFormed packet) :
    decrementTtl packet =
      if ttl packet ≤ 1 then fail .ttlExpired else .ok (afterHop packet) := by
  have haged := length_aged h
  have hzero := getD_aged_zero h
  have hlen := Nat.le_trans h.header h.complete
  have hcomplete := h.complete
  cases packet with
  | nil => exact absurd hlen (by decide)
  | cons first rest =>
    rw [decrementTtl]
    rcases h.version with h4 | h6
    · have hnib : first >>> 4 = 4 := h4
      rw [fixedHeaderLen_v4 h4] at hlen
      rw [ipHeaderLen, if_pos h4] at hcomplete
      rw [if_pos hnib, if_neg (by omega), index_of_lt (by omega) 0, ok_bind, ttl, afterHop,
        if_pos h4, ttlOffset, if_pos h4]
      split
      · rfl
      · have hihl : statedIhl (aged (first :: rest)) ≤ (aged (first :: rest)).length := by
          rw [statedIhl, hzero, haged]
          exact hcomplete
        have hwrite : aged (first :: rest) =
            splice (first :: rest) 8 [(first :: rest).getD 8 0 - 1] := by
          rw [aged, ttl, ttlOffset, if_pos h4]
        rw [update_of_lt (by omega), ok_bind, ← hwrite, recomputeIpv4Checksum_eq (by omega),
          if_pos hihl]
    · have hne : version (first :: rest) ≠ 4 := by
        rw [h6]
        decide
      have hnib : first >>> 4 = 6 := h6
      have hnot : first >>> 4 ≠ 4 := hne
      rw [fixedHeaderLen_v6 hne] at hlen
      rw [if_neg hnot, if_pos hnib, if_neg (by omega), index_of_lt (by omega) 0, ok_bind, ttl,
        afterHop, if_neg hne, aged, ttl, ttlOffset, if_neg hne]
      split
      · rfl
      · rw [update_of_lt (by omega)]

/-- One hop further on: the hop count is one less, and only it and the IPv4 header checksum
have changed. -/
structure HopOf (packet out : Bytes) : Prop where
  length : out.length = packet.length
  ttl : (out.getD (ttlOffset packet) 0).toNat + 1 = (ttl packet).toNat
  unchanged : ∀ j, j ≠ ttlOffset packet → ¬ (version packet = 4 ∧ (j = 10 ∨ j = 11)) →
    out[j]? = packet[j]?

theorem getElem?_afterHop {packet : Bytes} (h : WellFormed packet) {j : Nat}
    (hj : ¬ (version packet = 4 ∧ (j = 10 ∨ j = 11))) :
    (afterHop packet)[j]? = (aged packet)[j]? := by
  rw [afterHop]
  split
  · rename_i h4
    have hlen := (ttlOffset_lt h).2 h4
    have htwo := length_headerChecksum (aged packet)
    have haged := length_aged h
    simp only [h4, true_and] at hj
    exact getElem?_splice_of_disjoint (by omega) (by omega)
  · rfl

theorem length_afterHop {packet : Bytes} (h : WellFormed packet) :
    (afterHop packet).length = packet.length := by
  rw [afterHop]
  split
  · rename_i h4
    have hlen := (ttlOffset_lt h).2 h4
    have htwo := length_headerChecksum (aged packet)
    have haged := length_aged h
    rw [length_splice (by omega), haged]
  · exact length_aged h

theorem hopOf_afterHop {packet : Bytes} (h : WellFormed packet) (httl : 1 < ttl packet) :
    HopOf packet (afterHop packet) := by
  have hoff := (ttlOffset_lt h).1
  refine ⟨length_afterHop h, ?_, ?_⟩
  · have hread : (aged packet)[ttlOffset packet]? = some (ttl packet - 1) := by
      rw [aged, getElem?_splice hoff, List.length_singleton, if_pos (by omega), Nat.sub_self]
      rfl
    have hcase : ¬ (version packet = 4 ∧ (ttlOffset packet = 10 ∨ ttlOffset packet = 11)) := by
      rw [ttlOffset]
      split <;> omega
    rw [List.getD_eq_getElem?_getD, getElem?_afterHop h hcase, hread]
    have hone : (1 : UInt8) ≤ ttl packet := UInt8.le_of_lt httl
    have hpos : 1 < (ttl packet).toNat := httl
    rw [Option.getD_some, UInt8.toNat_sub_of_le _ _ hone]
    change (ttl packet).toNat - 1 + 1 = _
    omega
  · intro j hj hsum
    rw [getElem?_afterHop h hsum, aged]
    apply getElem?_splice_of_disjoint hoff
    rw [List.length_singleton]
    omega

theorem ipv6Walk_congr {a b : Bytes} (hlen : a.length = b.length)
    (h : ∀ j, 40 ≤ j → a[j]? = b[j]?) (headers : Nat) (next : UInt8) {offset : Nat}
    (hoffset : 40 ≤ offset) : ipv6Walk a headers next offset = ipv6Walk b headers next offset := by
  induction headers generalizing next offset with
  | zero => rfl
  | succ headers ih =>
    have hindex : ∀ j, 40 ≤ j → (index a j : Outcome ForwardingError UInt8) = index b j := by
      intro j hj
      rw [index, index, h j hj]
    have hwalk : ∀ next len,
        ipv6Walk a headers next (offset + len) = ipv6Walk b headers next (offset + len) := by
      intro next len
      exact ih next (by omega)
    simp only [ipv6Walk, hlen, hindex offset hoffset, hindex (offset + 1) (by omega),
      hindex (offset + 2) (by omega), hindex (offset + 3) (by omega), hwalk]

namespace HopOf

variable {packet out : Bytes}

theorem field_eq (h : HopOf packet out) {i n : Nat}
    (hout : ∀ j, i ≤ j → j < i + n → j ≠ ttlOffset packet ∧
      ¬ (version packet = 4 ∧ (j = 10 ∨ j = 11))) : field out i n = field packet i n := by
  apply field_congr
  intro j hij hj
  exact h.unchanged j (hout j hij hj).1 (hout j hij hj).2

theorem first (h : HopOf packet out) : out.getD 0 0 = packet.getD 0 0 := by
  apply getD_congr
  apply h.unchanged
  · rw [ttlOffset]
    split <;> omega
  · omega

theorem version_eq (h : HopOf packet out) : version out = version packet := by
  rw [version, version, h.first]

/-- The parser reads nothing that a hop changes. -/
theorem parsePacket_eq (h : HopOf packet out)
    (hversion : version packet = 4 ∨ version packet = 6) :
    parsePacket out = parsePacket packet := by
  rcases hversion with h4 | h6
  · have hoff : ttlOffset packet = 8 := if_pos h4
    have hfield : ∀ i n, i + n ≤ 8 ∨ 12 ≤ i → field out i n = field packet i n := by
      intro i n hin
      apply h.field_eq
      intro j hij hj
      omega
    have hproto : out.getD 9 0 = packet.getD 9 0 :=
      getD_congr (h.unchanged 9 (by omega) (by omega)) 0
    have hout : version out = 4 := h.version_eq.trans h4
    rw [parsePacket_v4 hout, parsePacket_v4 h4, ipHeaderLen, ipHeaderLen, statedLen, statedLen,
      source, source, destination, destination, nextProtocol, nextProtocol, if_pos hout,
      if_pos h4, if_pos hout, if_pos h4, if_pos hout, if_pos h4, if_pos hout, if_pos h4,
      if_pos hout, if_pos h4, h.first, h.length, hfield 2 2 (by omega), hfield 12 4 (by omega),
      hfield 16 4 (by omega), hproto]
  · have hne : version packet ≠ 4 := by
      rw [h6]
      decide
    have hoff : ttlOffset packet = 7 := if_neg hne
    have hfield : ∀ i n, i + n ≤ 7 ∨ 8 ≤ i → field out i n = field packet i n := by
      intro i n hin
      apply h.field_eq
      intro j hij hj
      exact ⟨by omega, fun hv => hne hv.1⟩
    have hout : version out = 6 := h.version_eq.trans h6
    have houtne : version out ≠ 4 := by
      rw [hout]
      decide
    have hwalk : ipv6FinalProtocol out = ipv6FinalProtocol packet := by
      have hnext : (index out 6 : Outcome ForwardingError UInt8) = index packet 6 := by
        rw [index, index, h.unchanged 6 (by omega) (fun hv => hne hv.1)]
      rw [ipv6FinalProtocol, ipv6FinalProtocol, hnext]
      congr 1
      funext next
      apply ipv6Walk_congr h.length _ 8 next (Nat.le_refl 40)
      intro j hj
      exact h.unchanged j (by omega) fun hv => hne hv.1
    rw [parsePacket_v6 hout, parsePacket_v6 h6, statedLen, statedLen, source, source, destination,
      destination, if_neg houtne, if_neg hne, if_neg houtne, if_neg hne, if_neg houtne, if_neg hne,
      h.length, hfield 4 2 (by omega), hfield 8 16 (by omega), hfield 24 16 (by omega), hwalk]

end HopOf

/-- Options count too, and what stood in the checksum field does not. -/
theorem headerVerifies_afterHop {packet : Bytes} (h : WellFormed packet)
    (h4 : version packet = 4) : ipv4Checksum ((afterHop packet).take (ipHeaderLen packet)) = 0 := by
  have hheader := h.header
  have hcomplete := h.complete
  have haged := length_aged h
  rw [fixedHeaderLen_v4 h4] at hheader
  have hihl : statedIhl (aged packet) = ipHeaderLen packet := by
    rw [statedIhl, getD_aged_zero h, ipHeaderLen, if_pos h4]
  have hmax := h.length_lt.1
  have htake : ((aged packet).take (ipHeaderLen packet)).length = ipHeaderLen packet := by
    rw [List.length_take]
    omega
  have htwo : 10 + ([0, 0] : Bytes).length ≤ (aged packet).length := by
    simp only [List.length_cons, List.length_nil]
    omega
  have hzlen : (splice (aged packet) 10 [0, 0]).length = (aged packet).length := length_splice htwo
  have hrule := fold_complement_written (i := 10) rfl (show 10 + 2 ≤
    ((aged packet).take (ipHeaderLen packet)).length by omega) 0
  rw [Nat.zero_add, Nat.zero_add] at hrule
  rw [ipv4Checksum_eq_zero (by rw [List.length_take]; omega), afterHop, if_pos h4, headerChecksum,
    hihl, ipv4Checksum_eq (by rw [List.length_take]; omega),
    take_splice (by simp; omega) (by simp; omega), take_splice htwo (by simp; omega)]
  exact hrule

/-- A packet that the parser takes goes one hop or has no hop left, and then it is not
touched. -/
theorem decrementTtl_accepted {packet : Bytes} {info : PacketInfo}
    (h : parsePacket packet = .ok info) :
    (1 < ttl packet → ∃ out, InPlace.decrementTtl.exec packet = (.ok (), out) ∧
      HopOf packet out ∧ parsePacket out = .ok info ∧
      (version packet = 4 → ipv4Checksum (out.take (ipHeaderLen packet)) = 0)) ∧
    (ttl packet ≤ 1 → InPlace.decrementTtl.exec packet = (fail .ttlExpired, packet)) := by
  have hwf := wellFormed_of_parsePacket h
  have hends := InPlace.exec_decrementTtl packet
  rw [decrementTtl_of_wellFormed hwf] at hends
  constructor
  · intro httl
    rw [if_neg (UInt8.not_le.mpr httl)] at hends
    have hhop := hopOf_afterHop hwf httl
    exact ⟨afterHop packet, hends, hhop, (hhop.parsePacket_eq hwf.version).trans h,
      headerVerifies_afterHop hwf⟩
  · intro httl
    rw [if_pos httl] at hends
    exact hends

/-- A header with options and a checksum that was wrong before. -/
def optionsPacket : Bytes :=
  [0x46, 0, 0, 24, 0, 0, 0, 0, 64, 17, 0xab, 0xcd, 10, 0, 0, 1, 192, 0, 2, 1, 1, 1, 1, 0]

theorem decrementTtl_accepted_options :
    parsePacket optionsPacket = .ok ⟨4, .v4 0x0a000001#32, .v4 0xc0000201#32, 17⟩ ∧
      ∃ out, InPlace.decrementTtl.exec optionsPacket = (.ok (), out) ∧
        HopOf optionsPacket out ∧
        parsePacket out = .ok ⟨4, .v4 0x0a000001#32, .v4 0xc0000201#32, 17⟩ ∧
        ipv4Checksum (out.take 24) = 0 := by
  have hparse : parsePacket optionsPacket =
      .ok ⟨4, .v4 0x0a000001#32, .v4 0xc0000201#32, 17⟩ := by decide +kernel
  obtain ⟨out, hexec, hhop, hout, hsum⟩ := (decrementTtl_accepted hparse).1 (by decide)
  exact ⟨hparse, out, hexec, hhop, hout, hsum (by decide)⟩

end Packet

end Straw
