import Straw.Forwarding.Packet
import Straw.Lib.Checksum

/-!
# What an IP header says

The fields of a packet by their offsets, whatever the bytes are; `parsePacket` is a
check of the lengths followed by a read of these fields. With them the two checks a
receiver makes: the IPv4 header checksum and the transport checksum over the
pseudo-header.
-/

namespace Straw

open Outcome OnesComplement
set_option autoImplicit false

namespace Packet

def version (packet : Bytes) : UInt8 := packet.getD 0 0 >>> 4

/-- Without options (IPv4) or extension headers (IPv6). -/
def fixedHeaderLen (packet : Bytes) : Nat := if version packet = 4 then 20 else 40

def ipHeaderLen (packet : Bytes) : Nat :=
  if version packet = 4 then (packet.getD 0 0 &&& 0x0f).toNat * 4 else 40

def statedLen (packet : Bytes) : Nat :=
  if version packet = 4 then BigEndian.toNat (field packet 2 2)
  else 40 + BigEndian.toNat (field packet 4 2)

def nextProtocol (packet : Bytes) : UInt8 :=
  if version packet = 4 then packet.getD 9 0 else packet.getD 6 0

def addressBytes (packet : Bytes) : Bytes :=
  if version packet = 4 then field packet 12 8 else field packet 8 32

def source (packet : Bytes) : IpAddr :=
  if version packet = 4 then .v4 (Ipv4Addr.ofOctets (field packet 12 4))
  else .v6 (Ipv6Addr.ofOctets (field packet 8 16))

def destination (packet : Bytes) : IpAddr :=
  if version packet = 4 then .v4 (Ipv4Addr.ofOctets (field packet 16 4))
  else .v6 (Ipv6Addr.ofOctets (field packet 24 16))

theorem fixedHeaderLen_v4 {packet : Bytes} (h : version packet = 4) :
    fixedHeaderLen packet = 20 := if_pos h

theorem fixedHeaderLen_v6 {packet : Bytes} (h : version packet ≠ 4) :
    fixedHeaderLen packet = 40 := if_neg h

theorem fixedHeaderLen_pos (packet : Bytes) : 0 < fixedHeaderLen packet := by
  unfold fixedHeaderLen
  split <;> omega

structure WellFormed (packet : Bytes) : Prop where
  version : version packet = 4 ∨ version packet = 6
  header : fixedHeaderLen packet ≤ ipHeaderLen packet
  complete : ipHeaderLen packet ≤ packet.length
  stated : statedLen packet = packet.length

theorem be16_eq_toNat_field {packet : Bytes} {i : Nat} (h : i + 2 ≤ packet.length) :
    be16 (packet.getD i 0) (packet.getD (i + 1) 0) = BigEndian.toNat (field packet i 2) := by
  have hfield : field packet i 2 = [packet.getD i 0, packet.getD (i + 1) 0] := by
    rw [field, List.drop_eq_getElem_cons (by omega), List.drop_eq_getElem_cons (by omega),
      List.getD_eq_getElem?_getD, List.getD_eq_getElem?_getD,
      List.getElem?_eq_getElem (by omega), List.getElem?_eq_getElem (by omega)]
    rfl
  rw [hfield]
  simp [be16, BigEndian.toNat]

theorem parsePacket_v4 {packet : Bytes} (hv : version packet = 4) :
    parsePacket packet =
      if 20 ≤ ipHeaderLen packet ∧ ipHeaderLen packet ≤ packet.length ∧
        statedLen packet = packet.length then
        .ok ⟨4, source packet, destination packet, nextProtocol packet⟩
      else fail .malformedPacket := by
  cases packet with
  | nil => cases hv
  | cons first rest =>
    have hfirst : first >>> 4 = 4 := hv
    have hihl : ipHeaderLen (first :: rest) = (first &&& 0x0f).toNat * 4 := if_pos hv
    rw [parsePacket, if_pos hfirst, parsePacketV4, hihl]
    by_cases hlen : (first :: rest).length < 20
    · rw [if_pos hlen, if_neg (by omega)]
    · rw [if_neg hlen, index_of_lt (by omega) 0, index_of_lt (by omega) 0,
        index_of_lt (by omega) 0, slice_of_le 4 rfl (by omega), slice_of_le 4 rfl (by omega)]
      have hstated : statedLen (first :: rest) =
          be16 ((first :: rest).getD 2 0) ((first :: rest).getD 3 0) := by
        rw [be16_eq_toNat_field (by omega), statedLen, if_pos hv]
      rw [source, if_pos hv, destination, if_pos hv, nextProtocol, if_pos hv]
      simp only [bind, Except.bind, hstated]
      by_cases hok : 20 ≤ (first &&& 0x0f).toNat * 4 ∧
          (first &&& 0x0f).toNat * 4 ≤ (first :: rest).length ∧
          be16 ((first :: rest).getD 2 0) ((first :: rest).getD 3 0) = (first :: rest).length
      · rw [if_pos hok, if_neg (by omega)]
      · rw [if_neg hok, if_pos (by omega)]

theorem parsePacket_v6 {packet : Bytes} (hv : version packet = 6) :
    parsePacket packet =
      if 40 ≤ packet.length ∧ statedLen packet = packet.length then do
        let protocol ← ipv6FinalProtocol packet
        .ok ⟨6, source packet, destination packet, protocol⟩
      else fail .malformedPacket := by
  cases packet with
  | nil => cases hv
  | cons first rest =>
    have hfirst : first >>> 4 = 6 := hv
    have hne : first >>> 4 ≠ 4 := by
      rw [hfirst]
      decide
    have hnot : version (first :: rest) ≠ 4 := hne
    rw [parsePacket, if_neg hne, if_pos hfirst, parsePacketV6]
    by_cases hlen : (first :: rest).length < 40
    · rw [if_pos hlen, if_neg (by omega)]
    · rw [if_neg hlen, index_of_lt (by omega) 0, index_of_lt (by omega) 0,
        slice_of_le 16 rfl (by omega), slice_of_le 16 rfl (by omega)]
      have hstated : statedLen (first :: rest) =
          40 + be16 ((first :: rest).getD 4 0) ((first :: rest).getD 5 0) := by
        rw [be16_eq_toNat_field (by omega), statedLen, if_neg hnot]
      rw [source, if_neg hnot, destination, if_neg hnot]
      simp only [bind, Except.bind, hstated]
      by_cases hok : 40 + be16 ((first :: rest).getD 4 0) ((first :: rest).getD 5 0) =
          (first :: rest).length
      · rw [if_neg (by omega), if_pos ⟨by omega, hok⟩]
      · rw [if_pos (by omega), if_neg (by omega)]

theorem wellFormed_of_parsePacket {packet : Bytes} {info : PacketInfo}
    (h : parsePacket packet = .ok info) : WellFormed packet := by
  by_cases h4 : version packet = 4
  · rw [parsePacket_v4 h4] at h
    split at h
    · rename_i hok
      refine ⟨Or.inl h4, ?_, hok.2.1, hok.2.2⟩
      rw [fixedHeaderLen_v4 h4]
      exact hok.1
    · cases h
  · by_cases h6 : version packet = 6
    · rw [parsePacket_v6 h6] at h
      split at h
      · rename_i hok
        refine ⟨Or.inr h6, ?_, ?_, hok.2⟩
        · exact Nat.le_of_eq ((fixedHeaderLen_v6 h4).trans (if_neg h4).symm)
        · rw [ipHeaderLen, if_neg h4]
          exact hok.1
      · cases h
    · cases packet with
      | nil => cases h
      | cons first rest =>
        have hfour : ¬ first >>> 4 = 4 := h4
        have hsix : ¬ first >>> 4 = 6 := h6
        rw [parsePacket, if_neg hfour, if_neg hsix] at h
        cases h

theorem toNat_field_lt {packet : Bytes} {i : Nat} (h : i + 2 ≤ packet.length) :
    BigEndian.toNat (field packet i 2) < 2 ^ 16 := by
  have hlt := BigEndian.toNat_lt (field packet i 2)
  rw [length_field h] at hlt
  exact hlt

/-- Both length fields have sixteen bits; only the IPv6 one leaves the header out. -/
theorem WellFormed.length_lt {packet : Bytes} (h : WellFormed packet) :
    packet.length < 40 + 2 ^ 16 ∧ packet.length - ipHeaderLen packet ≤ 0xffff := by
  have hheader := h.header
  have hcomplete := h.complete
  have hstated := h.stated
  rw [statedLen] at hstated
  split at hstated
  · rename_i h4
    rw [fixedHeaderLen_v4 h4] at hheader
    have hlt := toNat_field_lt (show 2 + 2 ≤ packet.length by omega)
    omega
  · rename_i h4
    rw [ipHeaderLen, if_neg h4] at hcomplete ⊢
    have hlt := toNat_field_lt (show 4 + 2 ≤ packet.length by omega)
    omega

/-- TCP and UDP are not among the headers the walk steps over. -/
theorem ipv6FinalProtocol_of_transport {packet : Bytes} (hlen : 40 ≤ packet.length)
    (hnext : packet.getD 6 0 = 6 ∨ packet.getD 6 0 = 17) :
    ipv6FinalProtocol packet = .ok (packet.getD 6 0) := by
  rw [ipv6FinalProtocol, index_of_lt (by omega) 0]
  rcases hnext with h | h <;> rw [h] <;> rfl

theorem parsePacket_of_wellFormed {packet : Bytes} (h : WellFormed packet)
    (hnext : nextProtocol packet = 6 ∨ nextProtocol packet = 17) :
    parsePacket packet = .ok ⟨(version packet).toNat, source packet, destination packet,
      nextProtocol packet⟩ := by
  have hheader := h.header
  have hcomplete := h.complete
  rcases h.version with h4 | h6
  · rw [fixedHeaderLen, if_pos h4] at hheader
    rw [parsePacket_v4 h4, if_pos ⟨hheader, hcomplete, h.stated⟩, h4]
    rfl
  · have hne : version packet ≠ 4 := by
      rw [h6]
      decide
    rw [ipHeaderLen, if_neg hne] at hcomplete
    rw [nextProtocol, if_neg hne] at hnext ⊢
    rw [parsePacket_v6 h6, if_pos ⟨hcomplete, h.stated⟩,
      ipv6FinalProtocol_of_transport hcomplete hnext, h6]
    rfl

theorem foldCarries_eq (n : Nat) : foldCarries n = fold n := by
  induction n using foldCarries.induct with
  | case1 n hcarry ih =>
    have hlow : n &&& 0xffff = n % 2 ^ 16 := Nat.and_two_pow_sub_one_eq_mod n 16
    rw [foldCarries, if_pos hcarry, ih, hlow, Nat.shiftRight_eq_div_pow]
    exact fold_carry hcarry
  | case2 n hdone =>
    rw [foldCarries, if_neg hdone]
    exact (fold_of_le (by omega)).symm

theorem sumWords_of_lt {data : Bytes} {sum : Nat} (h : sum + wordSum data < 2 ^ 32) :
    sumWords data sum = sum + wordSum data := by
  induction data using wordSum.induct generalizing sum with
  | case1 hi lo rest ih =>
    have hstep : sum + be16 hi lo + wordSum rest = sum + wordSum (hi :: lo :: rest) := by
      simp only [wordSum, be16]
      omega
    rw [sumWords, Nat.mod_eq_of_lt (by omega), ih (by omega), hstep]
  | case2 last =>
    have hlast : be16 last 0 = wordSum [last] := by simp [be16, wordSum]
    rw [sumWords, hlast, Nat.mod_eq_of_lt h]
  | case3 => rfl

/-- The `u32` sum does not wrap on anything an IP packet can hold with its pseudo-header. -/
theorem ipv4Checksum_eq {data : Bytes} (h : data.length ≤ 131070) :
    ipv4Checksum data = 0xffff - fold (wordSum data) := by
  have hsum := wordSum_le data
  rw [ipv4Checksum, foldCarries_eq, sumWords_of_lt (by omega), Nat.zero_add]

theorem ipv4Checksum_eq_zero {data : Bytes} (h : data.length ≤ 131070) :
    ipv4Checksum data = 0 ↔ fold (wordSum data) = 0xffff := by
  have hle := fold_le (wordSum data)
  rw [ipv4Checksum_eq h]
  omega

theorem ipv4Checksum_written {data : Bytes} {i : Nat} (h : data.length ≤ 131070) (hi : i % 2 = 0)
    (hfit : i + 2 ≤ data.length) (hzero : field data i 2 = [0, 0]) :
    ipv4Checksum (splice data i (BigEndian.ofNat 2 (ipv4Checksum data))) = 0 := by
  have hlen : (splice data i (BigEndian.ofNat 2 (ipv4Checksum data))).length = data.length :=
    length_splice (by rw [BigEndian.ofNat_length]; exact hfit)
  have hrule := fold_complement_zeroed hi hfit hzero 0
  rw [Nat.zero_add, Nat.zero_add] at hrule
  rw [ipv4Checksum_eq_zero (by rw [hlen]; exact h), ipv4Checksum_eq h]
  exact hrule

/-- The same header up to its lengths, the IPv4 identification and the IPv4 checksum. -/
def SameAddressing (a b : Bytes) : Prop :=
  ∀ j, j < fixedHeaderLen b → ¬ (2 ≤ j ∧ j < 6) →
    ¬ (version b = 4 ∧ 10 ≤ j ∧ j < 12) → a[j]? = b[j]?

namespace SameAddressing

variable {a b : Bytes}

theorem first (h : SameAddressing a b) : a.getD 0 0 = b.getD 0 0 := by
  exact getD_congr (h 0 (fixedHeaderLen_pos b) (by omega) (by omega)) 0

theorem version_eq (h : SameAddressing a b) : version a = version b := by
  rw [version, version, h.first]

theorem fixedHeaderLen_eq (h : SameAddressing a b) : fixedHeaderLen a = fixedHeaderLen b := by
  rw [fixedHeaderLen, fixedHeaderLen, h.version_eq]

theorem ipHeaderLen_eq (h : SameAddressing a b) : ipHeaderLen a = ipHeaderLen b := by
  rw [ipHeaderLen, ipHeaderLen, h.version_eq, h.first]

/-- A field of the fixed header that begins after the checksum is kept, and so is one
of an IPv6 header that begins after the payload length. -/
theorem field_eq (h : SameAddressing a b) {i n : Nat} (hin : i + n ≤ fixedHeaderLen b)
    (hi : 12 ≤ i ∨ version b ≠ 4 ∧ 6 ≤ i) : field a i n = field b i n := by
  apply field_congr
  intro j hij hj
  apply h j (by omega) (by omega)
  rintro ⟨h4, -, hj12⟩
  rcases hi with hi | ⟨hne, -⟩
  · omega
  · exact hne h4

theorem addressBytes_eq (h : SameAddressing a b) : addressBytes a = addressBytes b := by
  rw [addressBytes, addressBytes, h.version_eq]
  split
  · rename_i h4
    exact h.field_eq (Nat.le_of_eq (fixedHeaderLen_v4 h4).symm) (Or.inl (by omega))
  · rename_i h4
    exact h.field_eq (Nat.le_of_eq (fixedHeaderLen_v6 h4).symm) (Or.inr ⟨h4, by omega⟩)

theorem source_eq (h : SameAddressing a b) : source a = source b := by
  rw [source, source, h.version_eq]
  split
  · rename_i h4
    have hfixed := fixedHeaderLen_v4 h4
    rw [h.field_eq (by omega) (Or.inl (by omega))]
  · rename_i h4
    have hfixed := fixedHeaderLen_v6 h4
    rw [h.field_eq (by omega) (Or.inr ⟨h4, by omega⟩)]

theorem destination_eq (h : SameAddressing a b) : destination a = destination b := by
  rw [destination, destination, h.version_eq]
  split
  · rename_i h4
    have hfixed := fixedHeaderLen_v4 h4
    rw [h.field_eq (by omega) (Or.inl (by omega))]
  · rename_i h4
    have hfixed := fixedHeaderLen_v6 h4
    rw [h.field_eq (by omega) (Or.inl (by omega))]

theorem nextProtocol_eq (h : SameAddressing a b) : nextProtocol a = nextProtocol b := by
  rw [nextProtocol, nextProtocol, h.version_eq]
  split
  · rename_i h4
    have hfixed := fixedHeaderLen_v4 h4
    exact getD_congr (h 9 (by omega) (by omega) (by omega)) 0
  · rename_i h4
    have hfixed := fixedHeaderLen_v6 h4
    exact getD_congr (h 6 (by omega) (by omega) fun hv => h4 hv.1) 0

end SameAddressing

/-- What the transport checksum covers beside the segment (RFC 793, RFC 8200). -/
def pseudoHeader (packet : Bytes) (l4Len : Nat) : Bytes :=
  if version packet = 4 then
    addressBytes packet ++ ([0, nextProtocol packet] ++ BigEndian.ofNat 2 l4Len)
  else addressBytes packet ++ (BigEndian.ofNat 4 l4Len ++ [0, 0, 0, nextProtocol packet])

def HeaderVerifies (packet : Bytes) : Prop :=
  fold (wordSum (packet.take (ipHeaderLen packet))) = 0xffff

def TransportVerifies (packet : Bytes) (start : Nat) : Prop :=
  fold (wordSum (pseudoHeader packet (packet.length - start) ++ packet.drop start)) = 0xffff

instance (packet : Bytes) : Decidable (HeaderVerifies packet) :=
  inferInstanceAs (Decidable (_ = _))

instance (packet : Bytes) (start : Nat) : Decidable (TransportVerifies packet start) :=
  inferInstanceAs (Decidable (_ = _))

/-- The part of the pseudo-header sum that does not depend on the length. -/
def networkSum (packet : Bytes) : Nat :=
  wordSum (addressBytes packet) + (nextProtocol packet).toNat

theorem SameAddressing.networkSum_eq {a b : Bytes} (h : SameAddressing a b) :
    networkSum a = networkSum b := by
  rw [networkSum, networkSum, h.addressBytes_eq, h.nextProtocol_eq]

theorem length_addressBytes {packet : Bytes} (h : fixedHeaderLen packet ≤ packet.length) :
    (addressBytes packet).length = if version packet = 4 then 8 else 32 := by
  rw [fixedHeaderLen] at h
  rw [addressBytes]
  split
  · rename_i h4
    rw [if_pos h4] at h
    exact length_field (by omega)
  · rename_i h4
    rw [if_neg h4] at h
    exact length_field (by omega)

theorem wordSum_ofNat_four {n : Nat} (h : n ≤ 0xffff) : wordSum (BigEndian.ofNat 4 n) = n := by
  have hsplit : BigEndian.ofNat 4 n = BigEndian.ofNat 2 0 ++ BigEndian.ofNat 2 n := by
    have hhigh : n / 256 / 256 = 0 := by omega
    simp [BigEndian.ofNat, hhigh]
  rw [hsplit, wordSum_append (by rw [BigEndian.ofNat_length]), wordSum_ofNat h,
    wordSum_ofNat (by omega)]
  omega

theorem wordSum_pseudoHeader {packet : Bytes} {l4Len : Nat}
    (h : fixedHeaderLen packet ≤ packet.length) (hl4 : l4Len ≤ 0xffff) :
    wordSum (pseudoHeader packet l4Len) = networkSum packet + l4Len := by
  have hlen := length_addressBytes h
  rw [pseudoHeader, networkSum]
  split
  · rename_i h4
    rw [if_pos h4] at hlen
    rw [wordSum_append (by omega), wordSum_append (by simp), wordSum_ofNat hl4]
    simp only [wordSum, UInt8.toNat_zero]
    omega
  · rename_i h4
    rw [if_neg h4] at hlen
    rw [wordSum_append (by omega), wordSum_append (by rw [BigEndian.ofNat_length]),
      wordSum_ofNat_four hl4]
    simp only [wordSum, UInt8.toNat_zero]
    omega

theorem length_pseudoHeader_even {packet : Bytes} (h : fixedHeaderLen packet ≤ packet.length)
    (l4Len : Nat) : (pseudoHeader packet l4Len).length % 2 = 0 := by
  have hlen := length_addressBytes h
  rw [pseudoHeader]
  split
  · rename_i h4
    rw [if_pos h4] at hlen
    simp [hlen]
  · rename_i h4
    rw [if_neg h4] at hlen
    simp [hlen]

theorem transportVerifies_iff {packet : Bytes} {start : Nat}
    (h : fixedHeaderLen packet ≤ packet.length) (hl4 : packet.length - start ≤ 0xffff) :
    TransportVerifies packet start ↔
      fold (networkSum packet + (packet.length - start) + wordSum (packet.drop start)) =
        0xffff := by
  rw [TransportVerifies, wordSum_append (length_pseudoHeader_even h _),
    wordSum_pseudoHeader h hl4]

theorem networkSum_le {packet : Bytes} (h : fixedHeaderLen packet ≤ packet.length) :
    networkSum packet ≤ 0x200000 := by
  have hsum := wordSum_le (addressBytes packet)
  have hproto := (nextProtocol packet).toNat_lt
  have hlen : (addressBytes packet).length ≤ 32 := by
    rw [length_addressBytes h]
    split <;> omega
  rw [networkSum]
  omega

end Packet

end Straw
