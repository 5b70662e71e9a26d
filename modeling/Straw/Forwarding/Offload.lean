import Straw.Forwarding.Vnet
import Straw.Forwarding.Header

/-!
# Completing a checksum

What `internet_checksum` and `pseudo_sum` compute and where they panic, and the frames
without segmentation whose checksum the kernel left open.
-/

namespace Straw

open Outcome OnesComplement Packet
set_option autoImplicit false

namespace Vnet

theorem add32_of_lt {a b : Nat} (h : a + b < 2 ^ 32) : add32 a b = .ok (a + b) := if_pos h

theorem sumPart_of_lt {part : Bytes} {sum : Nat} (h : sum + wordSum part < 2 ^ 32) :
    sumPart part sum = .ok (sum + wordSum part) := by
  induction part using wordSum.induct generalizing sum with
  | case1 hi lo rest ih =>
    have hstep : sum + be16 hi lo + wordSum rest = sum + wordSum (hi :: lo :: rest) := by
      simp only [wordSum, be16]
      omega
    rw [sumPart, add32_of_lt (by omega)]
    show sumPart rest (sum + be16 hi lo) = _
    rw [ih (by omega), hstep]
  | case2 last =>
    have hlast : be16 last 0 = wordSum [last] := by simp [be16, wordSum]
    rw [sumPart, hlast, add32_of_lt h]
  | case3 => rfl

theorem internetChecksum_of_lt {seed : Nat} {part : Bytes} (h : seed + wordSum part < 2 ^ 32) :
    internetChecksum seed [part] = .ok (0xffff - fold (seed + wordSum part)) := by
  rw [internetChecksum, List.foldlM_cons, sumPart_of_lt h]
  show Except.ok (0xffff - foldCarries (seed + wordSum part)) = _
  rw [foldCarries_eq]

/-- One family's branch of `pseudo_sum`: the addresses at `i .. j`, the protocol at `p`. -/
theorem addressSum_eq {ipHdr : Bytes} {i j p l4Len : Nat} (n : Nat) (hn : i + n = j)
    (hmax : n ≤ 32) (hp : p < j) :
    (do
      let sum ← sumPart (← slice ipHdr i j) 0
      let sum ← add32 sum (← index ipHdr p).toNat
      add32 sum l4Len) =
      if ipHdr.length < j then .error .panic
      else add32 (wordSum (field ipHdr i n) + (ipHdr.getD p 0).toNat) l4Len := by
  split
  · rename_i hshort
    rw [slice, if_neg (by omega), error_bind]
  · rename_i hlong
    have hsum := wordSum_le (field ipHdr i n)
    have hproto := (ipHdr.getD p 0).toNat_lt
    rw [length_field (by omega)] at hsum
    rw [slice_of_le n hn (by omega), ok_bind, sumPart_of_lt (by omega), ok_bind,
      index_of_lt (by omega) 0, ok_bind, Nat.zero_add, add32_of_lt (by omega), ok_bind]

/-- The slices of `pseudo_sum` are the only thing that can go wrong in it. -/
theorem pseudoSum_eq {ipHdr : Bytes} {l4Len : Nat} (hl4 : l4Len < 2 ^ 31) :
    pseudoSum ipHdr l4Len =
      if ipHdr.length < fixedHeaderLen ipHdr then .error .panic
      else .ok (networkSum ipHdr + l4Len) := by
  cases ipHdr with
  | nil => rfl
  | cons first rest =>
    have hmod : l4Len % 2 ^ 32 = l4Len := Nat.mod_eq_of_lt (by omega)
    have hfit (h : fixedHeaderLen (first :: rest) ≤ (first :: rest).length) :
        add32 (networkSum (first :: rest)) l4Len =
          .ok (networkSum (first :: rest) + l4Len) := by
      have hnet := networkSum_le h
      exact add32_of_lt (by omega)
    rw [pseudoSum, index_of_lt (by simp) 0, ok_bind, hmod]
    by_cases h4 : version (first :: rest) = 4
    · have hnib : (first :: rest).getD 0 0 >>> 4 = 4 := h4
      rw [fixedHeaderLen_v4 h4] at hfit ⊢
      rw [networkSum, addressBytes, if_pos h4, nextProtocol, if_pos h4] at hfit ⊢
      rw [if_pos hnib, addressSum_eq 8 rfl (by omega) (by omega)]
      split
      · rfl
      · exact hfit (by omega)
    · have hnib : ¬ (first :: rest).getD 0 0 >>> 4 = 4 := h4
      rw [fixedHeaderLen_v6 h4] at hfit ⊢
      rw [networkSum, addressBytes, if_neg h4, nextProtocol, if_neg h4] at hfit ⊢
      rw [if_neg hnib, addressSum_eq 32 rfl (by omega) (by omega)]
      split
      · rfl
      · exact hfit (by omega)

/-- The sum `writeChecksum` complements: the checksum field counts as zero. -/
def openSum (packet : Bytes) (start pos l4Len : Nat) : Nat :=
  networkSum packet + l4Len + wordSum (splice (packet.drop start) (pos - start) [0, 0])

def checksumAt (packet : Bytes) (start pos l4Len : Nat) : Bytes :=
  BigEndian.ofNat 2 (0xffff - fold (openSum packet start pos l4Len))

theorem fixedHeaderLen_take {packet : Bytes} {n : Nat} (hn : 0 < n) :
    fixedHeaderLen (packet.take n) = fixedHeaderLen packet := by
  rw [fixedHeaderLen, fixedHeaderLen, version, version, getD_take hn]

theorem sameAddressing_of_take {a b : Bytes} {n : Nat} (hn : fixedHeaderLen b ≤ n)
    (h : a.take n = b.take n) : SameAddressing a b := by
  intro j hj _ _
  rw [← List.getElem?_take_of_lt (show j < n by omega), h, List.getElem?_take_of_lt (by omega)]

/-- The seed of the checksum, and the frames on which `pseudo_sum` reads past the end of
the header it was given. -/
theorem pseudoSum_take {packet : Bytes} {start l4Len : Nat} (hstart : start ≤ packet.length)
    (hl4 : l4Len < 2 ^ 31) :
    pseudoSum (packet.take start) l4Len =
      if start < fixedHeaderLen packet then .error .panic
      else .ok (networkSum packet + l4Len) := by
  have hlen : (packet.take start).length = start := by
    rw [List.length_take]
    omega
  rw [pseudoSum_eq hl4, hlen]
  by_cases hzero : start = 0
  · -- not even the version can be read
    subst hzero
    rw [if_pos (fixedHeaderLen_pos packet), List.take_zero]
    rfl
  · rw [fixedHeaderLen_take (by omega)]
    split
    · rfl
    · rename_i hfixed
      have htake : (packet.take start).take start = packet.take start := by
        rw [List.take_take, Nat.min_self]
      rw [(sameAddressing_of_take (Nat.not_lt.mp hfixed) htake).networkSum_eq]

theorem writeChecksum_eq {packet : Bytes} {start pos l4Len : Nat} (hstart : start ≤ pos)
    (hpos : pos + 2 ≤ packet.length) (hlen : packet.length ≤ 100000) (hl4 : l4Len ≤ 100000) :
    writeChecksum packet start pos l4Len =
      if start < fixedHeaderLen packet then .error .panic
      else .ok (splice packet pos (checksumAt packet start pos l4Len)) := by
  have htwo : pos + ([0, 0] : Bytes).length ≤ packet.length := hpos
  have hzlen : (splice packet pos [0, 0]).length = packet.length := length_splice htwo
  -- the field is not before `start`, so `pseudo_sum` sees the header as it came
  have htake : field (splice packet pos [0, 0]) 0 start = packet.take start :=
    take_splice_of_le htwo hstart
  have hdrop : field (splice packet pos [0, 0]) start (packet.length - start) =
      splice (packet.drop start) (pos - start) [0, 0] := by
    rw [field, drop_splice htwo hstart]
    apply List.take_of_length_le
    apply Nat.le_of_eq
    rw [length_splice (by rw [List.length_drop]; simp; omega), List.length_drop]
  rw [writeChecksum, update_update_bind hpos rfl, slice_of_le start (by omega) (by omega),
    ok_bind, htake, pseudoSum_take (by omega) (by omega)]
  split
  · rfl
  · rename_i hfixed
    have hnet := networkSum_le (show fixedHeaderLen packet ≤ packet.length by omega)
    have hsum := wordSum_le (splice (packet.drop start) (pos - start) [0, 0])
    rw [length_splice (by rw [List.length_drop]; simp; omega), List.length_drop] at hsum
    rw [ok_bind, hzlen, slice_of_le (packet.length - start) (by omega) (by omega), ok_bind, hdrop,
      internetChecksum_of_lt (by omega), ok_bind, overwrite_of_le (by simp; omega) (by simp),
      splice_splice htwo (by simp)]
    rfl

theorem completeChecksum_eq {hdr : VnetHdr} {frame : Bytes} (hlen : frame.length ≤ 100000) :
    completeChecksum hdr frame =
      if frame.length < hdr.csumStart.toNat + hdr.csumOffset.toNat + 2 then fail .truncated
      else if hdr.csumStart.toNat < fixedHeaderLen frame then .error .panic
      else .ok (splice frame (hdr.csumStart.toNat + hdr.csumOffset.toNat)
        (checksumAt frame hdr.csumStart.toNat (hdr.csumStart.toNat + hdr.csumOffset.toNat)
          (frame.length - hdr.csumStart.toNat))) := by
  rw [completeChecksum]
  split
  · rfl
  · exact writeChecksum_eq (Nat.le_add_right _ _) (by omega) hlen (by omega)

theorem transportVerifies_splice {packet : Bytes} {start pos : Nat} (hstart : start ≤ pos)
    (hpos : pos + 2 ≤ packet.length) (heven : (pos - start) % 2 = 0)
    (hfixed : fixedHeaderLen packet ≤ start) (hl4 : packet.length - start ≤ 0xffff) :
    TransportVerifies
      (splice packet pos (checksumAt packet start pos (packet.length - start))) start := by
  have htwo : pos + (checksumAt packet start pos (packet.length - start)).length ≤
      packet.length := by
    rw [checksumAt, BigEndian.ofNat_length]
    exact hpos
  have hlen := length_splice htwo
  have hsame := sameAddressing_of_take hfixed (take_splice_of_le htwo hstart)
  have hfix : fixedHeaderLen (splice packet pos
      (checksumAt packet start pos (packet.length - start))) ≤ packet.length := by
    rw [hsame.fixedHeaderLen_eq]
    omega
  rw [transportVerifies_iff (by omega) (by omega), hlen, hsame.networkSum_eq,
    drop_splice htwo hstart]
  exact fold_complement_written heven (by rw [List.length_drop]; omega) _

/-- What a receiver of the packet would sum with the checksum field zero. -/
def openWords (packet : Bytes) (start pos : Nat) : Bytes :=
  pseudoHeader packet (packet.length - start) ++ splice (packet.drop start) (pos - start) [0, 0]

theorem wordSum_openWords {packet : Bytes} {start pos : Nat}
    (hfixed : fixedHeaderLen packet ≤ packet.length) (hl4 : packet.length - start ≤ 0xffff) :
    wordSum (openWords packet start pos) = openSum packet start pos (packet.length - start) := by
  rw [openWords, wordSum_append (length_pseudoHeader_even hfixed _),
    wordSum_pseudoHeader hfixed hl4, openSum]

theorem checksumAt_eq_zero {packet : Bytes} {start pos l4Len : Nat} :
    checksumAt packet start pos l4Len = [0, 0] ↔
      0 < openSum packet start pos l4Len ∧ 0xffff ∣ openSum packet start pos l4Len := by
  have hle := fold_le (openSum packet start pos l4Len)
  rw [← fold_eq_ones, checksumAt]
  constructor
  · intro h
    have hvalue := wordSum_ofNat (Nat.sub_le 0xffff (fold (openSum packet start pos l4Len)))
    have hnone : wordSum [0, 0] = 0 := rfl
    rw [h, hnone] at hvalue
    omega
  · intro h
    rw [h]
    rfl

def tcp : UInt8 := 6
def udp : UInt8 := 17

def transportHeaderLen (protocol : UInt8) : Nat := if protocol = tcp then 20 else 8

def checksumOffset (protocol : UInt8) : Nat := if protocol = tcp then 16 else 6

/-- A TCP or UDP packet directly behind its IP header, with the checksum left open. -/
structure OpenChecksum (hdr : VnetHdr) (frame : Bytes) : Prop where
  gsoType : hdr.gsoType = gsoNone
  flags : hdr.flags &&& needsCsum ≠ 0
  parsed : ∃ info, parsePacket frame = .ok info
  transport : nextProtocol frame = tcp ∨ nextProtocol frame = udp
  complete : ipHeaderLen frame + transportHeaderLen (nextProtocol frame) ≤ frame.length
  csumStart : hdr.csumStart.toNat = ipHeaderLen frame
  csumOffset : hdr.csumOffset.toNat = checksumOffset (nextProtocol frame)

def checksumPos (frame : Bytes) : Nat := ipHeaderLen frame + checksumOffset (nextProtocol frame)

def transportChecksum (frame : Bytes) : Bytes :=
  checksumAt frame (ipHeaderLen frame) (checksumPos frame) (frame.length - ipHeaderLen frame)

namespace OpenChecksum

variable {hdr : VnetHdr} {frame : Bytes}

theorem wellFormed (h : OpenChecksum hdr frame) : WellFormed frame := by
  obtain ⟨info, hparse⟩ := h.parsed
  exact wellFormed_of_parsePacket hparse

theorem pos_le (h : OpenChecksum hdr frame) : checksumPos frame + 2 ≤ frame.length := by
  have hcomplete := h.complete
  unfold transportHeaderLen at hcomplete
  unfold checksumPos checksumOffset
  split at hcomplete
  · rename_i htcp
    rw [if_pos htcp]
    omega
  · rename_i htcp
    rw [if_neg htcp]
    omega

theorem start_le_pos (frame : Bytes) : ipHeaderLen frame ≤ checksumPos frame := by
  unfold checksumPos
  omega

theorem expand_eq (h : OpenChecksum hdr frame) (out : List Bytes) :
    (expand hdr frame).exec out =
      (.ok (), out ++ [splice frame (checksumPos frame) (transportChecksum frame)]) := by
  have hpos := h.pos_le
  have hlen := h.wellFormed.length_lt
  have hcomplete : completeChecksum hdr frame =
      .ok (splice frame (checksumPos frame) (transportChecksum frame)) := by
    have hsum : hdr.csumStart.toNat + hdr.csumOffset.toNat = checksumPos frame := by
      rw [h.csumStart, h.csumOffset, checksumPos]
    rw [completeChecksum_eq (by omega), hsum, h.csumStart, if_neg (by omega),
      if_neg (Nat.not_lt.mpr h.wellFormed.header), transportChecksum]
  rw [expand, if_pos h.gsoType, if_neg h.flags, hcomplete]
  rfl

end OpenChecksum

/-- The protocol number is part of the sum, so the sum of a datagram is not zero. -/
theorem transportChecksum_eq_zero {hdr : VnetHdr} {frame : Bytes} (h : OpenChecksum hdr frame)
    (hudp : nextProtocol frame = udp) :
    transportChecksum frame = [0, 0] ↔
      0xffff ∣ wordSum (openWords frame (ipHeaderLen frame) (checksumPos frame)) := by
  have hwf := h.wellFormed
  have hnet : 0 < networkSum frame := by
    rw [networkSum, hudp]
    exact Nat.add_pos_right _ (by decide)
  rw [transportChecksum, checksumAt_eq_zero,
    wordSum_openWords (Nat.le_trans hwf.header hwf.complete) hwf.length_lt.2]
  apply and_iff_right
  unfold openSum
  omega

/-- What completing the checksum promises of the packet it puts out. -/
structure Completed (frame packet : Bytes) : Prop where
  length : packet.length = frame.length
  unchanged : ∀ j, j ≠ checksumPos frame → j ≠ checksumPos frame + 1 → packet[j]? = frame[j]?
  verifies : TransportVerifies packet (ipHeaderLen frame)
  nonzero : nextProtocol frame = udp → field packet (checksumPos frame) 2 ≠ [0, 0]

/-- Everything but the last promise is always kept. UDP's zero is written exactly when the
words of the datagram add up to a multiple of `0xffff`. -/
theorem expand_completed_iff {hdr : VnetHdr} {frame : Bytes} (h : OpenChecksum hdr frame)
    (out : List Bytes) :
    (∃ packet, (expand hdr frame).exec out = (.ok (), out ++ [packet]) ∧
      Completed frame packet) ↔
      (nextProtocol frame = udp →
        ¬ 0xffff ∣ wordSum (openWords frame (ipHeaderLen frame) (checksumPos frame))) := by
  have hwf := h.wellFormed
  have hpos := h.pos_le
  have htwo : (transportChecksum frame).length = 2 := BigEndian.ofNat_length 2 _
  have hfield : field (splice frame (checksumPos frame) (transportChecksum frame))
      (checksumPos frame) 2 = transportChecksum frame := field_splice_self hpos htwo
  rw [h.expand_eq out]
  constructor
  · rintro ⟨packet, hexec, hdone⟩ hudp hdvd
    obtain rfl : _ = packet :=
      List.singleton_inj.mp (List.append_cancel_left (Prod.mk.inj hexec).2)
    apply hdone.nonzero hudp
    rw [hfield]
    exact (transportChecksum_eq_zero h hudp).mpr hdvd
  · intro hcond
    refine ⟨_, rfl, length_splice (by omega), ?_, ?_, ?_⟩
    · intro j hj hj'
      exact getElem?_splice_of_disjoint (by omega) (by omega)
    · apply transportVerifies_splice (OpenChecksum.start_le_pos frame) hpos ?_ hwf.header
        hwf.length_lt.2
      unfold checksumPos checksumOffset
      split <;> omega
    · intro hudp hwritten
      rw [hfield] at hwritten
      exact hcond hudp ((transportChecksum_eq_zero h hudp).mp hwritten)

/-- NEEDS_CSUM for a UDP packet with an IPv4 header of 20 bytes. -/
def testUdpHdr : VnetHdr := ⟨1, 0, 0, 0, 20, 6⟩

/-- From 10.0.0.1 to port 53 of 10.0.0.2; the checksum field has the kernel's
pseudo-header sum. -/
def testDatagram (port : UInt8) : Bytes :=
  [0x45, 0, 0, 28, 0, 0, 0x40, 0, 64, 17, 0x26, 0xcf, 10, 0, 0, 1, 10, 0, 0, 2,
    0xeb, port, 0, 53, 0, 8, 0x14, 0x1c]

theorem openChecksum_testDatagram {port : UInt8} (h : port = 0xa6 ∨ port = 0xa7) :
    OpenChecksum testUdpHdr (testDatagram port) := by
  rcases h with rfl | rfl
  · exact ⟨rfl, by decide, ⟨_, rfl⟩, Or.inr (by decide), by decide, by decide, by decide⟩
  · exact ⟨rfl, by decide, ⟨_, rfl⟩, Or.inr (by decide), by decide, by decide, by decide⟩

theorem expand_completed_testDatagram :
    OpenChecksum testUdpHdr (testDatagram 0xa7) ∧
      ∃ packet, (expand testUdpHdr (testDatagram 0xa7)).exec [] = (.ok (), [packet]) ∧
        Completed (testDatagram 0xa7) packet :=
  ⟨openChecksum_testDatagram (Or.inr rfl),
    (expand_completed_iff (openChecksum_testDatagram (Or.inr rfl)) []).mpr (by decide +kernel)⟩

theorem expand_udp_zero :
    OpenChecksum testUdpHdr (testDatagram 0xa6) ∧
      ∃ packet, (expand testUdpHdr (testDatagram 0xa6)).exec [] = (.ok (), [packet]) ∧
        nextProtocol (testDatagram 0xa6) = udp ∧
        field packet (checksumPos (testDatagram 0xa6)) 2 = [0, 0] :=
  ⟨openChecksum_testDatagram (Or.inl rfl), _,
    (openChecksum_testDatagram (Or.inl rfl)).expand_eq [], by decide, by decide +kernel⟩

end Vnet

end Straw
