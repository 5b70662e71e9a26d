import Straw.Forwarding.Segment

/-!
# The packets of an aggregate

Every packet `segment_tcp` cuts from a well-formed aggregate carries its part of the
payload behind the aggregate's own headers, with the fields that have to differ
rewritten and both checksums valid.
-/

namespace Straw

open Outcome OnesComplement Packet
set_option autoImplicit false

namespace Vnet

/-- TCP directly behind the IP header, with some payload. -/
structure TcpAggregate (frame : Bytes) : Prop where
  ip : version frame = 4 ∧ 20 ≤ ipHeaderLen frame ∨ version frame = 6
  protocol : nextProtocol frame = tcp
  tcp : 20 ≤ tcpHeaderLen frame
  payload : headersLen frame < frame.length
  size : frame.length ≤ 65526

namespace TcpAggregate

variable {hdr : VnetHdr} {frame : Bytes}

theorem splits (h : TcpAggregate frame) (hsize : hdr.gsoSize ≠ 0) : Splits hdr frame :=
  ⟨hsize, h.ip.imp And.left id, h.tcp, h.payload⟩

theorem fixedHeaderLen_le (h : TcpAggregate frame) : fixedHeaderLen frame ≤ ipHeaderLen frame := by
  rcases h.ip with ⟨h4, hlen⟩ | h6
  · rw [fixedHeaderLen_v4 h4]
    exact hlen
  · have hne : version frame ≠ 4 := by
      rw [h6]
      decide
    exact Nat.le_of_eq ((fixedHeaderLen_v6 hne).trans (if_neg hne).symm)

theorem twenty_le (h : TcpAggregate frame) : 20 ≤ ipHeaderLen frame := by
  have hfixed := h.fixedHeaderLen_le
  unfold fixedHeaderLen at hfixed
  split at hfixed <;> omega

end TcpAggregate

section Packet

variable {hdr : VnetHdr} {frame : Bytes} (h : Splits hdr frame) (mss segments i : Nat)
  (chunk : Bytes)

include h

/-- The room for the checksum, which is the last write of the loop. -/
theorem checksum_fits : ipHeaderLen frame + 16 +
    (checksumAt (unsummed frame mss segments i chunk) (ipHeaderLen frame)
      (ipHeaderLen frame + 16) (tcpHeaderLen frame + chunk.length)).length ≤
    (unsummed frame mss segments i chunk).length := by
  have hheaders := h.headersLen_ge
  rw [length_unsummed h, checksumAt, BigEndian.ofNat_length]
  omega

theorem length_segmentBytes :
    (segmentBytes frame mss segments i chunk).length = headersLen frame + chunk.length := by
  rw [segmentBytes, length_splice (checksum_fits h mss segments i chunk), length_unsummed h]

theorem getElem?_segmentBytes {j : Nat} (htcp : ¬ TcpField (ipHeaderLen frame) j) :
    (segmentBytes frame mss segments i chunk)[j]? = (ipBytes frame i chunk)[j]? := by
  have hout : j < ipHeaderLen frame + 16 ∨ ipHeaderLen frame + 16 + 2 ≤ j := by
    unfold TcpField at htcp
    omega
  rw [segmentBytes, getElem?_splice_of_disjoint (checksum_fits h mss segments i chunk)
    (by rw [checksumAt, BigEndian.ofNat_length]; exact hout)]
  exact getElem?_unsummed h mss segments i chunk htcp

theorem getElem?_segmentBytes_unchanged {j : Nat} (hj : j < headersLen frame)
    (hip : ¬ IpField (version frame = 4) j) (htcp : ¬ TcpField (ipHeaderLen frame) j) :
    (segmentBytes frame mss segments i chunk)[j]? = frame[j]? := by
  rw [getElem?_segmentBytes h _ _ _ _ htcp, getElem?_ipBytes h _ _ hip, getElem?_bare h _ hj]

/-- The payload lies behind every field that is rewritten. -/
theorem drop_segmentBytes :
    (segmentBytes frame mss segments i chunk).drop (headersLen frame) = chunk := by
  have hheaders := h.headersLen_ge
  have hlen : (frame.take (headersLen frame)).length = headersLen frame := by
    have hpayload := h.payload
    rw [List.length_take]
    omega
  apply List.ext_getElem?
  intro j
  rw [List.getElem?_drop, getElem?_segmentBytes h _ _ _ _ (by unfold TcpField; omega),
    getElem?_ipBytes h _ _ (by unfold IpField; omega), List.getElem?_append_right (by omega),
    hlen, Nat.add_sub_cancel_left]

/-- In front of the TCP header the packet is what the IP part of the loop left. -/
theorem field_segmentBytes_ip {j n : Nat} (hj : j + n ≤ ipHeaderLen frame) :
    field (segmentBytes frame mss segments i chunk) j n = field (ipBytes frame i chunk) j n := by
  apply field_congr
  intro k _ hk
  apply getElem?_segmentBytes h
  unfold TcpField
  omega

theorem field_seq_segmentBytes :
    field (segmentBytes frame mss segments i chunk) (ipHeaderLen frame + 4) 4 =
      BigEndian.ofNat 4 (((aggregate frame).baseSeq + i * mss % 2 ^ 32) % 2 ^ 32) := by
  have hheaders := h.headersLen_ge
  have hip := length_ipBytes h i chunk
  have hipLen := aggregate_ipLen frame
  have hfour := BigEndian.ofNat_length 4 (((aggregate frame).baseSeq + i * mss % 2 ^ 32) % 2 ^ 32)
  rw [segmentBytes, field_splice_of_disjoint (checksum_fits h mss segments i chunk)
    (Or.inl (by omega)), unsummed, tcpWritten, hipLen,
    field_splice_of_disjoint _ (Or.inl (by omega))]
  · exact field_splice_self (by omega) hfour
  · rw [length_splice (by omega), List.length_singleton]
    omega

theorem flags_segmentBytes :
    (segmentBytes frame mss segments i chunk).getD (ipHeaderLen frame + 13) 0 =
      segmentFlags (frame.getD (ipHeaderLen frame + 13) 0) (i == 0) (i == segments - 1) := by
  have hheaders := h.headersLen_ge
  have hip := length_ipBytes h i chunk
  have hipLen := aggregate_ipLen frame
  have hseq : (splice (ipBytes frame i chunk) (ipHeaderLen frame + 4) (BigEndian.ofNat 4
      (((aggregate frame).baseSeq + i * mss % 2 ^ 32) % 2 ^ 32))).length =
      (ipBytes frame i chunk).length :=
    length_splice (by rw [BigEndian.ofNat_length]; omega)
  rw [List.getD_eq_getElem?_getD, segmentBytes,
    getElem?_splice_of_disjoint (checksum_fits h mss segments i chunk) (Or.inl (by omega)),
    unsummed, tcpWritten, hipLen, getElem?_splice (by rw [List.length_singleton]; omega),
    if_pos (by rw [List.length_singleton]; omega), Nat.sub_self]
  rfl

theorem ipBytes_v4 (hv : version frame = 4) :
    field (ipBytes frame i chunk) 2 2 =
        BigEndian.ofNat 2 ((headersLen frame + chunk.length) % 2 ^ 16) ∧
      field (ipBytes frame i chunk) 4 2 =
        BigEndian.ofNat 2 (((aggregate frame).baseId + i % 2 ^ 16) % 2 ^ 16) := by
  have hheaders := h.headersLen_ge
  have hbare := length_bare h chunk
  have htwo := BigEndian.ofNat_length 2
  have hlen : (aggregate frame).headers.length = headersLen frame := by
    have hpayload := h.payload
    show (frame.take (headersLen frame)).length = _
    rw [List.length_take]
    omega
  have hv4 : (aggregate frame).v4 = true := decide_eq_true hv
  have hlength := length_lengthWritten (aggregate frame) i chunk
    (show 6 ≤ (frame.take (headersLen frame) ++ chunk).length by omega)
  have hfst : (splice (frame.take (headersLen frame) ++ chunk) 2 (BigEndian.ofNat 2
      ((headersLen frame + chunk.length) % 2 ^ 16))).length = headersLen frame + chunk.length := by
    rw [length_splice (by rw [htwo]; omega), hbare]
  rw [ipBytes, ipWritten, if_pos hv4,
    field_splice_of_disjoint (by rw [headerChecksum, htwo]; omega) (Or.inl (by omega)),
    field_splice_of_disjoint (by rw [headerChecksum, htwo]; omega) (Or.inl (by omega)),
    lengthWritten, hlen]
  constructor
  · rw [field_splice_of_disjoint (by rw [htwo]; omega) (Or.inl (by omega))]
    exact field_splice_self (by omega) (htwo _)
  · exact field_splice_self (by omega) (htwo _)

theorem ipBytes_v6 (hv : version frame ≠ 4) :
    field (ipBytes frame i chunk) 4 2 =
      BigEndian.ofNat 2 ((tcpHeaderLen frame + chunk.length) % 2 ^ 16) := by
  have hheaders := h.headersLen_ge
  have hbare := length_bare h chunk
  have hv4 : ¬ (aggregate frame).v4 = true := by
    rw [show (aggregate frame).v4 = decide (version frame = 4) from rfl, decide_eq_true_eq]
    exact hv
  rw [ipBytes, ipWritten, if_neg hv4]
  exact field_splice_self (by omega) (BigEndian.ofNat_length 2 _)

/-- The header checksum is over the header as it is sent. -/
theorem header_ipBytes (hv : version frame = 4) (hip : 20 ≤ ipHeaderLen frame) :
    fold (wordSum ((ipBytes frame i chunk).take (ipHeaderLen frame))) = 0xffff := by
  have hheaders := h.headersLen_ge
  have hbare := length_bare h chunk
  have hv4 : (aggregate frame).v4 = true := decide_eq_true hv
  have hipLen := aggregate_ipLen frame
  have hlength := length_lengthWritten (aggregate frame) i chunk
    (show 6 ≤ (frame.take (headersLen frame) ++ chunk).length by omega)
  have hten : 10 + 2 ≤ (lengthWritten (aggregate frame) i chunk
      (frame.take (headersLen frame) ++ chunk)).length := by omega
  rw [ipBytes, ipWritten, if_pos hv4, hipLen,
    take_splice (by rw [headerChecksum, BigEndian.ofNat_length]; exact hten)
      (by rw [headerChecksum, BigEndian.ofNat_length]; omega),
    headerChecksum, take_splice hten (show 10 + 2 ≤ ipHeaderLen frame by omega)]
  have hrule := fold_complement_written (i := 10) (by rfl)
    (show 10 + 2 ≤ ((lengthWritten (aggregate frame) i chunk
      (frame.take (headersLen frame) ++ chunk)).take (ipHeaderLen frame)).length by
        rw [List.length_take]; omega) 0
  rw [Nat.zero_add, Nat.zero_add] at hrule
  exact hrule

end Packet

theorem segmentFlags_finPsh (flags : UInt8) (isFirst isLast : Bool) :
    segmentFlags flags isFirst isLast &&& 0x09 = if isLast then flags &&& 0x09 else 0 := by
  have hclear : (~~~0x09 : UInt8) &&& 0x09 = 0 := by decide
  have hkeep : (~~~0x80 : UInt8) &&& 0x09 = 0x09 := by decide
  cases isFirst <;> cases isLast <;>
    simp [segmentFlags, UInt8.and_assoc, hclear, hkeep]

theorem segmentFlags_cwr (flags : UInt8) (isFirst isLast : Bool) :
    segmentFlags flags isFirst isLast &&& 0x80 = if isFirst then flags &&& 0x80 else 0 := by
  have hclear : (~~~0x80 : UInt8) &&& 0x80 = 0 := by decide
  have hkeep : (~~~0x09 : UInt8) &&& 0x80 = 0x80 := by decide
  cases isFirst <;> cases isLast <;>
    simp [segmentFlags, UInt8.and_assoc, hclear, hkeep]

theorem segmentFlags_others (flags : UInt8) (isFirst isLast : Bool) :
    segmentFlags flags isFirst isLast &&& 0x76 = flags &&& 0x76 := by
  have hfin : (~~~0x09 : UInt8) &&& 0x76 = 0x76 := by decide
  have hcwr : (~~~0x80 : UInt8) &&& 0x76 = 0x76 := by decide
  cases isFirst <;> cases isLast <;>
    simp [segmentFlags, UInt8.and_assoc, hfin, hcwr]

def tcpFlags (packet : Bytes) : UInt8 := packet.getD (ipHeaderLen packet + 13) 0

/-- Packet `i` of an aggregate: FIN and PSH are `0x09`, CWR is `0x80`. -/
structure IsSegment (hdr : VnetHdr) (frame : Bytes) (i : Nat) (packet : Bytes) : Prop where
  headers : ipHeaderLen packet = ipHeaderLen frame ∧ headersLen packet = headersLen frame
  payload : packet.drop (headersLen packet) = chunkAt hdr frame i
  sequence : BigEndian.toNat (field packet (ipHeaderLen frame + 4) 4) =
    (BigEndian.toNat (field frame (ipHeaderLen frame + 4) 4) + i * hdr.gsoSize.toNat) % 2 ^ 32
  identification : version frame = 4 → BigEndian.toNat (field packet 4 2) =
    (BigEndian.toNat (field frame 4 2) + i) % 2 ^ 16
  parses : parsePacket packet =
    .ok ⟨(version frame).toNat, source frame, destination frame, tcp⟩
  headerVerifies : version frame = 4 → HeaderVerifies packet
  transportVerifies : TransportVerifies packet (ipHeaderLen frame)
  finPsh : tcpFlags packet &&& 0x09 =
    if i + 1 = segmentCount hdr frame then tcpFlags frame &&& 0x09 else 0
  cwr : tcpFlags packet &&& 0x80 = if i = 0 then tcpFlags frame &&& 0x80 else 0
  otherFlags : tcpFlags packet &&& 0x76 = tcpFlags frame &&& 0x76
  unchanged : ∀ j, j < headersLen frame → ¬ IpField (version frame = 4) j →
    ¬ TcpField (ipHeaderLen frame) j → packet[j]? = frame[j]?

section Aggregate

variable {hdr : VnetHdr} {frame : Bytes} (h : TcpAggregate frame) (hsize : hdr.gsoSize ≠ 0)

include h hsize

theorem sameAddressing_packetAt (i : Nat) : SameAddressing (packetAt hdr frame i) frame := by
  have hfixed := h.fixedHeaderLen_le
  have hheaders := (h.splits hsize).headersLen_ge
  intro j hj hlengths hchecksum
  apply getElem?_segmentBytes_unchanged (h.splits hsize)
  · omega
  · rintro (hid | ⟨hv, htotal | hck⟩)
    · omega
    · omega
    · exact hchecksum ⟨hv, hck⟩
  · unfold TcpField
    omega

theorem length_packetAt (i : Nat) :
    (packetAt hdr frame i).length = headersLen frame + (chunkAt hdr frame i).length :=
  length_segmentBytes (h.splits hsize) _ _ _ _

theorem statedLen_packetAt (i : Nat) :
    statedLen (packetAt hdr frame i) = (packetAt hdr frame i).length := by
  have hsplits := h.splits hsize
  have htwenty := h.twenty_le
  have hchunk := length_chunkAt_le hdr frame i
  have hpayload := h.payload
  have hmax := h.size
  have hsum : headersLen frame = ipHeaderLen frame + tcpHeaderLen frame := rfl
  -- the casts to sixteen bits lose nothing below 65536
  rw [statedLen, (sameAddressing_packetAt h hsize i).version_eq, length_packetAt h hsize]
  split
  · rename_i hv
    rw [packetAt, field_segmentBytes_ip hsplits _ _ _ _ (by omega), (ipBytes_v4 hsplits i _ hv).1,
      BigEndian.toNat_ofNat]
    omega
  · rename_i hv
    have hforty : ipHeaderLen frame = 40 := if_neg hv
    rw [packetAt, field_segmentBytes_ip hsplits _ _ _ _ (by omega), ipBytes_v6 hsplits i _ hv,
      BigEndian.toNat_ofNat]
    omega

theorem wellFormed_packetAt (i : Nat) : WellFormed (packetAt hdr frame i) := by
  have hsame := sameAddressing_packetAt h hsize i
  have hheaders := (h.splits hsize).headersLen_ge
  refine ⟨?_, ?_, ?_, statedLen_packetAt h hsize i⟩
  · rw [hsame.version_eq]
    exact h.ip.imp And.left id
  · rw [hsame.fixedHeaderLen_eq, hsame.ipHeaderLen_eq]
    exact h.fixedHeaderLen_le
  · rw [hsame.ipHeaderLen_eq, length_packetAt h hsize]
    omega

theorem transportVerifies_packetAt (i : Nat) :
    TransportVerifies (packetAt hdr frame i) (ipHeaderLen frame) := by
  have hsplits := h.splits hsize
  have hheaders := hsplits.headersLen_ge
  have hchunk := length_chunkAt_le hdr frame i
  have hpayload := h.payload
  have hmax := h.size
  have hsum : headersLen frame = ipHeaderLen frame + tcpHeaderLen frame := rfl
  have hlen := length_unsummed hsplits hdr.gsoSize.toNat (segmentCount hdr frame) i
    (chunkAt hdr frame i)
  -- the loop computes the TCP length from its parts
  have hl4 : tcpHeaderLen frame + (chunkAt hdr frame i).length =
      (unsummed frame hdr.gsoSize.toNat (segmentCount hdr frame) i
        (chunkAt hdr frame i)).length - ipHeaderLen frame := by omega
  rw [packetAt, segmentBytes, hl4]
  apply transportVerifies_splice
  · omega
  · omega
  · omega
  · rw [fixedHeaderLen_unsummed hsplits]
    exact h.fixedHeaderLen_le
  · omega

theorem headerVerifies_packetAt (i : Nat) (hv : version frame = 4) :
    HeaderVerifies (packetAt hdr frame i) := by
  have hsplits := h.splits hsize
  have htake := field_segmentBytes_ip hsplits hdr.gsoSize.toNat (segmentCount hdr frame) i
    (chunkAt hdr frame i) (show 0 + ipHeaderLen frame ≤ ipHeaderLen frame by omega)
  rw [HeaderVerifies, (sameAddressing_packetAt h hsize i).ipHeaderLen_eq, packetAt,
    ← field_zero, htake, field_zero]
  exact header_ipBytes hsplits i _ hv h.twenty_le

theorem headersLen_packetAt (i : Nat) : headersLen (packetAt hdr frame i) = headersLen frame := by
  have hip := (sameAddressing_packetAt h hsize i).ipHeaderLen_eq
  have hsplits := h.splits hsize
  have hheaders := hsplits.headersLen_ge
  have htwenty := h.twenty_le
  have hoffset : (packetAt hdr frame i)[ipHeaderLen frame + 12]? =
      frame[ipHeaderLen frame + 12]? := by
    apply getElem?_segmentBytes_unchanged hsplits
    · omega
    · unfold IpField
      omega
    · unfold TcpField
      omega
  rw [headersLen, headersLen, tcpHeaderLen, tcpHeaderLen, hip, getD_congr hoffset]

theorem tcpFlags_packetAt (i : Nat) : tcpFlags (packetAt hdr frame i) =
    segmentFlags (tcpFlags frame) (i == 0) (i == segmentCount hdr frame - 1) := by
  rw [tcpFlags, tcpFlags, (sameAddressing_packetAt h hsize i).ipHeaderLen_eq]
  exact flags_segmentBytes (h.splits hsize) _ _ _ _

theorem sequence_packetAt (i : Nat) :
    BigEndian.toNat (field (packetAt hdr frame i) (ipHeaderLen frame + 4) 4) =
      (BigEndian.toNat (field frame (ipHeaderLen frame + 4) 4) + i * hdr.gsoSize.toNat) %
        2 ^ 32 := by
  have hbase : (aggregate frame).baseSeq =
      BigEndian.toNat (field frame (ipHeaderLen frame + 4) 4) := rfl
  rw [packetAt, field_seq_segmentBytes (h.splits hsize), BigEndian.toNat_ofNat, hbase]
  omega

theorem identification_packetAt (i : Nat) (hv : version frame = 4) :
    BigEndian.toNat (field (packetAt hdr frame i) 4 2) =
      (BigEndian.toNat (field frame 4 2) + i) % 2 ^ 16 := by
  have hsplits := h.splits hsize
  have htwenty := h.twenty_le
  have hbase : (aggregate frame).baseId = BigEndian.toNat (field frame 4 2) :=
    if_pos ⟨htwenty, hv⟩
  rw [packetAt, field_segmentBytes_ip hsplits _ _ _ _ (by omega), (ipBytes_v4 hsplits i _ hv).2,
    BigEndian.toNat_ofNat, hbase]
  omega

theorem isSegment_packetAt (i : Nat) : IsSegment hdr frame i (packetAt hdr frame i) where
  headers := ⟨(sameAddressing_packetAt h hsize i).ipHeaderLen_eq, headersLen_packetAt h hsize i⟩
  payload := by
    rw [headersLen_packetAt h hsize]
    exact drop_segmentBytes (h.splits hsize) _ _ _ _
  sequence := sequence_packetAt h hsize i
  identification := identification_packetAt h hsize i
  parses := by
    have hsame := sameAddressing_packetAt h hsize i
    have hproto : nextProtocol (packetAt hdr frame i) = tcp :=
      hsame.nextProtocol_eq.trans h.protocol
    rw [parsePacket_of_wellFormed (wellFormed_packetAt h hsize i) (Or.inl hproto), hproto,
      hsame.version_eq, hsame.source_eq, hsame.destination_eq]
  headerVerifies := headerVerifies_packetAt h hsize i
  transportVerifies := transportVerifies_packetAt h hsize i
  finPsh := by
    have hpos := (h.splits hsize).segmentCount_pos
    have hlast : (i == segmentCount hdr frame - 1) = true ↔ i + 1 = segmentCount hdr frame := by
      rw [beq_iff_eq]
      omega
    rw [tcpFlags_packetAt h hsize, segmentFlags_finPsh]
    exact if_congr hlast rfl rfl
  cwr := by
    rw [tcpFlags_packetAt h hsize, segmentFlags_cwr]
    exact if_congr beq_iff_eq rfl rfl
  otherFlags := by
    rw [tcpFlags_packetAt h hsize, segmentFlags_others]
  unchanged := fun _ hj hip htcp =>
    getElem?_segmentBytes_unchanged (h.splits hsize) _ _ _ _ hj hip htcp

end Aggregate

theorem flatten_chunkAt {hdr : VnetHdr} {frame : Bytes} (h : 0 < hdr.gsoSize.toNat) :
    ((List.range (segmentCount hdr frame)).map (chunkAt hdr frame)).flatten =
      frame.drop (headersLen frame) := by
  have hchunks : (List.range (segmentCount hdr frame)).map (chunkAt hdr frame) =
      chunks hdr.gsoSize.toNat (frame.drop (headersLen frame)) := by
    rw [chunks, List.length_drop]
    rfl
  rw [hchunks, flatten_chunks h]

theorem length_chunkAt {hdr : VnetHdr} {frame : Bytes} (i : Nat) :
    (chunkAt hdr frame i).length ≤ hdr.gsoSize.toNat ∧
      (i + 1 < segmentCount hdr frame →
        (chunkAt hdr frame i).length = hdr.gsoSize.toNat) := by
  constructor
  · exact List.length_take_le _ _
  · intro hi
    apply length_field_of_lt
    rw [List.length_drop]
    exact hi

/-- An aggregate becomes `⌈payload / gso_size⌉` packets, each its part of the payload behind
headers of its own. -/
theorem expand_aggregate {hdr : VnetHdr} {frame : Bytes} (h : TcpAggregate frame)
    (hgso : hdr.gsoType = gsoTcpv4 ∨ hdr.gsoType = gsoTcpv6) (hsize : hdr.gsoSize ≠ 0)
    (out : List Bytes) :
    ∃ packets, (expand hdr frame).exec out = (.ok (), out ++ packets) ∧
      packets.length = segmentCount hdr frame ∧
      (packets.map fun packet => packet.drop (headersLen packet)).flatten =
        frame.drop (headersLen frame) ∧
      ∀ i packet, packets[i]? = some packet →
        (packet.drop (headersLen packet)).length ≤ hdr.gsoSize.toNat ∧
        (i + 1 < packets.length →
          (packet.drop (headersLen packet)).length = hdr.gsoSize.toNat) ∧
        IsSegment hdr frame i packet := by
  have hsplits := h.splits hsize
  have hlen : frame.length ≤ 100000 := by
    have hmax := h.size
    omega
  have hnone : hdr.gsoType ≠ gsoNone := by
    rcases hgso with hv4 | hv6
    · rw [hv4]
      decide
    · rw [hv6]
      decide
  have hexec : (expand hdr frame).exec out =
      (.ok (), out ++ (List.range (segmentCount hdr frame)).map (packetAt hdr frame)) := by
    rw [expand, if_neg hnone, if_pos hgso, hsplits.exec_segmentTcp hlen,
      if_neg (Nat.not_lt.mpr h.fixedHeaderLen_le)]
  refine ⟨_, hexec, by simp, ?_, ?_⟩
  · rw [List.map_map, ← flatten_chunkAt hsplits.gsoSize_pos]
    congr 1
    apply List.map_congr_left
    intro i _
    exact (isSegment_packetAt h hsize i).payload
  · intro i packet hi
    rw [List.getElem?_map] at hi
    obtain ⟨k, hk, rfl⟩ := Option.map_eq_some_iff.mp hi
    obtain ⟨hlt, hval⟩ := List.getElem?_eq_some_iff.mp hk
    rw [List.getElem_range] at hval
    subst hval
    have hseg := isSegment_packetAt h hsize i
    rw [hseg.payload, List.length_map, List.length_range]
    exact ⟨(length_chunkAt i).1, (length_chunkAt i).2, hseg⟩

/-- Five bytes of payload behind an IPv4 header with an option and a TCP header with
FIN, PSH, ACK and CWR set, one short of the largest sequence number. -/
def testAggregate : Bytes :=
  [0x46, 0, 0, 49, 0xff, 0xff, 0x40, 0, 64, 6, 0, 0, 10, 0, 0, 1, 10, 0, 0, 2, 1, 1, 1, 1] ++
    [0x30, 0x39, 0, 80, 0xff, 0xff, 0xff, 0xfe, 0, 0, 0, 7, 0x50, 0x99, 0xff, 0xff, 0, 0, 0, 0] ++
    [1, 2, 3, 4, 5]

/-- A TCPv4 aggregate to be cut every two bytes. -/
def testCutHdr : VnetHdr := ⟨1, 1, 0, 2, 24, 16⟩

theorem expand_aggregate_testAggregate :
    TcpAggregate testAggregate ∧
      ∃ packets, (expand testCutHdr testAggregate).exec [] = (.ok (), packets) ∧
        packets.length = 3 ∧
        ∀ i packet, packets[i]? = some packet → IsSegment testCutHdr testAggregate i packet := by
  have hagg : TcpAggregate testAggregate :=
    ⟨Or.inl (by decide), by decide, by decide, by decide, by decide⟩
  have hgso : testCutHdr.gsoType = gsoTcpv4 ∨ testCutHdr.gsoType = gsoTcpv6 := Or.inl rfl
  have hthree : segmentCount testCutHdr testAggregate = 3 := by decide
  obtain ⟨packets, hexec, hcount, -, hseg⟩ := expand_aggregate hagg hgso (by decide) []
  refine ⟨hagg, packets, hexec, hcount.trans hthree, ?_⟩
  intro i packet hi
  exact (hseg i packet hi).2.2

end Vnet

end Straw
