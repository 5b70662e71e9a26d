import Straw.Forwarding.Offload

/-!
# Cutting a TCP aggregate

When `segment_tcp` gets past its guards, what each packet of its loop is, and when
`expand` panics.
-/

namespace Straw

open Outcome OnesComplement Packet
set_option autoImplicit false

namespace Vnet

def tcpHeaderLen (frame : Bytes) : Nat :=
  (frame.getD (ipHeaderLen frame + 12) 0 >>> 4).toNat * 4

def headersLen (frame : Bytes) : Nat := ipHeaderLen frame + tcpHeaderLen frame

/-- The frames that pass the guards of `segment_tcp`. -/
structure Splits (hdr : VnetHdr) (frame : Bytes) : Prop where
  gsoSize : hdr.gsoSize ≠ 0
  version : version frame = 4 ∨ version frame = 6
  tcp : 20 ≤ tcpHeaderLen frame
  payload : headersLen frame < frame.length

def aggregate (frame : Bytes) : Aggregate where
  v4 := version frame = 4
  ipLen := ipHeaderLen frame
  tcpLen := tcpHeaderLen frame
  headers := frame.take (headersLen frame)
  payload := frame.drop (headersLen frame)
  baseSeq := BigEndian.toNat (field frame (ipHeaderLen frame + 4) 4)
  baseId :=
    if 20 ≤ ipHeaderLen frame ∧ version frame = 4 then BigEndian.toNat (field frame 4 2) else 0
  flagsByte := frame.getD (ipHeaderLen frame + 13) 0

theorem aggregate_ipLen (frame : Bytes) : (aggregate frame).ipLen = ipHeaderLen frame := rfl

theorem splitIp_eq (frame : Bytes) :
    splitIp frame (frame.getD 0 0) =
      if version frame = 4 ∧ 20 ≤ frame.length ∨ version frame = 6 ∧ 40 ≤ frame.length then
        .ok (ipHeaderLen frame)
      else fail .malformed := by
  have hnib : frame.getD 0 0 >>> 4 = version frame := rfl
  rw [splitIp, hnib, ipHeaderLen]
  by_cases h4 : version frame = 4
  · have h6 : version frame ≠ 6 := by
      rw [h4]
      decide
    by_cases hlen : 20 ≤ frame.length
    · rw [if_pos ⟨h4, hlen⟩, if_pos (Or.inl ⟨h4, hlen⟩), if_pos h4]
    · rw [if_neg (fun h => hlen h.2), if_neg (fun h => h6 h.1),
        if_neg (fun h => h.elim (fun h => hlen h.2) fun h => h6 h.1)]
  · rw [if_neg (fun h => h4 h.1), if_neg h4]
    by_cases h6 : version frame = 6 ∧ 40 ≤ frame.length
    · rw [if_pos h6, if_pos (Or.inr h6)]
    · rw [if_neg h6, if_neg (fun h => h.elim (fun h => h4 h.1) h6)]

theorem readBaseId_eq {frame : Bytes} {n : Nat} (hn : 6 ≤ n) (hlen : n ≤ frame.length) :
    readBaseId (frame.take n) (frame.getD 0 0) (ipHeaderLen frame) =
      .ok (aggregate frame).baseId := by
  have hnib : frame.getD 0 0 >>> 4 = version frame := rfl
  have htake : (frame.take n).length = n := by
    rw [List.length_take]
    omega
  rw [readBaseId, hnib, aggregate]
  dsimp only
  split
  · rw [index_of_lt (by omega) 0, ok_bind, index_of_lt (by omega) 0, ok_bind,
      be16_eq_toNat_field (by omega), field_take (by omega)]
  · rfl

theorem readAggregate_eq {frame : Bytes} (htcp : 20 ≤ tcpHeaderLen frame)
    (hpayload : headersLen frame < frame.length) :
    readAggregate frame (frame.getD 0 0) (ipHeaderLen frame) (tcpHeaderLen frame) =
      .ok (aggregate frame) := by
  have hsum : ipHeaderLen frame + tcpHeaderLen frame = headersLen frame := rfl
  have hlen : (frame.take (headersLen frame)).length = headersLen frame := by
    rw [List.length_take]
    omega
  rw [readAggregate, hsum, slice_of_le 4 (by omega) (by omega), ok_bind,
    readBaseId_eq (by omega) (by omega), ok_bind, index_of_lt (by omega) 0, ok_bind,
    field_take (by omega), getD_take (by omega) 0]
  rfl

/-- Past the guards, the aggregate is what the fields at their offsets say. -/
theorem splitFrame_cases (hdr : VnetHdr) (frame : Bytes) :
    (Splits hdr frame ∧ splitFrame hdr frame = .ok (aggregate frame)) ∨
      (¬ Splits hdr frame ∧ ∃ e, splitFrame hdr frame = fail e) := by
  have hsum : headersLen frame = ipHeaderLen frame + tcpHeaderLen frame := rfl
  rw [splitFrame]
  by_cases hguard : hdr.gsoSize = 0 ∨ frame = []
  · refine Or.inr ⟨?_, .malformed, if_pos hguard⟩
    intro h
    rcases hguard with hsize | rfl
    · exact h.gsoSize hsize
    · exact absurd h.payload (Nat.not_lt_zero _)
  have hne : 0 < frame.length := List.length_pos_iff.mpr fun h => hguard (Or.inr h)
  rw [if_neg hguard, index_of_lt hne 0, ok_bind, splitIp_eq]
  by_cases hip : version frame = 4 ∧ 20 ≤ frame.length ∨ version frame = 6 ∧ 40 ≤ frame.length
  · rw [if_pos hip, ok_bind]
    by_cases hshort : frame.length < ipHeaderLen frame + 20
    · refine Or.inr ⟨?_, .truncated, if_pos hshort⟩
      intro h
      have htcp := h.tcp
      have hpayload := h.payload
      omega
    have htcpLen : (frame.getD (ipHeaderLen frame + 12) 0 >>> 4).toNat * 4 =
        tcpHeaderLen frame := rfl
    rw [if_neg hshort, index_of_lt (by omega) 0, ok_bind, htcpLen]
    dsimp only
    rw [← hsum]
    by_cases htcp : tcpHeaderLen frame < 20 ∨ frame.length ≤ headersLen frame
    · refine Or.inr ⟨?_, .malformed, if_pos htcp⟩
      intro h
      have hdata := h.tcp
      have hpayload := h.payload
      omega
    · refine Or.inl ⟨⟨fun h => hguard (Or.inl h), ?_, by omega, by omega⟩, ?_⟩
      · exact hip.imp And.left And.left
      · rw [if_neg htcp, readAggregate_eq (by omega) (by omega)]
  · refine Or.inr ⟨?_, .malformed, by rw [if_neg hip]; rfl⟩
    intro h
    have htcp := h.tcp
    have hpayload := h.payload
    apply hip
    rcases h.version with h4 | h6
    · exact Or.inl ⟨h4, by omega⟩
    · -- the length guard of version 6 follows from the payload, its header being fixed
      have hv6 : ipHeaderLen frame = 40 := by
        rw [ipHeaderLen, if_neg (by rw [h6]; decide)]
      exact Or.inr ⟨h6, by omega⟩

/-- An IPv4 segment with its length and identification. -/
def lengthWritten (a : Aggregate) (i : Nat) (chunk seg : Bytes) : Bytes :=
  splice (splice seg 2 (BigEndian.ofNat 2 ((a.headers.length + chunk.length) % 2 ^ 16))) 4
    (BigEndian.ofNat 2 ((a.baseId + i % 2 ^ 16) % 2 ^ 16))

def headerChecksum (ipLen : Nat) (seg : Bytes) : Bytes :=
  BigEndian.ofNat 2 (0xffff - fold (wordSum ((splice seg 10 [0, 0]).take ipLen)))

def ipWritten (a : Aggregate) (i : Nat) (chunk seg : Bytes) : Bytes :=
  if a.v4 then
    splice (lengthWritten a i chunk seg) 10
      (headerChecksum a.ipLen (lengthWritten a i chunk seg))
  else splice seg 4 (BigEndian.ofNat 2 ((a.tcpLen + chunk.length) % 2 ^ 16))

def tcpWritten (a : Aggregate) (mss segments i : Nat) (seg : Bytes) : Bytes :=
  splice
    (splice seg (a.ipLen + 4)
      (BigEndian.ofNat 4 ((a.baseSeq + i * mss % 2 ^ 32) % 2 ^ 32)))
    (a.ipLen + 13) [segmentFlags a.flagsByte (i == 0) (i == segments - 1)]

/-- The bytes of an IP header that differ from one segment to the next. -/
def IpField (v4 : Prop) (j : Nat) : Prop :=
  4 ≤ j ∧ j < 6 ∨ v4 ∧ (2 ≤ j ∧ j < 4 ∨ 10 ≤ j ∧ j < 12)

/-- The sequence number, the flags and the checksum of a TCP header at `ipLen`. -/
def TcpField (ipLen j : Nat) : Prop :=
  ipLen + 4 ≤ j ∧ j < ipLen + 8 ∨ j = ipLen + 13 ∨ ipLen + 16 ≤ j ∧ j < ipLen + 18

section Writes

variable (a : Aggregate) (mss segments i : Nat) (chunk : Bytes) {seg : Bytes}

theorem length_lengthWritten (h : 6 ≤ seg.length) :
    (lengthWritten a i chunk seg).length = seg.length := by
  have hfst : (splice seg 2 (BigEndian.ofNat 2
      ((a.headers.length + chunk.length) % 2 ^ 16))).length = seg.length :=
    length_splice (by rw [BigEndian.ofNat_length]; omega)
  rw [lengthWritten, length_splice (by rw [BigEndian.ofNat_length]; omega), hfst]

theorem writeIp_eq (h : 12 ≤ seg.length) (hip : a.ipLen ≤ seg.length)
    (hlen : seg.length ≤ 100000) : writeIp a i chunk seg = .ok (ipWritten a i chunk seg) := by
  rw [writeIp, ipWritten]
  split
  · have hfst : (splice seg 2 (BigEndian.ofNat 2
        ((a.headers.length + chunk.length) % 2 ^ 16))).length = seg.length :=
      length_splice (by rw [BigEndian.ofNat_length]; omega)
    have hsnd := length_lengthWritten a i chunk (show 6 ≤ seg.length by omega)
    have hten : 10 + 2 ≤ (lengthWritten a i chunk seg).length := by omega
    have hzero : (splice (lengthWritten a i chunk seg) 10 [0, 0]).length = seg.length :=
      (length_splice hten).trans hsnd
    have hsum := wordSum_le ((splice (lengthWritten a i chunk seg) 10 [0, 0]).take a.ipLen)
    rw [List.length_take] at hsum
    dsimp only
    rw [overwrite_of_le (by rw [BigEndian.ofNat_length]; omega) (by rw [BigEndian.ofNat_length]),
      ok_bind,
      overwrite_of_le (by rw [BigEndian.ofNat_length]; omega) (by rw [BigEndian.ofNat_length]),
      ok_bind, ← lengthWritten, update_update_bind hten rfl,
      slice_of_le a.ipLen (Nat.zero_add _) (by omega), ok_bind, field_zero,
      internetChecksum_of_lt (by omega), ok_bind, Nat.zero_add, ← headerChecksum,
      overwrite_of_le (by rw [headerChecksum, BigEndian.ofNat_length]; omega)
        (by rw [headerChecksum, BigEndian.ofNat_length]),
      splice_splice hten (by rw [headerChecksum, BigEndian.ofNat_length]; rfl)]
  · exact overwrite_of_le (by rw [BigEndian.ofNat_length]; omega) (by rw [BigEndian.ofNat_length])

theorem length_tcpWritten (h : a.ipLen + 20 ≤ seg.length) :
    (tcpWritten a mss segments i seg).length = seg.length := by
  have hfst : (splice seg (a.ipLen + 4) (BigEndian.ofNat 4
      ((a.baseSeq + i * mss % 2 ^ 32) % 2 ^ 32))).length = seg.length :=
    length_splice (by rw [BigEndian.ofNat_length]; omega)
  rw [tcpWritten, length_splice (by rw [List.length_singleton]; omega), hfst]

theorem writeTcp_eq (h : a.ipLen + 20 ≤ seg.length) (hlen : seg.length ≤ 100000)
    (hl4 : a.tcpLen + chunk.length ≤ 100000) :
    writeTcp a mss segments i chunk seg =
      if a.ipLen < fixedHeaderLen (tcpWritten a mss segments i seg) then .error .panic
      else .ok (splice (tcpWritten a mss segments i seg) (a.ipLen + 16)
        (checksumAt (tcpWritten a mss segments i seg) a.ipLen (a.ipLen + 16)
          (a.tcpLen + chunk.length))) := by
  have hfst : (splice seg (a.ipLen + 4) (BigEndian.ofNat 4
      ((a.baseSeq + i * mss % 2 ^ 32) % 2 ^ 32))).length = seg.length :=
    length_splice (by rw [BigEndian.ofNat_length]; omega)
  have hsnd := length_tcpWritten a mss segments i h
  rw [writeTcp]
  dsimp only
  rw [overwrite_of_le (by rw [BigEndian.ofNat_length]; omega) (by rw [BigEndian.ofNat_length]),
    ok_bind, update_of_lt (by omega), ok_bind, ← tcpWritten,
    writeChecksum_eq (by omega) (by omega) (by omega) (by omega)]

theorem getElem?_lengthWritten {j : Nat} (h : 6 ≤ seg.length) (hj : j < 2 ∨ 6 ≤ j) :
    (lengthWritten a i chunk seg)[j]? = seg[j]? := by
  have hfst : 2 + (BigEndian.ofNat 2
      ((a.headers.length + chunk.length) % 2 ^ 16)).length ≤ seg.length := by
    rw [BigEndian.ofNat_length]
    omega
  rw [lengthWritten, getElem?_splice_of_disjoint _ (by rw [BigEndian.ofNat_length]; omega),
    getElem?_splice_of_disjoint hfst (by rw [BigEndian.ofNat_length]; omega)]
  rw [length_splice hfst, BigEndian.ofNat_length]
  exact h

theorem getElem?_ipWritten {j : Nat} (h : 12 ≤ seg.length) (hj : ¬ IpField (a.v4 = true) j) :
    (ipWritten a i chunk seg)[j]? = seg[j]? := by
  unfold IpField at hj
  rw [ipWritten]
  split
  · rename_i hv4
    simp only [hv4, eq_self, true_and] at hj
    have hlen := length_lengthWritten a i chunk (show 6 ≤ seg.length by omega)
    have hten : (headerChecksum a.ipLen (lengthWritten a i chunk seg)).length = 2 :=
      BigEndian.ofNat_length 2 _
    rw [getElem?_splice_of_disjoint (by omega) (by omega)]
    exact getElem?_lengthWritten a i chunk (by omega) (by omega)
  · exact getElem?_splice_of_disjoint (by rw [BigEndian.ofNat_length]; omega)
      (by rw [BigEndian.ofNat_length]; omega)

theorem getElem?_tcpWritten {j : Nat} (h : a.ipLen + 20 ≤ seg.length)
    (hj : ¬ TcpField a.ipLen j) : (tcpWritten a mss segments i seg)[j]? = seg[j]? := by
  unfold TcpField at hj
  have hfst : a.ipLen + 4 + (BigEndian.ofNat 4
      ((a.baseSeq + i * mss % 2 ^ 32) % 2 ^ 32)).length ≤ seg.length := by
    rw [BigEndian.ofNat_length]
    omega
  rw [tcpWritten, getElem?_splice_of_disjoint _ (by rw [List.length_singleton]; omega),
    getElem?_splice_of_disjoint hfst (by rw [BigEndian.ofNat_length]; omega)]
  rw [length_splice hfst, List.length_singleton]
  omega

theorem length_ipWritten (h : 12 ≤ seg.length) :
    (ipWritten a i chunk seg).length = seg.length := by
  rw [ipWritten]
  split
  · have hlen := length_lengthWritten a i chunk (show 6 ≤ seg.length by omega)
    rw [length_splice (by rw [headerChecksum, BigEndian.ofNat_length]; omega), hlen]
  · exact length_splice (by rw [BigEndian.ofNat_length]; omega)

end Writes

/-- Segment `i` with its IP header written. -/
def ipBytes (frame : Bytes) (i : Nat) (chunk : Bytes) : Bytes :=
  ipWritten (aggregate frame) i chunk (frame.take (headersLen frame) ++ chunk)

/-- Segment `i` before its TCP checksum. -/
def unsummed (frame : Bytes) (mss segments i : Nat) (chunk : Bytes) : Bytes :=
  tcpWritten (aggregate frame) mss segments i (ipBytes frame i chunk)

def segmentBytes (frame : Bytes) (mss segments i : Nat) (chunk : Bytes) : Bytes :=
  splice (unsummed frame mss segments i chunk) (ipHeaderLen frame + 16)
    (checksumAt (unsummed frame mss segments i chunk) (ipHeaderLen frame)
      (ipHeaderLen frame + 16) (tcpHeaderLen frame + chunk.length))

theorem Splits.headersLen_ge {hdr : VnetHdr} {frame : Bytes} (h : Splits hdr frame) :
    ipHeaderLen frame + 20 ≤ headersLen frame := by
  have htcp := h.tcp
  unfold headersLen
  omega

section Built

variable {hdr : VnetHdr} {frame : Bytes} (h : Splits hdr frame) (mss segments i : Nat)
  (chunk : Bytes)

include h

theorem length_bare : (frame.take (headersLen frame) ++ chunk).length =
    headersLen frame + chunk.length := by
  have hpayload := h.payload
  rw [List.length_append, List.length_take]
  omega

theorem length_ipBytes : (ipBytes frame i chunk).length = headersLen frame + chunk.length := by
  have hheaders := h.headersLen_ge
  have hbare := length_bare h chunk
  rw [ipBytes, length_ipWritten _ _ _ (by omega), hbare]

theorem length_unsummed :
    (unsummed frame mss segments i chunk).length = headersLen frame + chunk.length := by
  have hheaders := h.headersLen_ge
  have hip := length_ipBytes h i chunk
  have hipLen := aggregate_ipLen frame
  rw [unsummed, length_tcpWritten _ _ _ _ (by omega), hip]

theorem getElem?_ipBytes {j : Nat} (hip : ¬ IpField (version frame = 4) j) :
    (ipBytes frame i chunk)[j]? = (frame.take (headersLen frame) ++ chunk)[j]? := by
  have hheaders := h.headersLen_ge
  have hbare := length_bare h chunk
  have hv4 : ((aggregate frame).v4 = true) = (version frame = 4) := decide_eq_true_eq
  rw [ipBytes, getElem?_ipWritten _ _ _ (by omega)]
  rw [hv4]
  exact hip

theorem getElem?_unsummed {j : Nat} (htcp : ¬ TcpField (ipHeaderLen frame) j) :
    (unsummed frame mss segments i chunk)[j]? = (ipBytes frame i chunk)[j]? := by
  have hheaders := h.headersLen_ge
  have hip := length_ipBytes h i chunk
  have hipLen := aggregate_ipLen frame
  exact getElem?_tcpWritten _ _ _ _ (by omega) htcp

theorem getElem?_bare {j : Nat} (hj : j < headersLen frame) :
    (frame.take (headersLen frame) ++ chunk)[j]? = frame[j]? := by
  have hpayload := h.payload
  rw [List.getElem?_append_left (by rw [List.length_take]; omega), List.getElem?_take_of_lt hj]

theorem fixedHeaderLen_unsummed :
    fixedHeaderLen (unsummed frame mss segments i chunk) = fixedHeaderLen frame := by
  have hheaders := h.headersLen_ge
  have hfirst : (unsummed frame mss segments i chunk)[0]? = frame[0]? := by
    rw [getElem?_unsummed h _ _ _ _ (by unfold TcpField; omega),
      getElem?_ipBytes h _ _ (by unfold IpField; omega)]
    exact getElem?_bare h chunk (by omega)
  rw [fixedHeaderLen, fixedHeaderLen, version, version, getD_congr hfirst]

theorem segment_eq (hchunk : headersLen frame + chunk.length ≤ 100000) :
    segment (aggregate frame) mss segments i chunk =
      if ipHeaderLen frame < fixedHeaderLen frame then .error .panic
      else .ok (segmentBytes frame mss segments i chunk) := by
  have hheaders := h.headersLen_ge
  have hbare := length_bare h chunk
  have hip := length_ipBytes h i chunk
  have hsum : headersLen frame = ipHeaderLen frame + tcpHeaderLen frame := rfl
  have htake : (aggregate frame).headers = frame.take (headersLen frame) := rfl
  have hipLen := aggregate_ipLen frame
  have htcpLen : (aggregate frame).tcpLen = tcpHeaderLen frame := rfl
  rw [segment, htake, writeIp_eq _ _ _ (by omega) (by omega) (by omega), ok_bind, ← ipBytes,
    writeTcp_eq _ _ _ _ _ (by omega) (by omega) (by omega), ← unsummed,
    fixedHeaderLen_unsummed h]
  rfl

end Built

def segmentCount (hdr : VnetHdr) (frame : Bytes) : Nat :=
  (frame.length - headersLen frame + hdr.gsoSize.toNat - 1) / hdr.gsoSize.toNat

def chunkAt (hdr : VnetHdr) (frame : Bytes) (i : Nat) : Bytes :=
  field (frame.drop (headersLen frame)) (i * hdr.gsoSize.toNat) hdr.gsoSize.toNat

/-- Packet `i` of what the loop of `segment_tcp` puts out. -/
def packetAt (hdr : VnetHdr) (frame : Bytes) (i : Nat) : Bytes :=
  segmentBytes frame hdr.gsoSize.toNat (segmentCount hdr frame) i (chunkAt hdr frame i)

theorem length_chunkAt_le (hdr : VnetHdr) (frame : Bytes) (i : Nat) :
    (chunkAt hdr frame i).length ≤ frame.length - headersLen frame := by
  have hfield := length_field_le (frame.drop (headersLen frame)) (i * hdr.gsoSize.toNat)
    hdr.gsoSize.toNat
  rw [List.length_drop] at hfield
  exact hfield

theorem exec_pushSegments {a : Aggregate} {mss count : Nat} {f : Bytes × Nat → Bytes}
    {cs : List (Bytes × Nat)} (h : ∀ c ∈ cs, segment a mss count c.2 c.1 = .ok (f c))
    (out : List Bytes) :
    (pushSegments a mss count cs).exec out = (.ok (), out ++ cs.map f) := by
  induction cs generalizing out with
  | nil =>
    rw [List.map_nil, List.append_nil]
    rfl
  | cons c cs ih =>
    rw [List.forall_mem_cons] at h
    rw [pushSegments, h.1]
    change (pushSegments a mss count cs).exec (out ++ [f c]) = _
    rw [ih h.2, List.map_cons, List.append_assoc]
    rfl

theorem exec_pushSegments_panic {a : Aggregate} {mss count : Nat} {cs : List (Bytes × Nat)}
    (hne : cs ≠ []) (h : ∀ c ∈ cs, segment a mss count c.2 c.1 = .error .panic)
    (out : List Bytes) : (pushSegments a mss count cs).exec out = (.error .panic, out) := by
  cases cs with
  | nil => exact absurd rfl hne
  | cons c cs =>
    rw [List.forall_mem_cons] at h
    rw [pushSegments, h.1]
    rfl

namespace Splits

variable {hdr : VnetHdr} {frame : Bytes}

theorem gsoSize_pos (h : Splits hdr frame) : 0 < hdr.gsoSize.toNat := by
  apply Nat.pos_of_ne_zero
  intro hzero
  exact h.gsoSize (UInt16.toNat_inj.mp hzero)

theorem segmentCount_pos (h : Splits hdr frame) : 0 < segmentCount hdr frame := by
  have hpayload := h.payload
  have hmss := h.gsoSize_pos
  exact Nat.div_pos (by omega) hmss

theorem exec_eq_push (h : Splits hdr frame) (out : List Bytes) :
    (segmentTcp hdr frame).exec out =
      (pushSegments (aggregate frame) hdr.gsoSize.toNat (segmentCount hdr frame)
        ((List.range (segmentCount hdr frame)).map fun i => (chunkAt hdr frame i, i))).exec
        out := by
  have hsplit : splitFrame hdr frame = .ok (aggregate frame) := by
    rcases splitFrame_cases hdr frame with ⟨-, hok⟩ | ⟨hnot, -⟩
    · exact hok
    · exact absurd h hnot
  have hzip : (chunks hdr.gsoSize.toNat (frame.drop (headersLen frame))).zipIdx =
      (List.range (segmentCount hdr frame)).map fun i => (chunkAt hdr frame i, i) := by
    rw [zipIdx_chunks, List.length_drop]
    rfl
  have hcount : ((frame.drop (headersLen frame)).length + hdr.gsoSize.toNat - 1) /
      hdr.gsoSize.toNat = segmentCount hdr frame := by
    rw [List.length_drop]
    rfl
  rw [← hzip, ← hcount, segmentTcp, hsplit]
  rfl

theorem exec_segmentTcp (h : Splits hdr frame) (hlen : frame.length ≤ 100000)
    (out : List Bytes) :
    (segmentTcp hdr frame).exec out =
      if ipHeaderLen frame < fixedHeaderLen frame then (.error .panic, out)
      else (.ok (), out ++ (List.range (segmentCount hdr frame)).map (packetAt hdr frame)) := by
  have hpayload := h.payload
  have hbuilt (i : Nat) := segment_eq h hdr.gsoSize.toNat (segmentCount hdr frame) i
    (chunkAt hdr frame i) (by have hchunk := length_chunkAt_le hdr frame i; omega)
  rw [h.exec_eq_push]
  split
  · rename_i hshort
    -- every segment fails alike, so the loop stops at the first and nothing is in `out`
    apply exec_pushSegments_panic
    · have hpos := h.segmentCount_pos
      rw [ne_eq, List.map_eq_nil_iff, List.range_eq_nil]
      omega
    · rw [List.forall_mem_map]
      intro i _
      rw [hbuilt i, if_pos hshort]
  · rename_i hfixed
    rw [exec_pushSegments (f := fun c => segmentBytes frame hdr.gsoSize.toNat
      (segmentCount hdr frame) c.2 c.1), List.map_map]
    · rfl
    · rw [List.forall_mem_map]
      intro i _
      rw [hbuilt i, if_neg hfixed]

end Splits

theorem exec_segmentTcp_rejected {hdr : VnetHdr} {frame : Bytes} (h : ¬ Splits hdr frame)
    (out : List Bytes) : ∃ e, (segmentTcp hdr frame).exec out = (.error (.err e), out) := by
  rcases splitFrame_cases hdr frame with ⟨hsplits, -⟩ | ⟨-, e, he⟩
  · exact absurd hsplits h
  · refine ⟨e, ?_⟩
    rw [segmentTcp, he]
    rfl

/-- The IP header lies before `csum_start`, or in front of the TCP header of a frame that
passes the guards. -/
structure HeaderCovered (hdr : VnetHdr) (frame : Bytes) : Prop where
  completed : hdr.gsoType = gsoNone → hdr.flags &&& needsCsum ≠ 0 →
    hdr.csumStart.toNat + hdr.csumOffset.toNat + 2 ≤ frame.length →
    fixedHeaderLen frame ≤ hdr.csumStart.toNat
  segmented : hdr.gsoType = gsoTcpv4 ∨ hdr.gsoType = gsoTcpv6 → Splits hdr frame →
    fixedHeaderLen frame ≤ ipHeaderLen frame

theorem expand_cases (hdr : VnetHdr) {frame : Bytes} (hlen : frame.length ≤ 100000)
    (out : List Bytes) :
    (HeaderCovered hdr frame ∧ ∃ packets, (expand hdr frame).exec out = (.ok (), out ++ packets)) ∨
      (HeaderCovered hdr frame ∧ ∃ e, (expand hdr frame).exec out = (.error (.err e), out)) ∨
      (¬ HeaderCovered hdr frame ∧ (expand hdr frame).exec out = (.error .panic, out)) := by
  rw [expand]
  by_cases hnone : hdr.gsoType = gsoNone
  · have hseg : ¬ (hdr.gsoType = gsoTcpv4 ∨ hdr.gsoType = gsoTcpv6) := by
      rw [hnone]
      decide
    rw [if_pos hnone]
    by_cases hflags : hdr.flags &&& needsCsum = 0
    · rw [if_pos hflags]
      exact Or.inl ⟨⟨fun _ h => absurd hflags h, fun h => absurd h hseg⟩, [frame], rfl⟩
    · rw [if_neg hflags, completeChecksum_eq hlen]
      by_cases hshort : frame.length < hdr.csumStart.toNat + hdr.csumOffset.toNat + 2
      · rw [if_pos hshort]
        exact Or.inr (Or.inl ⟨⟨fun _ _ h => absurd h (Nat.not_le.mpr hshort),
          fun h => absurd h hseg⟩, .truncated, rfl⟩)
      · rw [if_neg hshort]
        by_cases hcovered : hdr.csumStart.toNat < fixedHeaderLen frame
        · rw [if_pos hcovered]
          refine Or.inr (Or.inr ⟨fun h => ?_, rfl⟩)
          exact absurd (h.completed hnone hflags (by omega)) (Nat.not_le.mpr hcovered)
        · rw [if_neg hcovered]
          exact Or.inl ⟨⟨fun _ _ _ => Nat.not_lt.mp hcovered, fun h => absurd h hseg⟩, _, rfl⟩
  · rw [if_neg hnone]
    by_cases hseg : hdr.gsoType = gsoTcpv4 ∨ hdr.gsoType = gsoTcpv6
    · rw [if_pos hseg]
      by_cases hsplits : Splits hdr frame
      · rw [hsplits.exec_segmentTcp hlen]
        by_cases hcovered : ipHeaderLen frame < fixedHeaderLen frame
        · rw [if_pos hcovered]
          refine Or.inr (Or.inr ⟨fun h => ?_, rfl⟩)
          exact absurd (h.segmented hseg hsplits) (Nat.not_le.mpr hcovered)
        · rw [if_neg hcovered]
          exact Or.inl ⟨⟨fun h => absurd h hnone, fun _ _ => Nat.not_lt.mp hcovered⟩, _, rfl⟩
      · exact Or.inr (Or.inl ⟨⟨fun h => absurd h hnone, fun _ h => absurd h hsplits⟩,
          exec_segmentTcp_rejected hsplits out⟩)
    · rw [if_neg hseg]
      exact Or.inr (Or.inl ⟨⟨fun h => absurd h hnone, fun h => absurd h hseg⟩,
        .unsupportedGso hdr.gsoType, rfl⟩)

/-- A rejected frame never leaves anything behind; a panic comes exactly from a header that
ends before the addresses `pseudo_sum` reads. -/
theorem expand_returns_iff {hdr : VnetHdr} {frame : Bytes} (hlen : frame.length ≤ 65526)
    (out : List Bytes) :
    (((expand hdr frame).exec out).1 ≠ .error .panic ∧
      ∀ e, ((expand hdr frame).exec out).1 = .error (.err e) →
        ((expand hdr frame).exec out).2 = out) ↔ HeaderCovered hdr frame := by
  rcases expand_cases hdr (show frame.length ≤ 100000 by omega) out with
    ⟨hcov, packets, hexec⟩ | ⟨hcov, e, hexec⟩ | ⟨hnot, hexec⟩
  · rw [hexec]
    exact ⟨fun _ => hcov, fun _ => ⟨nofun, nofun⟩⟩
  · rw [hexec]
    exact ⟨fun _ => hcov, fun _ => ⟨nofun, fun _ _ => rfl⟩⟩
  · rw [hexec]
    exact ⟨fun h => absurd rfl h.1, fun h => absurd h hnot⟩

/-- The header of a read with NEEDS_CSUM, `csum_start` 0 and `csum_offset` 16. -/
def testStartHdr : Bytes := [1, 0, 0, 0, 0, 0, 0, 0, 16, 0]

/-- A TCP segment of 20 bytes behind an IPv4 header of 20 bytes. -/
def testTcpPacket : Bytes :=
  [0x45, 0, 0, 40, 0, 0, 0x40, 0, 64, 6, 0x26, 0xce, 10, 0, 0, 1, 10, 0, 0, 2] ++
    [0x30, 0x39, 0, 80, 0, 0, 0, 1, 0, 0, 0, 0, 0x50, 0x02, 0xff, 0xff, 0, 0, 0, 0]

/-- The header of a TCPv4 aggregate with `gso_size` 1000. -/
def testTsoHdr : VnetHdr := ⟨1, 1, 0, 1000, 16, 16⟩

/-- An aggregate whose IPv4 header says it has 16 bytes. -/
def testShortIhl : Bytes := 0x44 :: (List.replicate 27 0 ++ 0x50 :: List.replicate 12 0)

theorem expand_returns_testTcpPacket :
    testTcpPacket.length ≤ 65526 ∧
      ((expand ⟨1, 0, 0, 0, 20, 16⟩ testTcpPacket).exec []).1 ≠ .error .panic :=
  ⟨by decide, ((expand_returns_iff (by decide) []).mpr
    ⟨fun _ _ _ => by decide, fun h => absurd h (by decide)⟩).1⟩

theorem expand_panics :
    (parse testStartHdr).map (fun hdr => ((expand hdr testTcpPacket).exec []).1) =
        some (.error .panic) ∧
      ((expand testTsoHdr testShortIhl).exec []).1 = .error .panic := by
  have hsplits : Splits testTsoHdr testShortIhl :=
    ⟨by decide, Or.inl (by decide), by decide, by decide⟩
  have hlen : testShortIhl.length ≤ 100000 := by decide
  have hshort : ipHeaderLen testShortIhl < fixedHeaderLen testShortIhl := by decide
  refine ⟨by decide +kernel, ?_⟩
  have hexec : (expand testTsoHdr testShortIhl).exec [] =
      (segmentTcp testTsoHdr testShortIhl).exec [] := rfl
  rw [hexec, hsplits.exec_segmentTcp hlen, if_pos hshort]

end Vnet

end Straw
