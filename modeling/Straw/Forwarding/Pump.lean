import Straw.Forwarding.Tso

/-!
# The pumps of the TUN device

The write pump puts a null virtio-net header in front of every packet. The read pump takes
the header off every read, expands the frame and hands the packets to `ingress`; a frame
that `expand` rejects is dropped, and one it panics on ends the pump.
-/

namespace Straw

open Packet
set_option autoImplicit false

namespace Vnet

def vnetHdrLen : Nat := 10

/-- The size of the read buffer. -/
def maxPacket : Nat := 65536

def encodeNone : Bytes := List.replicate vnetHdrLen 0

/-- What the write pump gives the device. -/
def framed (packet : Bytes) : Bytes := encodeNone ++ packet

/-- One round of the read pump; the state is what `ingress` was handed so far. -/
def pumpRead (buf : Bytes) : Proc (List Bytes) VnetError Unit := fun delivered =>
  if vnetHdrLen < buf.length then
    match parse buf with
    | none => (.ok (), delivered)
    | some hdr =>
      -- `scratch` is cleared before each frame
      match (expand hdr (buf.drop vnetHdrLen)).exec [] with
      | (.ok (), scratch) => (.ok (), delivered ++ scratch)
      | (.error (.err _), _) => (.ok (), delivered)
      | (.error .panic, _) => (.error .panic, delivered)
  else (.ok (), delivered)

def readPump : List Bytes → Proc (List Bytes) VnetError Unit
  | [] => pure ()
  | buf :: reads => do
    pumpRead buf
    readPump reads

/-- The frame of a read, if it has one, keeps its IP header in front of the checksum. -/
def ReadCovered (buf : Bytes) : Prop :=
  vnetHdrLen < buf.length → ∀ hdr, parse buf = some hdr →
    HeaderCovered hdr (buf.drop vnetHdrLen)

def packetsOf (buf : Bytes) : List Bytes := ((pumpRead buf).exec []).2

theorem exec_pumpRead {buf : Bytes} (hlen : buf.length ≤ maxPacket) (delivered : List Bytes) :
    (ReadCovered buf ∧
        (pumpRead buf).exec delivered = (.ok (), delivered ++ packetsOf buf)) ∨
      (¬ ReadCovered buf ∧ (pumpRead buf).exec delivered = (.error .panic, delivered)) := by
  unfold packetsOf Proc.exec pumpRead
  by_cases hshort : vnetHdrLen < buf.length
  · cases hparse : parse buf with
    | none =>
      refine Or.inl ⟨fun _ hdr h => ?_, ?_⟩
      · rw [hparse] at h
        cases h
      · simp only [if_pos hshort, List.append_nil]
    | some hdr =>
      have hframe : (buf.drop vnetHdrLen).length ≤ 100000 := by
        unfold maxPacket at hlen
        rw [List.length_drop]
        omega
      have hread (h : HeaderCovered hdr (buf.drop vnetHdrLen)) : ReadCovered buf := by
        intro _ hdr' hparse'
        rw [← Option.some.inj (hparse.symm.trans hparse')]
        exact h
      simp only [if_pos hshort]
      rcases expand_cases hdr hframe [] with
        ⟨hcov, packets, hexec⟩ | ⟨hcov, e, hexec⟩ | ⟨hnot, hexec⟩
      · refine Or.inl ⟨hread hcov, ?_⟩
        rw [hexec]
        rfl
      · refine Or.inl ⟨hread hcov, ?_⟩
        rw [hexec]
        simp only [List.append_nil]
      · refine Or.inr ⟨fun h => hnot (h hshort hdr hparse), ?_⟩
        rw [hexec]
  · refine Or.inl ⟨fun h => absurd h hshort, ?_⟩
    simp only [if_neg hshort, List.append_nil]

/-- What `ingress` is to get for a read, by the kind of the frame in it: a packet as it is, a
packet whose checksum was left open, or an aggregate. Other kinds are dropped. -/
structure Carried (buf : Bytes) (packets : List Bytes) : Prop where
  short : buf.length ≤ vnetHdrLen → packets = []
  plain : ∀ hdr, vnetHdrLen < buf.length → parse buf = some hdr → hdr.gsoType = gsoNone →
    hdr.flags &&& needsCsum = 0 → packets = [buf.drop vnetHdrLen]
  completed : ∀ hdr, vnetHdrLen < buf.length → parse buf = some hdr →
    OpenChecksum hdr (buf.drop vnetHdrLen) → ∃ packet, packets = [packet] ∧
      TransportVerifies packet (ipHeaderLen (buf.drop vnetHdrLen)) ∧
      ∀ j, j ≠ checksumPos (buf.drop vnetHdrLen) → j ≠ checksumPos (buf.drop vnetHdrLen) + 1 →
        packet[j]? = (buf.drop vnetHdrLen)[j]?
  segmented : ∀ hdr, vnetHdrLen < buf.length → parse buf = some hdr →
    hdr.gsoType = gsoTcpv4 ∨ hdr.gsoType = gsoTcpv6 → hdr.gsoSize ≠ 0 →
    TcpAggregate (buf.drop vnetHdrLen) →
      (packets.map fun packet => packet.drop (headersLen packet)).flatten =
        (buf.drop vnetHdrLen).drop (headersLen (buf.drop vnetHdrLen)) ∧
      ∀ i packet, packets[i]? = some packet → IsSegment hdr (buf.drop vnetHdrLen) i packet
  unsupported : ∀ hdr, parse buf = some hdr → hdr.gsoType ∉ [gsoNone, gsoTcpv4, gsoTcpv6] →
    packets = []

theorem packetsOf_eq {buf : Bytes} {hdr : VnetHdr} {packets : List Bytes}
    (hlen : vnetHdrLen < buf.length) (hparse : parse buf = some hdr)
    (hexec : (expand hdr (buf.drop vnetHdrLen)).exec [] = (.ok (), packets)) :
    packetsOf buf = packets := by
  unfold packetsOf Proc.exec pumpRead
  simp only [if_pos hlen, hparse, hexec, List.nil_append]

theorem carried_packetsOf (buf : Bytes) : Carried buf (packetsOf buf) where
  short h := by
    unfold packetsOf Proc.exec pumpRead
    simp only [if_neg (Nat.not_lt.mpr h)]
  plain hdr hlen hparse hnone hflags := by
    refine packetsOf_eq hlen hparse ?_
    rw [expand, if_pos hnone, if_pos hflags]
    rfl
  completed hdr hlen hparse hopen := by
    have hpos := hopen.pos_le
    have hwf := hopen.wellFormed
    have hwritten : (transportChecksum (buf.drop vnetHdrLen)).length = 2 :=
      BigEndian.ofNat_length 2 _
    refine ⟨_, packetsOf_eq hlen hparse (hopen.expand_eq []), ?_, ?_⟩
    · apply transportVerifies_splice (OpenChecksum.start_le_pos _) hpos ?_ hwf.header
        hwf.length_lt.2
      unfold checksumPos checksumOffset
      split <;> omega
    · intro j hj hj'
      exact getElem?_splice_of_disjoint (by omega) (by omega)
  segmented hdr hlen hparse hgso hsize hagg := by
    have hsplits := hagg.splits hsize
    have hframe := hagg.size
    have hnone : hdr.gsoType ≠ gsoNone := by
      rcases hgso with h | h <;> rw [h] <;> decide
    have hexec := hsplits.exec_segmentTcp (Nat.le_trans hframe (by decide)) []
    rw [if_neg (Nat.not_lt.mpr hagg.fixedHeaderLen_le), List.nil_append] at hexec
    rw [packetsOf_eq hlen hparse (by rw [expand, if_neg hnone, if_pos hgso, hexec])]
    constructor
    · rw [List.map_map, ← flatten_chunkAt hsplits.gsoSize_pos]
      congr 1
      apply List.map_congr_left
      intro i _
      exact (isSegment_packetAt hagg hsize i).payload
    · intro i packet hi
      rw [List.getElem?_map] at hi
      obtain ⟨k, hk, rfl⟩ := Option.map_eq_some_iff.mp hi
      obtain ⟨-, rfl⟩ := List.getElem?_eq_some_iff.mp hk
      rw [List.getElem_range]
      exact isSegment_packetAt hagg hsize i
  unsupported hdr hparse hkind := by
    simp only [List.mem_cons, List.not_mem_nil, or_false, not_or] at hkind
    have hexec : (expand hdr (buf.drop vnetHdrLen)).exec [] =
        (.error (.err (.unsupportedGso hdr.gsoType)), []) := by
      rw [expand, if_neg hkind.1, if_neg (not_or.mpr hkind.2)]
      rfl
    unfold packetsOf Proc.exec pumpRead
    simp only [hparse, hexec, ite_self]

/-- A packet, a read with `csum_start` inside the IP header and another packet. -/
def testReads : List Bytes :=
  [framed testTcpPacket, testStartHdr ++ testTcpPacket, framed testTcpPacket]

end Vnet

end Straw
