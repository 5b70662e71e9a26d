import Straw.Forwarding.Extension
import Straw.Forwarding.Icmp
import Straw.Forwarding.Ttl

/-!
# ICMP errors, byte by byte

The builders write an error into a zeroed buffer, field after field at fixed offsets, and
each checksum when the bytes it covers are there. `Icmp.buildIcmpError` puts the same
packet together from its parts.
-/

namespace Straw

open Outcome OnesComplement
set_option autoImplicit false

namespace Icmp

open Packet

def writeV4Header (gateway origSrc : Ipv4Addr) (totalLen : Nat) (packet : Bytes) :
    Outcome ForwardingError Bytes := do
  let packet ← update packet 0 0x45
  let packet ← overwrite packet 2 4 (BigEndian.ofNat 2 totalLen)
  let packet ← update packet 8 64
  let packet ← update packet 9 1
  let packet ← overwrite packet 12 16 gateway.octets
  overwrite packet 16 20 origSrc.octets

def writeV6Header (gateway origSrc : Ipv6Addr) (icmpLen : Nat) (packet : Bytes) :
    Outcome ForwardingError Bytes := do
  let packet ← update packet 0 0x60
  let packet ← overwrite packet 4 6 (BigEndian.ofNat 2 icmpLen)
  let packet ← update packet 6 58
  let packet ← update packet 7 64
  let packet ← overwrite packet 8 24 gateway.octets
  overwrite packet 24 40 origSrc.octets

/-- The ICMP message that begins at `base`, but for its checksum. -/
def writeMessage (base : Nat) (fields : UInt8 × UInt8 × Bytes) (quoted packet : Bytes) :
    Outcome ForwardingError Bytes := do
  let packet ← update packet base fields.1
  let packet ← update packet (base + 1) fields.2.1
  let packet ← overwrite packet (base + 4) (base + 8) fields.2.2
  overwrite packet (base + 8) packet.length quoted

def writeV4Error (kind : IcmpErrorKind) (gateway origSrc : Ipv4Addr) (quoted : Bytes) :
    Outcome ForwardingError Bytes := do
  let totalLen := 20 + (8 + quoted.length)
  let packet ← writeV4Header gateway origSrc totalLen (List.replicate totalLen 0)
  let headerChecksum := ipv4Checksum (← slice packet 0 20)
  let packet ← overwrite packet 10 12 (BigEndian.ofNat 2 headerChecksum)
  let packet ← writeMessage 20 (v4Fields kind) quoted packet
  let icmpChecksum := ipv4Checksum (← slice packet 20 packet.length)
  overwrite packet 22 24 (BigEndian.ofNat 2 icmpChecksum)

def writeV6Error (kind : IcmpErrorKind) (gateway origSrc : Ipv6Addr) (quoted : Bytes) :
    Outcome ForwardingError Bytes := do
  let icmpLen := 8 + quoted.length
  let packet ← writeV6Header gateway origSrc icmpLen (List.replicate (40 + icmpLen) 0)
  let packet ← writeMessage 40 (v6Fields kind) quoted packet
  let checksum := icmpv6Checksum gateway origSrc (← slice packet 40 packet.length)
  overwrite packet 42 44 (BigEndian.ofNat 2 checksum)

namespace Buffer

def buildV4Error (kind : IcmpErrorKind) (gateway : Ipv4Addr) (original : Bytes) :
    Outcome ForwardingError (Option Bytes) :=
  buildV4ErrorWith (writeV4Error kind gateway) original

def buildV6Error (kind : IcmpErrorKind) (gateway : Ipv6Addr) (original : Bytes) :
    Outcome ForwardingError (Option Bytes) :=
  buildV6ErrorWith (writeV6Error kind gateway) original

def buildIcmpError (kind : IcmpErrorKind) (source : IcmpSource) (original : Bytes) :
    Outcome ForwardingError (Option Bytes) :=
  if original.length = 0 then .ok none
  else do
    let first ← index original 0
    if first >>> 4 = 4 then buildV4Error kind source.v4 original
    else if first >>> 4 = 6 then
      match source.v6 with
      | some gateway => buildV6Error kind gateway original
      | none => .ok none
    else .ok none

end Buffer

/-- The segments of an error in their order in the buffer. -/
def v4HeaderSegments (gateway dst : Ipv4Addr) (totalLen checksum : Nat) : List Bytes :=
  [[0x45], [0], BigEndian.ofNat 2 totalLen, [0, 0, 0, 0], [64], [1], BigEndian.ofNat 2 checksum,
    gateway.octets, dst.octets]

def v6HeaderSegments (gateway dst : Ipv6Addr) (icmpLen : Nat) : List Bytes :=
  [[0x60], [0, 0, 0], BigEndian.ofNat 2 icmpLen, [58], [64], gateway.octets, dst.octets]

def messageSegments (fields : UInt8 × UInt8 × Bytes) (quoted : Bytes) (checksum : Nat) :
    List Bytes :=
  [[fields.1], [fields.2.1], BigEndian.ofNat 2 checksum, fields.2.2, quoted]

def zeroMessage (n : Nat) : List Bytes := messageSegments (0, 0, [0, 0, 0, 0]) (List.replicate n 0) 0

section Writes

theorem length_octets4 (a : Ipv4Addr) : a.octets.length = 4 := BigEndian.ofNat_length 4 _

theorem length_octets16 (a : Ipv6Addr) : a.octets.length = 16 := BigEndian.ofNat_length 16 _

theorem flatten_v4HeaderSegments (gateway dst : Ipv4Addr) (totalLen checksum : Nat) :
    (v4HeaderSegments gateway dst totalLen checksum).flatten =
      v4Header gateway dst totalLen checksum := by
  simp [v4HeaderSegments, v4Header]

theorem flatten_v6HeaderSegments (gateway dst : Ipv6Addr) (icmpLen : Nat) :
    (v6HeaderSegments gateway dst icmpLen).flatten = v6Header gateway dst icmpLen := by
  simp [v6HeaderSegments, v6Header]

theorem flatten_messageSegments (fields : UInt8 × UInt8 × Bytes) (quoted : Bytes)
    (checksum : Nat) :
    (messageSegments fields quoted checksum).flatten = message fields quoted checksum := by
  simp [messageSegments, message]

theorem length_v4Header (gateway dst : Ipv4Addr) (totalLen checksum : Nat) :
    (v4Header gateway dst totalLen checksum).length = 20 := by
  simp [v4Header, length_octets4]

theorem length_v6Header (gateway dst : Ipv6Addr) (icmpLen : Nat) :
    (v6Header gateway dst icmpLen).length = 40 := by
  simp [v6Header, length_octets16]

theorem writeV4Header_eq (gateway origSrc : Ipv4Addr) (totalLen : Nat) (rest : List Bytes) :
    writeV4Header gateway origSrc totalLen ([[0], [0], [0, 0], [0, 0, 0, 0], [0], [0], [0, 0],
      [0, 0, 0, 0], [0, 0, 0, 0]] ++ rest).flatten =
      .ok (v4HeaderSegments gateway origSrc totalLen 0 ++ rest).flatten := by
  rw [writeV4Header, update_flatten 0 0 (by rfl) (by simp), ok_bind,
    overwrite_flatten 2 [0, 0] (by rfl) (by simp) (by simp) (by simp), ok_bind,
    update_flatten 4 0 (by rfl) (by simp), ok_bind, update_flatten 5 0 (by rfl) (by simp), ok_bind,
    overwrite_flatten 7 [0, 0, 0, 0] (by rfl) (by simp [length_octets4]) (by simp)
      (by simp [length_octets4]), ok_bind,
    overwrite_flatten 8 [0, 0, 0, 0] (by rfl) (by simp [length_octets4])
      (by simp [length_octets4]) (by simp [length_octets4])]
  rfl

theorem writeV6Header_eq (gateway origSrc : Ipv6Addr) (icmpLen : Nat) (rest : List Bytes) :
    writeV6Header gateway origSrc icmpLen ([[0], [0, 0, 0], [0, 0], [0], [0],
      List.replicate 16 0, List.replicate 16 0] ++ rest).flatten =
      .ok (v6HeaderSegments gateway origSrc icmpLen ++ rest).flatten := by
  rw [writeV6Header, update_flatten 0 0 (by rfl) (by simp), ok_bind,
    overwrite_flatten 2 [0, 0] (by rfl) (by simp) (by simp) (by simp), ok_bind,
    update_flatten 3 0 (by rfl) (by simp), ok_bind, update_flatten 4 0 (by rfl) (by simp), ok_bind,
    overwrite_flatten 5 (List.replicate 16 0) (by rfl) (by simp [length_octets16]) (by simp)
      (by simp [length_octets16]), ok_bind,
    overwrite_flatten 6 (List.replicate 16 0) (by rfl) (by simp [length_octets16])
      (by simp [length_octets16]) (by simp [length_octets16])]
  rfl

section Message

variable {header : List Bytes} {base : Nat} (hbase : header.flatten.length = base)
  {fields : UInt8 × UInt8 × Bytes} (quoted : Bytes)

include hbase

theorem writeMessage_eq (hfields : fields.2.2.length = 4) :
    writeMessage base fields quoted (header ++ zeroMessage quoted.length).flatten =
      .ok (header ++ messageSegments fields quoted 0).flatten := by
  have hstart : update (header ++ zeroMessage quoted.length).flatten base fields.1 =
      (.ok (header ++ [[fields.1], [0], [0, 0], [0, 0, 0, 0],
        List.replicate quoted.length 0]).flatten : Outcome ForwardingError Bytes) :=
    update_flatten_append (i := 0) hbase 0 0 rfl rfl fields.1
  have htail : (header ++ [[fields.1], [fields.2.1], [0, 0], fields.2.2,
      List.replicate quoted.length 0]).flatten.length = base + 8 + quoted.length := by
    rw [List.flatten_append, List.length_append, hbase]
    simp [hfields]
    omega
  rw [writeMessage, hstart, ok_bind, update_flatten_append hbase 1 0 (by rfl) (by rfl), ok_bind,
    overwrite_flatten_append hbase 3 [0, 0, 0, 0] (by rfl) hfields (by rfl) (by omega), ok_bind]
  simp only [List.set_cons_succ, List.set_cons_zero]
  rw [overwrite_flatten_append hbase 4 (List.replicate quoted.length 0) (by rfl) (by simp)
    (by simp [hfields]) htail.symm]
  rfl

/-- The checksum goes in last. -/
theorem overwrite_checksum (checksum : Nat) :
    (overwrite (header ++ messageSegments fields quoted 0).flatten (base + 2) (base + 4)
      (BigEndian.ofNat 2 checksum) : Outcome ForwardingError Bytes) =
      .ok (header.flatten ++ message fields quoted checksum) := by
  rw [overwrite_flatten_append hbase 2 [0, 0] (by rfl) (by rfl) (by rfl) (by simp),
    List.flatten_append, ← flatten_messageSegments]
  rfl

end Message

theorem length_v4Fields (kind : IcmpErrorKind) : (v4Fields kind).2.2.length = 4 := by
  cases kind <;> rfl

theorem length_v6Fields (kind : IcmpErrorKind) : (v6Fields kind).2.2.length = 4 := by
  cases kind <;> rfl

theorem writeV4Error_eq (kind : IcmpErrorKind) (gateway origSrc : Ipv4Addr) (quoted : Bytes) :
    writeV4Error kind gateway origSrc quoted = .ok (v4Message kind gateway origSrc quoted) := by
  have hzeros : List.replicate (20 + (8 + quoted.length)) 0 =
      ([[0], [0], [0, 0], [0, 0, 0, 0], [0], [0], [0, 0], [0, 0, 0, 0], [0, 0, 0, 0]] ++
        zeroMessage quoted.length).flatten := by
    rw [← Nat.add_assoc, List.replicate_add]
    simp [List.replicate, zeroMessage, messageSegments, BigEndian.ofNat]
  have hlen (c : Nat) : (v4HeaderSegments gateway origSrc (20 + (8 + quoted.length))
      c).flatten.length = 20 := by
    rw [flatten_v4HeaderSegments, length_v4Header]
  have hsum (c : Nat) : overwrite (v4HeaderSegments gateway origSrc (20 + (8 + quoted.length)) 0 ++
      zeroMessage quoted.length).flatten 10 12 (BigEndian.ofNat 2 c) =
      (.ok (v4HeaderSegments gateway origSrc (20 + (8 + quoted.length)) c ++
        zeroMessage quoted.length).flatten : Outcome ForwardingError Bytes) := by
    rw [overwrite_flatten 6 [0, 0] (by rfl) (by rfl) (by rfl) (by rfl)]
    rfl
  rw [writeV4Error]
  simp only
  rw [hzeros, writeV4Header_eq, ok_bind, slice_flatten_before (hlen 0), ok_bind, hsum, ok_bind,
    writeMessage_eq (hlen _) quoted (length_v4Fields kind), ok_bind, slice_flatten_behind (hlen _),
    ok_bind, overwrite_checksum (hlen _), flatten_v4HeaderSegments, flatten_v4HeaderSegments,
    flatten_messageSegments, v4Message]

theorem writeV6Error_eq (kind : IcmpErrorKind) (gateway origSrc : Ipv6Addr) (quoted : Bytes) :
    writeV6Error kind gateway origSrc quoted = .ok (v6Message kind gateway origSrc quoted) := by
  have hzeros : List.replicate (40 + (8 + quoted.length)) 0 =
      ([[0], [0, 0, 0], [0, 0], [0], [0], List.replicate 16 0, List.replicate 16 0] ++
        zeroMessage quoted.length).flatten := by
    rw [← Nat.add_assoc, List.replicate_add]
    simp [List.replicate, zeroMessage, messageSegments, BigEndian.ofNat]
  have hlen : (v6HeaderSegments gateway origSrc (8 + quoted.length)).flatten.length = 40 := by
    rw [flatten_v6HeaderSegments, length_v6Header]
  rw [writeV6Error]
  simp only
  rw [hzeros, writeV6Header_eq, ok_bind, writeMessage_eq hlen quoted (length_v6Fields kind),
    ok_bind, slice_flatten_behind hlen, ok_bind, overwrite_checksum hlen, flatten_v6HeaderSegments,
    flatten_messageSegments, v6Message]

end Writes

/-- The engine's builder is the one that writes into a buffer. -/
theorem Buffer.buildIcmpError_eq (kind : IcmpErrorKind) (source : IcmpSource) (original : Bytes) :
    Buffer.buildIcmpError kind source original = Icmp.buildIcmpError kind source original := by
  have hv4 : writeV4Error kind source.v4 = fun src quoted =>
      .ok (v4Message kind source.v4 src quoted) := by
    funext src quoted
    exact writeV4Error_eq kind source.v4 src quoted
  have hv6 (gateway : Ipv6Addr) : writeV6Error kind gateway = fun src quoted =>
      .ok (v6Message kind gateway src quoted) := by
    funext src quoted
    exact writeV6Error_eq kind gateway src quoted
  cases original with
  | nil => rfl
  | cons first rest =>
    rw [buildIcmpError, if_neg (by simp), index_of_lt (by simp) 0, ok_bind]
    simp only [buildV4Error, buildV6Error, hv4, hv6]
    rfl

section Guards

/-- An ICMP error in the place where `build_v4_error` looks for one. -/
def V4ErrorSeen (original : Bytes) : Prop :=
  original.getD 9 0 = 1 ∧ statedIhl original < original.length ∧
    isV4ErrorType (original.getD (statedIhl original) 0) = true

def V6ErrorSeen (original : Bytes) : Prop :=
  original.getD 6 0 = 58 ∧ 40 < original.length ∧ original.getD 40 0 < 128

instance (original : Bytes) : Decidable (V4ErrorSeen original) :=
  inferInstanceAs (Decidable (_ ∧ _))

instance (original : Bytes) : Decidable (V6ErrorSeen original) :=
  inferInstanceAs (Decidable (_ ∧ _))

/-- The last step of both builders. -/
theorem quote_eq {assemble : Bytes → Outcome ForwardingError Bytes} {original : Bytes} {n : Nat} :
    (do
      let quoted ← slice original 0 (min original.length n)
      let packet ← assemble quoted
      .ok (some packet)) = (assemble (original.take (min original.length n))).map some := by
  rw [slice_of_le (min original.length n) (Nat.zero_add _) (Nat.min_le_left _ _), ok_bind,
    field_zero]
  cases assemble (original.take (min original.length n)) <;> rfl

theorem buildV4ErrorWith_eq (assemble : Ipv4Addr → Bytes → Outcome ForwardingError Bytes)
    (original : Bytes) :
    buildV4ErrorWith assemble original =
      if 20 ≤ statedIhl original ∧ statedIhl original ≤ original.length ∧
        validErrorTarget (.v4 (Ipv4Addr.ofOctets (field original 12 4))) = true ∧
        ¬ V4ErrorSeen original then
        (assemble (Ipv4Addr.ofOctets (field original 12 4))
          (original.take (min original.length (statedIhl original + 8)))).map some
      else .ok none := by
  have hread : ((original.getD 0 0) &&& 0x0f).toNat * 4 = statedIhl original := rfl
  by_cases hok : 20 ≤ statedIhl original ∧ statedIhl original ≤ original.length
  · obtain ⟨hihl, hlen⟩ := hok
    rw [buildV4ErrorWith, if_neg (by omega), index_of_lt (by omega) 0, ok_bind,
      slice_of_le 4 rfl (by omega), index_of_lt (by omega) 0]
    simp only [hread, ok_bind, quote_eq]
    rw [if_neg (by omega)]
    cases hvalid : validErrorTarget (.v4 (Ipv4Addr.ofOctets (field original 12 4))) with
    | false => rw [if_pos Bool.not_false, if_neg fun h => Bool.noConfusion h.2.2.1]
    | true =>
      by_cases hicmp : original.getD 9 0 = 1 ∧ statedIhl original < original.length
      · rw [if_neg (by simp), if_pos hicmp, index_of_lt hicmp.2 0, ok_bind]
        by_cases htype : isV4ErrorType (original.getD (statedIhl original) 0) = true
        · rw [if_pos htype, if_neg]
          exact fun h => h.2.2.2 ⟨hicmp.1, hicmp.2, htype⟩
        · rw [if_neg htype, if_pos]
          exact ⟨hihl, hlen, rfl, fun h => htype h.2.2⟩
      · rw [if_neg (by simp), if_neg hicmp, if_neg (by simp), if_pos]
        exact ⟨hihl, hlen, rfl, fun h => hicmp ⟨h.1, h.2.1⟩⟩
  · rw [if_neg fun h => hok ⟨h.1, h.2.1⟩, buildV4ErrorWith]
    split
    · rfl
    · rw [index_of_lt (by omega) 0, ok_bind]
      exact if_pos (by omega)

theorem buildV6ErrorWith_eq (assemble : Ipv6Addr → Bytes → Outcome ForwardingError Bytes)
    (original : Bytes) :
    buildV6ErrorWith assemble original =
      if 40 ≤ original.length ∧
        validErrorTarget (.v6 (Ipv6Addr.ofOctets (field original 8 16))) = true ∧
        ¬ V6ErrorSeen original then
        (assemble (Ipv6Addr.ofOctets (field original 8 16))
          (original.take (min original.length 48))).map some
      else .ok none := by
  by_cases hlen : 40 ≤ original.length
  · rw [buildV6ErrorWith, if_neg (by omega), slice_of_le 16 rfl (by omega), ok_bind,
      index_of_lt (by omega) 0]
    simp only [ok_bind, quote_eq]
    cases hvalid : validErrorTarget (.v6 (Ipv6Addr.ofOctets (field original 8 16))) with
    | false => rw [if_pos Bool.not_false, if_neg fun h => Bool.noConfusion h.2.1]
    | true =>
      by_cases hicmp : original.getD 6 0 = 58 ∧ 40 < original.length
      · rw [if_neg (by simp), if_pos hicmp, index_of_lt hicmp.2 0, ok_bind]
        by_cases htype : original.getD 40 0 < 128
        · rw [if_pos (decide_eq_true htype), if_neg]
          exact fun h => h.2.2 ⟨hicmp.1, hicmp.2, htype⟩
        · rw [if_neg (by simpa using htype), if_pos]
          exact ⟨hlen, rfl, fun h => htype h.2.2⟩
      · rw [if_neg (by simp), if_neg hicmp, if_neg (by simp), if_pos]
        exact ⟨hlen, rfl, fun h => hicmp ⟨h.1, h.2.1⟩⟩
  · rw [if_neg fun h => hlen h.1, buildV6ErrorWith, if_pos (by omega)]

end Guards

section Packets

variable (kind : IcmpErrorKind)

theorem v4Message_eq (gateway dst : Ipv4Addr) (quoted : Bytes) :
    ∃ c d, v4Message kind gateway dst quoted =
      (v4HeaderSegments gateway dst (20 + (8 + quoted.length)) c ++
        messageSegments (v4Fields kind) quoted d).flatten := by
  refine ⟨ipv4Checksum (v4Header gateway dst (20 + (8 + quoted.length)) 0),
    ipv4Checksum (message (v4Fields kind) quoted 0), ?_⟩
  rw [List.flatten_append, flatten_v4HeaderSegments, flatten_messageSegments, v4Message]

theorem parsePacket_v4Message (gateway dst : Ipv4Addr) {quoted : Bytes}
    (hlen : quoted.length ≤ 68) :
    parsePacket (v4Message kind gateway dst quoted) = .ok ⟨4, .v4 gateway, .v4 dst, 1⟩ := by
  have htotal : (v4Message kind gateway dst quoted).length = 20 + (8 + quoted.length) := by
    simp [v4Message, message, length_v4Header, length_v4Fields]
    omega
  obtain ⟨c, d, hp⟩ := v4Message_eq kind gateway dst quoted
  have hfirst : (v4Message kind gateway dst quoted).getD 0 0 = 0x45 := rfl
  have hv : version (v4Message kind gateway dst quoted) = 4 := by
    rw [version, hfirst]
    decide
  have hihl : ipHeaderLen (v4Message kind gateway dst quoted) = 20 := by
    rw [ipHeaderLen, if_pos hv, hfirst]
    decide
  have hproto : nextProtocol (v4Message kind gateway dst quoted) = 1 := by
    rw [nextProtocol, if_pos hv]
    rfl
  have hstated : statedLen (v4Message kind gateway dst quoted) = 20 + (8 + quoted.length) := by
    rw [statedLen, if_pos hv, hp, field_flatten 2 (BigEndian.ofNat 2 (20 + (8 + quoted.length)))
      (by rfl) (by simp [v4HeaderSegments]) (by simp), BigEndian.toNat_ofNat]
    omega
  have hsrc : Packet.source (v4Message kind gateway dst quoted) = .v4 gateway := by
    rw [Packet.source, if_pos hv, hp, field_flatten 7 gateway.octets (by rfl)
      (by simp [v4HeaderSegments]) (length_octets4 gateway), Ipv4Addr.ofOctets_octets]
  have hdst : destination (v4Message kind gateway dst quoted) = .v4 dst := by
    rw [destination, if_pos hv, hp, field_flatten 8 dst.octets (by rfl)
      (by simp [v4HeaderSegments, length_octets4]) (length_octets4 dst), Ipv4Addr.ofOctets_octets]
  rw [parsePacket_v4 hv, hihl, hstated, htotal, if_pos (by omega), hsrc, hdst, hproto]

theorem v6Message_eq (gateway dst : Ipv6Addr) (quoted : Bytes) :
    ∃ d, v6Message kind gateway dst quoted =
      (v6HeaderSegments gateway dst (8 + quoted.length) ++
        messageSegments (v6Fields kind) quoted d).flatten := by
  refine ⟨icmpv6Checksum gateway dst (message (v6Fields kind) quoted 0), ?_⟩
  rw [List.flatten_append, flatten_v6HeaderSegments, flatten_messageSegments, v6Message]

theorem parsePacket_v6Message (gateway dst : Ipv6Addr) {quoted : Bytes}
    (hlen : quoted.length ≤ 48) :
    parsePacket (v6Message kind gateway dst quoted) = .ok ⟨6, .v6 gateway, .v6 dst, 58⟩ := by
  have htotal : (v6Message kind gateway dst quoted).length = 40 + (8 + quoted.length) := by
    simp [v6Message, message, length_v6Header, length_v6Fields]
    omega
  obtain ⟨d, hp⟩ := v6Message_eq kind gateway dst quoted
  have hfirst : (v6Message kind gateway dst quoted).getD 0 0 = 0x60 := rfl
  have hv : version (v6Message kind gateway dst quoted) = 6 := by
    rw [version, hfirst]
    decide
  have hne : version (v6Message kind gateway dst quoted) ≠ 4 := by
    rw [hv]
    decide
  have hnext : (v6Message kind gateway dst quoted).getD 6 0 = 58 := rfl
  have hproto : ipv6FinalProtocol (v6Message kind gateway dst quoted) = .ok 58 := by
    rw [ipv6FinalProtocol, index_of_lt (by omega) 0, ok_bind, hnext, ipv6Walk_succ]
    rfl
  have hstated : statedLen (v6Message kind gateway dst quoted) = 40 + (8 + quoted.length) := by
    rw [statedLen, if_neg hne, hp, field_flatten 2 (BigEndian.ofNat 2 (8 + quoted.length))
      (by rfl) (by simp [v6HeaderSegments]) (by simp), BigEndian.toNat_ofNat]
    omega
  have hsrc : Packet.source (v6Message kind gateway dst quoted) = .v6 gateway := by
    rw [Packet.source, if_neg hne, hp, field_flatten 5 gateway.octets (by rfl)
      (by simp [v6HeaderSegments]) (length_octets16 gateway), Ipv6Addr.ofOctets_octets]
  have hdst : destination (v6Message kind gateway dst quoted) = .v6 dst := by
    rw [destination, if_neg hne, hp, field_flatten 6 dst.octets (by rfl)
      (by simp [v6HeaderSegments, length_octets16]) (length_octets16 dst), Ipv6Addr.ofOctets_octets]
  rw [parsePacket_v6 hv, hstated, htotal, if_pos (by omega), hproto, hsrc, hdst]
  rfl

theorem v4Header_sum (gateway dst : Ipv4Addr) (totalLen : Nat) :
    ipv4Checksum (v4Header gateway dst totalLen
      (ipv4Checksum (v4Header gateway dst totalLen 0))) = 0 := by
  have hlen := length_v4Header gateway dst totalLen
  have hwrite (c : Nat) : v4Header gateway dst totalLen c =
      splice (v4Header gateway dst totalLen 0) 10 (BigEndian.ofNat 2 c) := by
    simp [v4Header, splice, BigEndian.ofNat]
  have hzero : field (v4Header gateway dst totalLen 0) 10 2 = [0, 0] := by
    simp [v4Header, field, BigEndian.ofNat]
  rw [hwrite]
  exact ipv4Checksum_written (by rw [hlen]; omega) rfl (by rw [hlen]; omega) hzero

theorem message_write (fields : UInt8 × UInt8 × Bytes) (quoted : Bytes) (c : Nat) :
    message fields quoted c = splice (message fields quoted 0) 2 (BigEndian.ofNat 2 c) := by
  simp [message, splice, BigEndian.ofNat]

/-- The checksum of a message over it and a `seed` that stands before it. -/
theorem message_sum {fields : UInt8 × UInt8 × Bytes} (hfields : fields.2.2.length = 4)
    {quoted : Bytes} (hlen : quoted.length ≤ 68) (seed : Bytes) (heven : seed.length % 2 = 0)
    (hseed : seed.length ≤ 40) :
    ipv4Checksum (seed ++ message fields quoted
      (ipv4Checksum (seed ++ message fields quoted 0))) = 0 := by
  have htotal (c : Nat) : (message fields quoted c).length = 8 + quoted.length := by
    simp [message, hfields]
    omega
  have hshort : (seed ++ message fields quoted 0).length ≤ 131070 := by
    rw [List.length_append, htotal]
    omega
  have hwrite (c : Nat) : seed ++ message fields quoted c =
      splice (seed ++ message fields quoted 0) (seed.length + 2) (BigEndian.ofNat 2 c) := by
    rw [message_write]
    exact (splice_append seed).symm
  have hzero : field (seed ++ message fields quoted 0) (seed.length + 2) 2 = [0, 0] := by
    rw [field, List.drop_length_add_append]
    simp [message, BigEndian.ofNat]
  rw [hwrite]
  exact ipv4Checksum_written hshort (by omega) (by rw [List.length_append, htotal]; omega) hzero

end Packets

end Icmp

end Straw
