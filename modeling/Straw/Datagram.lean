import Straw.Capsule.Codec

/-!
# HTTP datagrams for IP proxying

A QUIC datagram holds the quarter stream id, a context id and the payload; context 0
carries a full IP packet.
-/

namespace Straw

open Outcome Codec
set_option autoImplicit false

def contextIdIpPacket : Nat := 0

structure IpProxyingDatagram where
  contextId : Nat
  payload : Bytes
deriving DecidableEq

namespace IpProxyingDatagram

def ipPacket (packet : Bytes) : IpProxyingDatagram := ⟨contextIdIpPacket, packet⟩

def decode (buf : Bytes) : Except DecodeError IpProxyingDatagram := do
  let (contextId, payload) ← readVarint buf
  .ok ⟨contextId, payload⟩

variable {ε : Type}

def encode (d : IpProxyingDatagram) : Outcome ε Bytes := do
  let context ← expect (writeVarint d.contextId)
  .ok (context ++ d.payload)

end IpProxyingDatagram

/-- The bytes a datagram adds around an IP packet; the widest form where a length is unknown. -/
def datagramOverhead (qsid : UInt64) : Nat :=
  (varintLen qsid.toNat).toOption.getD 8 + (varintLen contextIdIpPacket).toOption.getD 8

def maxIpPacketSize (maxDatagramSize : Nat) (qsid : UInt64) : Option Nat :=
  if datagramOverhead qsid ≤ maxDatagramSize then some (maxDatagramSize - datagramOverhead qsid)
  else none

def quarterStreamId (streamId : UInt64) : UInt64 := streamId / 4

theorem quarterStreamId_lt (streamId : UInt64) : (quarterStreamId streamId).toNat < 2 ^ 62 := by
  have hlt := streamId.toNat_lt
  rw [quarterStreamId, UInt64.toNat_div]
  exact Nat.div_lt_of_lt_mul hlt

section

variable {ε : Type}

/-- Panics when the quarter stream id does not fit a varint. -/
def encodeQuicDatagram (qsid : UInt64) (datagram : IpProxyingDatagram) : Outcome ε Bytes := do
  let id ← expect (writeVarint qsid.toNat)
  let body ← datagram.encode
  .ok (id ++ body)

end

def decodeQuicDatagram (buf : Bytes) : Except DecodeError (Nat × IpProxyingDatagram) := do
  let (qsid, rest) ← readVarint buf
  let datagram ← IpProxyingDatagram.decode rest
  .ok (qsid, datagram)

theorem decode_of_encode {ε : Type} {d : IpProxyingDatagram} {bs : Bytes}
    (h : (d.encode : Outcome ε Bytes) = .ok bs) : IpProxyingDatagram.decode bs = .ok d := by
  obtain ⟨context, hcontext, hbs⟩ := bind_eq_ok.mp h
  obtain rfl := Except.ok.inj hbs
  rw [expect_eq_ok] at hcontext
  simp only [IpProxyingDatagram.decode, readVarint_writeVarint hcontext]
  rfl

theorem decodeQuicDatagram_of_encode {ε : Type} {qsid : UInt64} {d : IpProxyingDatagram}
    {wire : Bytes} (h : (encodeQuicDatagram qsid d : Outcome ε Bytes) = .ok wire) :
    decodeQuicDatagram wire = .ok (qsid.toNat, d) := by
  obtain ⟨id, hid, hrest⟩ := bind_eq_ok.mp h
  obtain ⟨body, hbody, hwire⟩ := bind_eq_ok.mp hrest
  obtain rfl := Except.ok.inj hwire
  rw [expect_eq_ok] at hid
  simp only [decodeQuicDatagram, readVarint_writeVarint hid]
  change (do let datagram ← IpProxyingDatagram.decode body; Except.ok (qsid.toNat, datagram)) = _
  rw [decode_of_encode hbody]
  rfl

end Straw
