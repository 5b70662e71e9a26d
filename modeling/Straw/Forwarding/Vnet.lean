import Straw.Forwarding.Packet
import Straw.Lib.Checksum

/-!
# The virtio-net header

What the TUN device hands over in front of a frame, and `expand`: frames whose
checksum the kernel left open are completed, TCP aggregates are cut at `gso_size`
into packets of their own.
-/

namespace Straw

open Outcome
set_option autoImplicit false

namespace Vnet

def needsCsum : UInt8 := 1
def gsoNone : UInt8 := 0
def gsoTcpv4 : UInt8 := 1
def gsoTcpv6 : UInt8 := 4
/-- The ECN bit or'ed into `gso_type`. -/
def gsoEcn : UInt8 := 0x80

end Vnet

structure VnetHdr where
  flags : UInt8
  gsoType : UInt8
  hdrLen : UInt16
  gsoSize : UInt16
  csumStart : UInt16
  csumOffset : UInt16
deriving DecidableEq

inductive VnetError where
  | truncated
  | unsupportedGso (gsoType : UInt8)
  | malformed
deriving DecidableEq

namespace Vnet

def le16 (lo hi : UInt8) : UInt16 := UInt16.ofNat (be16 hi lo)

def parse : Bytes → Option VnetHdr
  | flags :: gsoType :: h0 :: h1 :: g0 :: g1 :: s0 :: s1 :: o0 :: o1 :: _ =>
    some ⟨flags, gsoType &&& ~~~gsoEcn, le16 h0 h1, le16 g0 g1, le16 s0 s1, le16 o0 o1⟩
  | _ => none

/-- `+` on `u32`; an overflow panics. -/
def add32 (a b : Nat) : Outcome VnetError Nat :=
  if a + b < 2 ^ 32 then .ok (a + b) else .error .panic

def sumPart : Bytes → Nat → Outcome VnetError Nat
  | hi :: lo :: rest, sum => do sumPart rest (← add32 sum (be16 hi lo))
  | [last], sum => add32 sum (be16 last 0)
  | [], sum => .ok sum

def internetChecksum (seed : Nat) (parts : List Bytes) : Outcome VnetError Nat := do
  let sum ← parts.foldlM (fun sum part => sumPart part sum) seed
  .ok (0xffff - Packet.foldCarries sum)

def pseudoSum (ipHdr : Bytes) (l4Len : Nat) : Outcome VnetError Nat := do
  let sum ←
    if (← index ipHdr 0) >>> 4 = 4 then do
      let sum ← sumPart (← slice ipHdr 12 20) 0
      add32 sum (← index ipHdr 9).toNat
    else do
      let sum ← sumPart (← slice ipHdr 8 40) 0
      add32 sum (← index ipHdr 6).toNat
  add32 sum (l4Len % 2 ^ 32)

/-- The last lines of both ways through `expand`: zero the checksum field at `pos`, sum
the pseudo-header and everything from `start` on, and write the complement. -/
def writeChecksum (packet : Bytes) (start pos l4Len : Nat) : Outcome VnetError Bytes := do
  let packet ← update packet pos 0
  let packet ← update packet (pos + 1) 0
  let seed ← pseudoSum (← slice packet 0 start) l4Len
  let sum ← internetChecksum seed [← slice packet start packet.length]
  overwrite packet pos (pos + 2) (BigEndian.ofNat 2 sum)

def completeChecksum (hdr : VnetHdr) (frame : Bytes) : Outcome VnetError Bytes :=
  let start := hdr.csumStart.toNat
  let pos := start + hdr.csumOffset.toNat
  if frame.length < pos + 2 then fail .truncated
  else writeChecksum frame start pos (frame.length - start)

/-- What `segment_tcp` reads off an aggregate before its loop. -/
structure Aggregate where
  v4 : Bool
  ipLen : Nat
  tcpLen : Nat
  headers : Bytes
  payload : Bytes
  baseSeq : Nat
  baseId : Nat
  flagsByte : UInt8
deriving DecidableEq

def splitIp (frame : Bytes) (first : UInt8) : Outcome VnetError Nat :=
  if first >>> 4 = 4 ∧ 20 ≤ frame.length then .ok ((first &&& 0x0f).toNat * 4)
  else if first >>> 4 = 6 ∧ 40 ≤ frame.length then .ok 40
  else fail .malformed

def readBaseId (headers : Bytes) (first : UInt8) (ipLen : Nat) : Outcome VnetError Nat :=
  if 20 ≤ ipLen ∧ first >>> 4 = 4 then do
    .ok (be16 (← index headers 4) (← index headers 5))
  else .ok 0

def readAggregate (frame : Bytes) (first : UInt8) (ipLen tcpLen : Nat) :
    Outcome VnetError Aggregate := do
  let headers := frame.take (ipLen + tcpLen)
  let baseSeq ← slice headers (ipLen + 4) (ipLen + 8)
  let baseId ← readBaseId headers first ipLen
  let flagsByte ← index headers (ipLen + 13)
  .ok ⟨first >>> 4 = 4, ipLen, tcpLen, headers, frame.drop (ipLen + tcpLen),
    BigEndian.toNat baseSeq, baseId, flagsByte⟩

/-- The guards of `segment_tcp`; the header split comes from the packet itself and
`hdr_len` is not used. -/
def splitFrame (hdr : VnetHdr) (frame : Bytes) : Outcome VnetError Aggregate :=
  if hdr.gsoSize = 0 ∨ frame = [] then fail .malformed
  else do
    let first ← index frame 0
    let ipLen ← splitIp frame first
    if frame.length < ipLen + 20 then fail .truncated
    else do
      let tcpLen := ((← index frame (ipLen + 12)) >>> 4).toNat * 4
      if tcpLen < 20 ∨ frame.length ≤ ipLen + tcpLen then fail .malformed
      else readAggregate frame first ipLen tcpLen

/-- The lengths, the identification and the header checksum of segment `i`. -/
def writeIp (a : Aggregate) (i : Nat) (chunk seg : Bytes) : Outcome VnetError Bytes :=
  if a.v4 then do
    let total := (a.headers.length + chunk.length) % 2 ^ 16
    let seg ← overwrite seg 2 4 (BigEndian.ofNat 2 total)
    let id := (a.baseId + i % 2 ^ 16) % 2 ^ 16
    let seg ← overwrite seg 4 6 (BigEndian.ofNat 2 id)
    let seg ← update seg 10 0
    let seg ← update seg 11 0
    let ipsum ← internetChecksum 0 [← slice seg 0 a.ipLen]
    overwrite seg 10 12 (BigEndian.ofNat 2 ipsum)
  else
    let payloadLen := (a.tcpLen + chunk.length) % 2 ^ 16
    overwrite seg 4 6 (BigEndian.ofNat 2 payloadLen)

def segmentFlags (flags : UInt8) (isFirst isLast : Bool) : UInt8 :=
  let flags := if isLast then flags else flags &&& ~~~0x09
  if isFirst then flags else flags &&& ~~~0x80

/-- The sequence number, the flags and the TCP checksum of segment `i`. -/
def writeTcp (a : Aggregate) (mss segments i : Nat) (chunk seg : Bytes) :
    Outcome VnetError Bytes := do
  let tcpOff := a.ipLen
  let seq := (a.baseSeq + i * mss % 2 ^ 32) % 2 ^ 32
  let seg ← overwrite seg (tcpOff + 4) (tcpOff + 8) (BigEndian.ofNat 4 seq)
  let flags := segmentFlags a.flagsByte (i == 0) (i == segments - 1)
  let seg ← update seg (tcpOff + 13) flags
  writeChecksum seg tcpOff (tcpOff + 16) (a.tcpLen + chunk.length)

def segment (a : Aggregate) (mss segments i : Nat) (chunk : Bytes) : Outcome VnetError Bytes := do
  let seg ← writeIp a i chunk (a.headers ++ chunk)
  writeTcp a mss segments i chunk seg

/-- The loop of `segment_tcp`; a packet is in `out` as soon as it is built. -/
def pushSegments (a : Aggregate) (mss segments : Nat) :
    List (Bytes × Nat) → Proc (List Bytes) VnetError Unit
  | [] => pure ()
  | (chunk, i) :: rest => do
    let seg ← Proc.ofOutcome (segment a mss segments i chunk)
    Proc.modify (· ++ [seg])
    pushSegments a mss segments rest

def segmentTcp (hdr : VnetHdr) (frame : Bytes) : Proc (List Bytes) VnetError Unit := do
  let mss := hdr.gsoSize.toNat
  let a ← Proc.ofOutcome (splitFrame hdr frame)
  let segments := (a.payload.length + mss - 1) / mss
  pushSegments a mss segments (chunks mss a.payload).zipIdx

/-- The state is the vector of packets `out`. -/
def expand (hdr : VnetHdr) (frame : Bytes) : Proc (List Bytes) VnetError Unit :=
  if hdr.gsoType = gsoNone then
    if hdr.flags &&& needsCsum = 0 then Proc.modify (· ++ [frame])
    else do
      let packet ← Proc.ofOutcome (completeChecksum hdr frame)
      Proc.modify (· ++ [packet])
  else if hdr.gsoType = gsoTcpv4 ∨ hdr.gsoType = gsoTcpv6 then segmentTcp hdr frame
  else Proc.throw (.unsupportedGso hdr.gsoType)

end Vnet

end Straw
