import Mathlib.Data.List.AList
import Straw.Capsule.Buffer

/-!
# Compression contexts of a bind session

A context tells how a datagram conveys its remote: an uncompressed context spells the
address out in every datagram, a compressed one is bound to one remote. Contexts are
proposed, acknowledged and closed by capsules on the request stream.
-/

namespace Straw

open Codec Outcome
set_option autoImplicit false

def capsuleCompressionAssign : Nat := 0x11
def capsuleCompressionAck : Nat := 0x12
def capsuleCompressionClose : Nat := 0x13
def capsuleObservedAddress : Nat := 0x14

def firstUncompressedContext : Nat := 2

inductive Binding where
  | uncompressed
  | compressed (remote : SocketAddr)
deriving DecidableEq

structure CompressionAssign where
  contextId : Nat
  binding : Binding
deriving DecidableEq

structure BoundDatagram where
  contextId : Nat
  remote : SocketAddr
  payload : Bytes
deriving DecidableEq

inductive ContextError where
  | notClientAllocated (id : Nat)
  | duplicate (id : Nat)
  | unknown (id : Nat)
  | decode (e : DecodeError)
deriving DecidableEq

def ContextError.toString : ContextError → String
  | .notClientAllocated id => s!"context id {id} is not even (client-allocated)"
  | .duplicate id => s!"context id {id} already registered"
  | .unknown id => s!"unknown context id {id}"
  | .decode e => "malformed context datagram: " ++ e.toString

section Addresses

def putAddr (addr : SocketAddr) : Bytes :=
  (match addr.ip with
    | .v4 v4 => 4 :: v4.octets
    | .v6 v6 => 6 :: v6.octets) ++ BigEndian.ofNat 2 addr.port.toNat

def getIp (version : UInt8) (buf : Bytes) : Except DecodeError (IpAddr × Bytes) := do
  if version = 4 then
    let (o, buf) ← getSlice 4 buf
    .ok (.v4 (Ipv4Addr.ofOctets o), buf)
  else if version = 6 then
    let (o, buf) ← getSlice 16 buf
    .ok (.v6 (Ipv6Addr.ofOctets o), buf)
  else .error (.invalidIpVersion version)

def getAddr (version : UInt8) (buf : Bytes) : Except DecodeError (SocketAddr × Bytes) := do
  let (ip, buf) ← getIp version buf
  if buf.length < 2 then .error .underflow
  else .ok (SocketAddr.new ip (UInt16.ofNat (BigEndian.toNat (buf.take 2))), buf.drop 2)

/-- What the wire keeps of an address: flow label and scope are not sent. -/
def SocketAddr.onWire (addr : SocketAddr) : SocketAddr := SocketAddr.new addr.ip addr.port

theorem getAddr_append {version : UInt8} {ip : IpAddr} {bs : Bytes} (addr : SocketAddr)
    (rest : Bytes)
    (h : ∀ rest, getIp version (bs ++ rest) = .ok (ip, rest)) :
    getAddr version (bs ++ BigEndian.ofNat 2 addr.port.toNat ++ rest) =
      .ok (SocketAddr.new ip addr.port, rest) := by
  have hlen : (BigEndian.ofNat 2 addr.port.toNat).length = 2 := BigEndian.ofNat_length 2 _
  have hfits : ¬ (BigEndian.ofNat 2 addr.port.toNat ++ rest).length < 2 := by
    rw [List.length_append, hlen]
    omega
  have hport : BigEndian.toNat (BigEndian.ofNat 2 addr.port.toNat) = addr.port.toNat := by
    rw [BigEndian.toNat_ofNat]
    exact Nat.mod_eq_of_lt addr.port.toNat_lt
  unfold getAddr
  rw [List.append_assoc, h]
  simp only [bind, Except.bind, if_neg hfits, List.take_left' hlen, List.drop_left' hlen, hport,
    UInt16.ofNat_toNat]

theorem putAddr_read (addr : SocketAddr) :
    ∃ version tail, putAddr addr = version :: tail ∧ version ≠ 0 ∧
      ∀ rest, getAddr version (tail ++ rest) = .ok (addr.onWire, rest) := by
  unfold putAddr SocketAddr.onWire
  cases addr.ip with
  | v4 v4 =>
    refine ⟨4, v4.octets ++ BigEndian.ofNat 2 addr.port.toNat, rfl, by decide, ?_⟩
    intro rest
    apply getAddr_append
    intro rest
    have hslice : getSlice 4 (v4.octets ++ rest) = .ok (v4.octets, rest) :=
      getSlice_append (BigEndian.ofNat_length 4 _) rest
    simp only [getIp, if_pos, hslice, bind, Except.bind, Ipv4Addr.ofOctets_octets]
  | v6 v6 =>
    refine ⟨6, v6.octets ++ BigEndian.ofNat 2 addr.port.toNat, rfl, by decide, ?_⟩
    intro rest
    apply getAddr_append
    intro rest
    have hslice : getSlice 16 (v6.octets ++ rest) = .ok (v6.octets, rest) :=
      getSlice_append (BigEndian.ofNat_length 16 _) rest
    have hversion : ¬ (6 : UInt8) = 4 := by decide
    simp only [getIp, if_neg hversion, if_pos, hslice, bind, Except.bind, Ipv6Addr.ofOctets_octets]

end Addresses

section Capsules

variable {ε : Type}

def CompressionAssign.body (assign : CompressionAssign) : Outcome ε Bytes := do
  let id ← expect (writeVarint assign.contextId)
  match assign.binding with
  -- version 0 marks an uncompressed context
  | .uncompressed => .ok (id ++ [0])
  | .compressed addr => .ok (id ++ putAddr addr)

def CompressionAssign.encode (assign : CompressionAssign) : Outcome ε Bytes := do
  let body ← assign.body
  let type ← expect (writeVarint capsuleCompressionAssign)
  let length ← expect (writeVarint body.length)
  .ok (type ++ length ++ body)

def CompressionAssign.decode (body : Bytes) : Except DecodeError CompressionAssign := do
  let (contextId, body) ← readVarint body
  let (version, body) ← getU8 body
  let (binding, body) ←
    if version = 0 then .ok (Binding.uncompressed, body)
    else do
      let (addr, body) ← getAddr version body
      .ok (Binding.compressed addr, body)
  if body = [] then .ok ⟨contextId, binding⟩ else .error (.trailingBytes body.length)

def encodeContextCapsule (capsuleType contextId : Nat) : Outcome ε Bytes := do
  let type ← expect (writeVarint capsuleType)
  let len ← expect (varintLen contextId)
  let length ← expect (writeVarint len)
  let id ← expect (writeVarint contextId)
  .ok (type ++ length ++ id)

def decodeContextCapsule (body : Bytes) : Except DecodeError Nat := do
  let (contextId, body) ← readVarint body
  if body = [] then .ok contextId else .error (.trailingBytes body.length)

def decodeObservedAddress (body : Bytes) : Except DecodeError SocketAddr := do
  let (version, body) ← getU8 body
  let (addr, body) ← getAddr version body
  if body = [] then .ok addr else .error (.trailingBytes body.length)

def Binding.onWire : Binding → Binding
  | .uncompressed => .uncompressed
  | .compressed addr => .compressed addr.onWire

theorem length_putAddr_le (addr : SocketAddr) : (putAddr addr).length ≤ 19 := by
  unfold putAddr
  cases addr.ip with
  | v4 v4 => simp [Ipv4Addr.octets]
  | v6 v6 => simp [Ipv6Addr.octets]

theorem CompressionAssign.body_ok {assign : CompressionAssign} (h : assign.contextId < 2 ^ 62) :
    ∃ body, (assign.body : Outcome ε Bytes) = .ok body ∧ body.length < 2 ^ 62 ∧
      CompressionAssign.decode body = .ok ⟨assign.contextId, assign.binding.onWire⟩ := by
  obtain ⟨id, hid⟩ := writeVarint_ok h
  have hlen : id.length ≤ 8 := length_writeVarint_le hid
  have hbody : (assign.body : Outcome ε Bytes) =
      .ok (id ++ match assign.binding with | .uncompressed => [0] | .compressed addr => putAddr addr) := by
    unfold body
    rw [hid]
    cases assign.binding with
    | uncompressed => rfl
    | compressed addr => rfl
  refine ⟨_, hbody, ?_, ?_⟩
  · rw [List.length_append]
    cases assign.binding with
    | uncompressed => simp only [List.length_singleton]; omega
    | compressed addr =>
      have haddr := length_putAddr_le addr
      simp only
      omega
  · unfold decode
    rw [readVarint_writeVarint hid]
    cases assign.binding with
    | uncompressed => rfl
    | compressed addr =>
      obtain ⟨version, tail, hput, hversion, hread⟩ := putAddr_read addr
      have hget : getAddr version tail = .ok (addr.onWire, []) := by simpa using hread []
      simp only [bind, Except.bind, hput, getU8, if_neg hversion, hget, if_pos, Binding.onWire]

theorem nextCapsule_frame {capsuleType : Nat} {body : Bytes} (htype : capsuleType < 2 ^ 62)
    (hunknown : capsuleType ∉ knownTypes) (hlen : body.length < 2 ^ 62) :
    ∃ type length, writeVarint capsuleType = .ok type ∧ writeVarint body.length = .ok length ∧
      nextCapsule (type ++ length ++ body) = (.ok (some (.unknown capsuleType body)), []) := by
  obtain ⟨type, htype⟩ := writeVarint_ok htype
  obtain ⟨length, hlength⟩ := writeVarint_ok hlen
  refine ⟨type, length, htype, hlength, ?_⟩
  have hnext := nextCapsule_payload htype hlength []
  rwa [decodePayload_unknown hunknown, List.append_nil] at hnext

/-- The other end takes a proposal from its buffer as it was made, but for what the wire
does not keep of the address. -/
theorem CompressionAssign.encode_ok {assign : CompressionAssign} (h : assign.contextId < 2 ^ 62) :
    ∃ bs, (assign.encode : Outcome ε Bytes) = .ok bs ∧
      ∃ body, nextCapsule bs = (.ok (some (.unknown capsuleCompressionAssign body)), []) ∧
        CompressionAssign.decode body = .ok ⟨assign.contextId, assign.binding.onWire⟩ := by
  obtain ⟨body, hbody, hlen, hdecode⟩ :
    ∃ body, (assign.body : Outcome ε Bytes) = .ok body ∧ _ ∧ _ := body_ok h
  have hframe : ∃ type length, writeVarint capsuleCompressionAssign = .ok type ∧ _ :=
    nextCapsule_frame (by decide) (by decide) hlen
  obtain ⟨type, length, htype, hlength, hnext⟩ := hframe
  refine ⟨type ++ length ++ body, ?_, body, hnext, hdecode⟩
  simp only [encode, hbody, htype, hlength, expect, bind, Except.bind]

end Capsules

/-- Active and proposed contexts. The order of the entries stands for the iteration order
of the hash map. -/
structure ContextTable where
  contexts : AList fun _ : Nat => Binding
  pending : AList fun _ : Nat => Binding

namespace ContextTable

def empty : ContextTable := ⟨∅, ∅⟩

def register (t : ContextTable) (assign : CompressionAssign) : Except ContextError ContextTable :=
  if assign.contextId % 2 ≠ 0 then .error (.notClientAllocated assign.contextId)
  else if assign.contextId ∈ t.contexts ∨ assign.contextId ∈ t.pending then
    .error (.duplicate assign.contextId)
  else .ok { t with pending := t.pending.insert assign.contextId assign.binding }

def ack (t : ContextTable) (contextId : Nat) : Except ContextError ContextTable :=
  match t.pending.lookup contextId with
  | none => .error (.unknown contextId)
  | some binding => .ok ⟨t.contexts.insert contextId binding, t.pending.erase contextId⟩

def close (t : ContextTable) (contextId : Nat) : ContextTable :=
  ⟨t.contexts.erase contextId, t.pending.erase contextId⟩

def binding (t : ContextTable) (contextId : Nat) : Option Binding := t.contexts.lookup contextId

def compressedContextFor (t : ContextTable) (remote : SocketAddr) : Option Nat :=
  t.contexts.entries.findSome? fun entry =>
    match entry.2 with
    | .compressed addr => if addr = remote then some entry.1 else none
    | .uncompressed => none

def uncompressedContext (t : ContextTable) : Option Nat :=
  t.contexts.entries.findSome? fun entry =>
    match entry.2 with
    | .uncompressed => some entry.1
    | .compressed _ => none

def decodeDatagram (t : ContextTable) (buf : Bytes) : Except ContextError BoundDatagram := do
  let (contextId, buf) ← (readVarint buf).mapError .decode
  match t.binding contextId with
  | none => .error (.unknown contextId)
  | some (.compressed remote) => .ok ⟨contextId, remote, buf⟩
  | some .uncompressed =>
    let (version, buf) ← (getU8 buf).mapError .decode
    let (remote, buf) ← (getAddr version buf).mapError .decode
    .ok ⟨contextId, remote, buf⟩

def encodeDatagram (t : ContextTable) (contextId : Nat) (remote : SocketAddr) (payload : Bytes) :
    Outcome ContextError Bytes := do
  let id ← expect (writeVarint contextId)
  match t.binding contextId with
  | none => fail (.unknown contextId)
  | some (.compressed _) => .ok (id ++ payload)
  | some .uncompressed => .ok (id ++ putAddr remote ++ payload)

/-! A datagram framed with one table and decoded with another -/

variable {t t' : ContextTable} {id : Nat}

theorem carried_uncompressed (hid : id < 2 ^ 62) (ht : t.binding id = some .uncompressed)
    (ht' : t'.binding id = some .uncompressed) (remote : SocketAddr) (payload : Bytes) :
    ∃ body, t.encodeDatagram id remote payload = .ok body ∧
      t'.decodeDatagram body = .ok ⟨id, remote.onWire, payload⟩ := by
  obtain ⟨head, hhead⟩ := writeVarint_ok hid
  obtain ⟨version, tail, hput, -, hread⟩ := putAddr_read remote
  refine ⟨head ++ putAddr remote ++ payload, ?_, ?_⟩
  · simp only [encodeDatagram, hhead, expect, bind, Except.bind, ht]
  · rw [List.append_assoc]
    simp only [decodeDatagram, readVarint_writeVarint hhead, Except.mapError, bind, Except.bind, ht',
      hput, List.cons_append, getU8, hread]

theorem carried_compressed {r r' : SocketAddr} (hid : id < 2 ^ 62)
    (ht : t.binding id = some (.compressed r)) (ht' : t'.binding id = some (.compressed r'))
    (remote : SocketAddr) (payload : Bytes) :
    ∃ body, t.encodeDatagram id remote payload = .ok body ∧
      t'.decodeDatagram body = .ok ⟨id, r', payload⟩ := by
  obtain ⟨head, hhead⟩ := writeVarint_ok hid
  refine ⟨head ++ payload, ?_, ?_⟩
  · simp only [encodeDatagram, hhead, expect, bind, Except.bind, ht]
  · simp only [decodeDatagram, readVarint_writeVarint hhead, Except.mapError, bind, Except.bind, ht']

theorem not_carried {b : Binding} (hid : id < 2 ^ 62) (ht : t.binding id = some b)
    (ht' : t'.binding id = none) (remote : SocketAddr) (payload : Bytes) :
    ∃ body, t.encodeDatagram id remote payload = .ok body ∧
      t'.decodeDatagram body = .error (.unknown id) := by
  obtain ⟨head, hhead⟩ := writeVarint_ok hid
  have hunknown : ∀ rest, t'.decodeDatagram (head ++ rest) = .error (.unknown id) := by
    intro rest
    simp only [decodeDatagram, readVarint_writeVarint hhead, Except.mapError, bind, Except.bind, ht']
  cases b with
  | uncompressed =>
    refine ⟨head ++ (putAddr remote ++ payload), ?_, hunknown _⟩
    simp only [encodeDatagram, hhead, expect, bind, Except.bind, ht, List.append_assoc]
  | compressed r =>
    refine ⟨head ++ payload, ?_, hunknown payload⟩
    simp only [encodeDatagram, hhead, expect, bind, Except.bind, ht]

end ContextTable

section TableFree

def encodeUncompressedBody {ε : Type} (contextId : Nat) (remote : SocketAddr) (payload : Bytes) :
    Outcome ε Bytes := do
  let id ← expect (writeVarint contextId)
  .ok (id ++ putAddr remote ++ payload)

def decodeUncompressedBody (body : Bytes) : Except DecodeError (Nat × SocketAddr × Bytes) := do
  let (contextId, body) ← readVarint body
  let (version, body) ← getU8 body
  let (remote, body) ← getAddr version body
  .ok (contextId, remote, body)

variable {t : ContextTable}

theorem ContextTable.encodeDatagram_uncompressed {id : Nat} (h : t.binding id = some .uncompressed)
    (remote : SocketAddr) (payload : Bytes) :
    t.encodeDatagram id remote payload = encodeUncompressedBody id remote payload := by
  simp only [encodeDatagram, h, encodeUncompressedBody]

theorem ContextTable.decodeDatagram_uncompressed {body : Bytes}
    (h : ∀ id rest, readVarint body = .ok (id, rest) → t.binding id = some .uncompressed) :
    t.decodeDatagram body =
      ((decodeUncompressedBody body).map fun r => ⟨r.1, r.2.1, r.2.2⟩).mapError .decode := by
  unfold decodeDatagram decodeUncompressedBody
  cases hid : readVarint body with
  | error e => rfl
  | ok p =>
    obtain ⟨id, rest⟩ := p
    simp only [Except.mapError, bind, Except.bind, h id rest hid]
    cases getU8 rest with
    | error e => rfl
    | ok p =>
      obtain ⟨version, rest⟩ := p
      simp only
      cases getAddr version rest with
      | error e => rfl
      | ok p => rfl

end TableFree

end Straw
