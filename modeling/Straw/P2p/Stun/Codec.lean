import Straw.Capsule.Codec
import Straw.Lib.Splice

/-!
# STUN binding messages

Requests and success responses of the binding method, as the probe and the relay's
server write and read them. A response is a header that declares the length of the
attributes behind it; every attribute has a type, a length and a value padded to four
bytes. The parser stops at the declared end when it looks for the next attribute, but
lets the value of an attribute run on to the end of the buffer.
-/

namespace Straw.Stun

open Outcome
set_option autoImplicit false

def magicCookie : BitVec 32 := 0x2112A442#32
def bindingRequest : Nat := 0x0001
def bindingSuccess : Nat := 0x0101
def attrXorMappedAddress : Nat := 0x0020
def attrOtherAddress : Nat := 0x802C
def familyV4 : UInt8 := 0x01

/-- A transaction id. -/
@[ext]
structure Txid where
  bytes : Bytes
  length_eq : bytes.length = 12

instance : DecidableEq Txid := fun _ _ => decidable_of_iff _ Txid.ext_iff.symm

def cookiePort : UInt16 := UInt16.ofNat (magicCookie.toNat >>> 16)

/-- Port and address of a XOR-MAPPED-ADDRESS are folded with the magic cookie. -/
def fold (xor : Bool) (ip : Ipv4Addr) (port : UInt16) : Ipv4Addr × UInt16 :=
  if xor then (ip ^^^ magicCookie, port ^^^ cookiePort) else (ip, port)

section Encoding

def encodeBindingRequest (txid : Txid) : Bytes :=
  BigEndian.ofNat 2 bindingRequest ++ (BigEndian.ofNat 2 0 ++
    (BigEndian.ofNat 4 magicCookie.toNat ++ txid.bytes))

def encodeAddr (addr : SocketAddr) (xor : Bool) : Bytes :=
  match addr with
  | .v4 ip port =>
    let folded := fold xor ip port
    [0, familyV4] ++ (BigEndian.ofNat 2 folded.2.toNat ++ folded.1.octets)
  | .v6 _ _ _ _ => []

/-- `while body.len() % 4 != 0 { body.push(0) }`. -/
def pad (body : Bytes) : Bytes := body ++ List.replicate ((4 - body.length % 4) % 4) 0

def pushAttr (body : Bytes) (atype : Nat) (val : Bytes) : Bytes :=
  pad (body ++ (BigEndian.ofNat 2 atype ++ (BigEndian.ofNat 2 val.length ++ val)))

def encodeBindingResponse (txid : Txid) (mapped : SocketAddr) (other : Option SocketAddr) :
    Bytes :=
  let body := pushAttr [] attrXorMappedAddress (encodeAddr mapped true)
  let body := match other with
    | some o => pushAttr body attrOtherAddress (encodeAddr o false)
    | none => body
  BigEndian.ofNat 2 bindingSuccess ++ (BigEndian.ofNat 2 body.length ++
    (BigEndian.ofNat 4 magicCookie.toNat ++ (txid.bytes ++ body)))

end Encoding

section Parsing

/-- An IPv4 address; anything else in the value is no address. -/
def decodeAddr (val : Bytes) (xor : Bool) : Outcome ProxyError (Option SocketAddr) :=
  if val.length < 8 then .ok none
  else do
    let family ← index val 1
    if family ≠ familyV4 then .ok none
    else
      let port ← readU16 val 2
      let octets ← slice val 4 8
      let folded := fold xor (Ipv4Addr.ofOctets octets) (UInt16.ofNat port)
      .ok (some (.v4 folded.1 folded.2))

/-- The two addresses a response may carry. -/
structure Addresses where
  mapped : Option SocketAddr
  other : Option SocketAddr
deriving DecidableEq

def readAttribute (found : Addresses) (atype : Nat) (val : Bytes) :
    Outcome ProxyError Addresses :=
  if atype = attrXorMappedAddress then do
    let mapped ← decodeAddr val true
    .ok { found with mapped }
  else if atype = attrOtherAddress then do
    let other ← decodeAddr val false
    .ok { found with other }
  else .ok found

/-- The attribute loop. The offset grows by four at least, so it ends. -/
def readAttributes (buf : Bytes) (stop off : Nat) (found : Addresses) :
    Outcome ProxyError Addresses :=
  if h : off + 4 ≤ stop then do
    let atype ← readU16 buf off
    let alen ← readU16 buf (off + 2)
    let valStart := off + 4
    if valStart + alen > buf.length then .ok found
    else
      let val ← slice buf valStart (valStart + alen)
      let found ← readAttribute found atype val
      readAttributes buf stop (valStart + (alen + 3) / 4 * 4) found
  else .ok found
termination_by stop - off

def Addresses.result (found : Addresses) : Outcome ProxyError (SocketAddr × Option SocketAddr) :=
  match found.mapped with
  | some mapped => .ok (mapped, found.other)
  | none => fail (.quic "no XOR-MAPPED-ADDRESS")

def parseBindingResponse (buf : Bytes) (txid : Txid) :
    Outcome ProxyError (SocketAddr × Option SocketAddr) :=
  if buf.length < 20 then fail (.quic "short STUN response")
  else do
    let mtype ← readU16 buf 0
    let len ← readU16 buf 2
    let cookie ← readU32 buf 4
    let id ← slice buf 8 20
    if mtype ≠ bindingSuccess ∨ cookie ≠ magicCookie.toNat ∨ id ≠ txid.bytes then
      fail (.quic "not a matching STUN success response")
    else if 20 + len > buf.length then fail (.quic "STUN length past buffer")
    else
      let found ← readAttributes buf (20 + len) 20 ⟨none, none⟩
      found.result

end Parsing

/-! What the parser reads, without its bounds checks -/

/-- The address an attribute's value spells out. -/
def addressIn (val : Bytes) (xor : Bool) : Option SocketAddr :=
  if val.length < 8 ∨ val.getD 1 0 ≠ familyV4 then none
  else
    let folded := fold xor (Ipv4Addr.ofOctets (field val 4 4)) (UInt16.ofNat (u16At val 2))
    some (.v4 folded.1 folded.2)

theorem decodeAddr_eq (val : Bytes) (xor : Bool) : decodeAddr val xor = .ok (addressIn val xor) := by
  unfold decodeAddr addressIn
  by_cases hshort : val.length < 8
  · rw [if_pos hshort, if_pos (Or.inl hshort)]
  · rw [if_neg hshort, index_of_lt (by omega) 0, ok_bind]
    by_cases hfamily : val.getD 1 0 ≠ familyV4
    · rw [if_pos hfamily, if_pos (Or.inr hfamily)]
    · rw [if_neg hfamily, if_neg (by simp only [hshort, hfamily, or_self, not_false_eq_true]),
        readU16_eq (by omega), ok_bind, slice_of_le 4 rfl (by omega), ok_bind]

structure Attribute where
  type : Nat
  value : Bytes
deriving DecidableEq

/-- The attributes that start before `stop` and end in the buffer. -/
def attributesOf (buf : Bytes) (stop off : Nat) : List Attribute :=
  if off + 4 ≤ stop then
    let alen := u16At buf (off + 2)
    if off + 4 + alen > buf.length then []
    else ⟨u16At buf off, field buf (off + 4) alen⟩ ::
      attributesOf buf stop (off + 4 + (alen + 3) / 4 * 4)
  else []
termination_by stop - off

def Addresses.note (found : Addresses) (a : Attribute) : Addresses :=
  if a.type = attrXorMappedAddress then { found with mapped := addressIn a.value true }
  else if a.type = attrOtherAddress then { found with other := addressIn a.value false }
  else found

theorem readAttribute_eq (found : Addresses) (a : Attribute) :
    readAttribute found a.type a.value = .ok (found.note a) := by
  unfold readAttribute Addresses.note
  rw [decodeAddr_eq, decodeAddr_eq]
  by_cases hmapped : a.type = attrXorMappedAddress
  · rw [if_pos hmapped, if_pos hmapped, ok_bind]
  · rw [if_neg hmapped, if_neg hmapped]
    by_cases hother : a.type = attrOtherAddress
    · rw [if_pos hother, if_pos hother, ok_bind]
    · rw [if_neg hother, if_neg hother]

/-- Inside a buffer that holds the declared message the loop never reads out of bounds. -/
theorem readAttributes_eq {buf : Bytes} {stop : Nat} (h : stop ≤ buf.length) (off : Nat)
    (found : Addresses) :
    readAttributes buf stop off found =
      .ok ((attributesOf buf stop off).foldl Addresses.note found) := by
  induction hn : stop - off using Nat.strongRecOn generalizing off found with
  | ind n ih =>
    rw [readAttributes, attributesOf]
    by_cases hroom : off + 4 ≤ stop
    · rw [dif_pos hroom, if_pos hroom, readU16_eq (by omega), ok_bind, readU16_eq (by omega),
        ok_bind]
      by_cases hlong : off + 4 + u16At buf (off + 2) > buf.length
      · rw [if_pos hlong, if_pos hlong]
        rfl
      · rw [if_neg hlong, if_neg hlong, slice_of_le (u16At buf (off + 2)) rfl (by omega), ok_bind,
          readAttribute_eq found ⟨u16At buf off, field buf (off + 4) (u16At buf (off + 2))⟩, ok_bind]
        exact ih _ (by omega) _ _ rfl
    · rw [dif_neg hroom, if_neg hroom]
      rfl

/-- A success response to the transaction. -/
def Matching (buf : Bytes) (txid : Txid) : Prop :=
  20 ≤ buf.length ∧ u16At buf 0 = bindingSuccess ∧
    u32At buf 4 = magicCookie.toNat ∧ field buf 8 12 = txid.bytes

instance (buf : Bytes) (txid : Txid) : Decidable (Matching buf txid) :=
  inferInstanceAs (Decidable (_ ∧ _ ∧ _ ∧ _))

/-- The length that the header declares for the attributes. -/
def declaredLength (buf : Bytes) : Nat := u16At buf 2

/-- What a response with the right header says. -/
def addresses (buf : Bytes) : Addresses :=
  (attributesOf buf (20 + declaredLength buf) 20).foldl Addresses.note ⟨none, none⟩

theorem parseBindingResponse_eq (buf : Bytes) (txid : Txid) :
    parseBindingResponse buf txid =
      if buf.length < 20 then fail (.quic "short STUN response")
      else if ¬ Matching buf txid then fail (.quic "not a matching STUN success response")
      else if 20 + declaredLength buf > buf.length then fail (.quic "STUN length past buffer")
      else (addresses buf).result := by
  unfold parseBindingResponse
  by_cases hshort : buf.length < 20
  · rw [if_pos hshort, if_pos hshort]
  · rw [if_neg hshort, if_neg hshort, readU16_eq (by omega), ok_bind, readU16_eq (by omega),
      ok_bind, readU32_eq (by omega), ok_bind, slice_of_le 12 rfl (by omega), ok_bind]
    by_cases hmatch : Matching buf txid
    · have hheader : ¬ (u16At buf 0 ≠ bindingSuccess ∨
          u32At buf 4 ≠ magicCookie.toNat ∨ field buf 8 12 ≠ txid.bytes) := by
        obtain ⟨-, htype, hcookie, hid⟩ := hmatch
        simp [htype, hcookie, hid]
      have hdeclared : u16At buf 2 = declaredLength buf := rfl
      rw [if_neg hheader, if_neg (not_not_intro hmatch), hdeclared]
      by_cases hlong : 20 + declaredLength buf > buf.length
      · rw [if_pos hlong, if_pos hlong]
      · rw [if_neg hlong, if_neg hlong, readAttributes_eq (by omega), ok_bind, addresses]
    · rw [if_pos, if_pos hmatch]
      by_contra hall
      refine hmatch ⟨Nat.le_of_not_lt hshort, ?_⟩
      simpa only [not_or, Decidable.not_not, ne_eq] using hall

theorem parse_of_matching {buf : Bytes} {txid : Txid} (h : Matching buf txid)
    (hlen : 20 + declaredLength buf ≤ buf.length) :
    parseBindingResponse buf txid = (addresses buf).result := by
  rw [parseBindingResponse_eq, if_neg (by omega), if_neg (not_not_intro h), if_neg (by omega)]

theorem parse_of_not_matching {buf : Bytes} {txid : Txid} (h : ¬ Matching buf txid)
    (hlen : 20 ≤ buf.length) :
    parseBindingResponse buf txid = fail (.quic "not a matching STUN success response") := by
  rw [parseBindingResponse_eq, if_neg (by omega), if_pos h]

end Straw.Stun
