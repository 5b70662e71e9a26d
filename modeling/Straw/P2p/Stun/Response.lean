import Straw.P2p.Stun.Codec

/-!
# Reading a binding response back

What the server encodes is what the probe decodes. The bytes behind the declared message
do not matter as long as no address attribute runs past its end.
-/

namespace Straw.Stun

open Outcome
set_option autoImplicit false

section RoundTrip

theorem fold_fold (xor : Bool) (ip : Ipv4Addr) (port : UInt16) :
    fold xor (fold xor ip port).1 (fold xor ip port).2 = (ip, port) := by
  cases xor with
  | false => rfl
  | true =>
    simp only [fold, if_true, Prod.mk.injEq]
    exact ⟨by rw [BitVec.xor_assoc, BitVec.xor_self, BitVec.xor_zero],
      by rw [UInt16.xor_assoc, UInt16.xor_self, UInt16.xor_zero]⟩

theorem encodeAddr_length (ip : Ipv4Addr) (port : UInt16) (xor : Bool) :
    (encodeAddr (.v4 ip port) xor).length = 8 := by
  simp [encodeAddr, Ipv4Addr.octets]

theorem addressIn_encodeAddr (ip : Ipv4Addr) (port : UInt16) (xor : Bool) :
    addressIn (encodeAddr (.v4 ip port) xor) xor = some (.v4 ip port) := by
  have hlen := encodeAddr_length ip port xor
  have hport : u16At (encodeAddr (.v4 ip port) xor) 2 = (fold xor ip port).2.toNat :=
    u16At_ofNat _ _ rfl (fold xor ip port).2.toNat_lt
  have hoctets : field (encodeAddr (.v4 ip port) xor) 4 4 = (fold xor ip port).1.octets := by
    rw [encodeAddr, ← List.append_assoc]
    exact field_end (by simp) (BigEndian.ofNat_length 4 _)
  have hfamily : (encodeAddr (.v4 ip port) xor).getD 1 0 = familyV4 := rfl
  have hread : ¬ ((encodeAddr (.v4 ip port) xor).length < 8 ∨
      (encodeAddr (.v4 ip port) xor).getD 1 0 ≠ familyV4) := by
    rw [hlen, hfamily]
    decide
  rw [addressIn, if_neg hread, hport, hoctets, UInt16.ofNat_toNat, Ipv4Addr.ofOctets_octets,
    fold_fold]

/-- An attribute that stands in the buffer with a length that needs no padding. -/
def attributeBytes (a : Attribute) : Bytes :=
  BigEndian.ofNat 2 a.type ++ (BigEndian.ofNat 2 a.value.length ++ a.value)

theorem attributesOf_cons (a : Attribute) (pre rest : Bytes) {stop off : Nat}
    (htype : a.type < 65536) (hlen : a.value.length < 65536) (hpad : a.value.length % 4 = 0)
    (hoff : pre.length = off) (hstop : off + 4 ≤ stop) :
    attributesOf (pre ++ (attributeBytes a ++ rest)) stop off =
      a :: attributesOf (pre ++ (attributeBytes a ++ rest)) stop (off + 4 + a.value.length) := by
  have htypeAt : u16At (pre ++ (attributeBytes a ++ rest)) off = a.type := by
    rw [attributeBytes, List.append_assoc]
    exact u16At_ofNat _ _ hoff htype
  have hlenAt : u16At (pre ++ (attributeBytes a ++ rest)) (off + 2) = a.value.length := by
    rw [attributeBytes, List.append_assoc, ← List.append_assoc pre, List.append_assoc _ a.value]
    exact u16At_ofNat _ _ (by simp [hoff]) hlen
  have hvalue : field (pre ++ (attributeBytes a ++ rest)) (off + 4) a.value.length = a.value := by
    rw [attributeBytes, List.append_assoc, ← List.append_assoc pre, List.append_assoc _ a.value,
      ← List.append_assoc _ (BigEndian.ofNat 2 a.value.length)]
    exact field_middle (by simp [hoff]) rfl rest
  have hfits : ¬ off + 4 + a.value.length > (pre ++ (attributeBytes a ++ rest)).length := by
    simp only [attributeBytes, List.length_append, BigEndian.ofNat_length, hoff]
    omega
  have hnext : (a.value.length + 3) / 4 * 4 = a.value.length := by omega
  rw [attributesOf, if_pos hstop, hlenAt, if_neg hfits, htypeAt, hvalue, hnext]

theorem attributesOf_end {stop off : Nat} (h : stop < off + 4) (buf : Bytes) : attributesOf buf stop off = [] := by
  rw [attributesOf, if_neg (by omega)]

theorem pad_of_aligned {body : Bytes} (h : body.length % 4 = 0) : pad body = body := by
  rw [pad, h]
  exact List.append_nil body

/-- The header of a response with attributes of length `len`. -/
def responseHeader (txid : Txid) (len : Nat) : Bytes :=
  BigEndian.ofNat 2 bindingSuccess ++ (BigEndian.ofNat 2 len ++
    (BigEndian.ofNat 4 magicCookie.toNat ++ txid.bytes))

theorem responseHeader_length (txid : Txid) (len : Nat) : (responseHeader txid len).length = 20 := by
  simp [responseHeader, txid.length_eq]

theorem responseHeader_matching (txid : Txid) (len : Nat) (body : Bytes) :
    Matching (responseHeader txid len ++ body) txid := by
  have hlen := responseHeader_length txid len
  refine ⟨by rw [List.length_append]; omega, ?_, ?_, ?_⟩
  · rw [responseHeader, List.append_assoc]
    exact u16At_ofNat [] _ rfl (by decide)
  · simp only [responseHeader, List.append_assoc]
    rw [← List.append_assoc]
    exact u32At_ofNat _ _ (by simp) (by decide)
  · simp only [responseHeader, List.append_assoc]
    rw [← List.append_assoc, ← List.append_assoc]
    exact field_middle (by simp) txid.length_eq body

theorem declaredLength_responseHeader (txid : Txid) {len : Nat} (h : len < 65536) (body : Bytes) :
    declaredLength (responseHeader txid len ++ body) = len := by
  simp only [responseHeader, List.append_assoc, declaredLength]
  exact u16At_ofNat _ _ (BigEndian.ofNat_length 2 _) h

/-- A response is the header and the attributes one after the other. -/
theorem parse_attributes (txid : Txid) {body : Bytes} (h : body.length < 65536) :
    parseBindingResponse (responseHeader txid body.length ++ body) txid =
      (((attributesOf (responseHeader txid body.length ++ body) (20 + body.length) 20).foldl
        Addresses.note ⟨none, none⟩)).result := by
  have hdeclared := declaredLength_responseHeader txid h body
  have hlen : (responseHeader txid body.length ++ body).length = 20 + body.length := by
    rw [List.length_append, responseHeader_length]
  rw [parse_of_matching (responseHeader_matching txid body.length body) (by omega), addresses,
    hdeclared]

def mappedAttribute (ip : Ipv4Addr) (port : UInt16) : Attribute :=
  ⟨attrXorMappedAddress, encodeAddr (.v4 ip port) true⟩

def otherAttribute (ip : Ipv4Addr) (port : UInt16) : Attribute :=
  ⟨attrOtherAddress, encodeAddr (.v4 ip port) false⟩

theorem attributeBytes_length (a : Attribute) :
    (attributeBytes a).length = 4 + a.value.length := by
  simp only [attributeBytes, List.length_append, BigEndian.ofNat_length]
  omega

theorem pushAttr_of_aligned {body : Bytes} {a : Attribute} (hbody : body.length % 4 = 0)
    (hvalue : a.value.length % 4 = 0) :
    pushAttr body a.type a.value = body ++ attributeBytes a := by
  apply pad_of_aligned
  rw [List.length_append]
  have hlen := attributeBytes_length a
  simp only [attributeBytes] at hlen
  omega

/-- Decoding what was encoded gives the addresses back. -/
theorem parse_encode (txid : Txid) (ip : Ipv4Addr) (port : UInt16)
    (other : Option (Ipv4Addr × UInt16)) :
    parseBindingResponse
        (encodeBindingResponse txid (.v4 ip port) (other.map fun o => .v4 o.1 o.2)) txid =
      .ok (.v4 ip port, other.map fun o => .v4 o.1 o.2) := by
  have hmapped : (mappedAttribute ip port).value.length = 8 := encodeAddr_length ip port true
  have hbody : pushAttr [] attrXorMappedAddress (encodeAddr (.v4 ip port) true) =
      attributeBytes (mappedAttribute ip port) :=
    pushAttr_of_aligned (a := mappedAttribute ip port) rfl (by omega)
  have hbodyLen : (attributeBytes (mappedAttribute ip port)).length = 12 := by
    rw [attributeBytes_length]
    omega
  cases other with
  | none =>
    have hencode : encodeBindingResponse txid (.v4 ip port) none =
        responseHeader txid (attributeBytes (mappedAttribute ip port)).length ++
          attributeBytes (mappedAttribute ip port) := by
      simp only [encodeBindingResponse, responseHeader, hbody, List.append_assoc]
    have hattrs := attributesOf_cons (mappedAttribute ip port) _ []
      (show attrXorMappedAddress < 65536 by decide) (by omega) (by omega)
      (responseHeader_length txid 12) (show 20 + 4 ≤ 32 by omega)
    rw [List.append_nil] at hattrs
    rw [Option.map_none, hencode, parse_attributes txid (by omega), hbodyLen, hattrs,
      attributesOf_end (by omega)]
    simp only [List.foldl_cons, List.foldl_nil, Addresses.note, mappedAttribute, if_true,
      addressIn_encodeAddr, Addresses.result]
  | some o =>
    obtain ⟨oip, oport⟩ := o
    have hother : (otherAttribute oip oport).value.length = 8 := encodeAddr_length oip oport false
    have hotherLen : (attributeBytes (otherAttribute oip oport)).length = 12 := by
      rw [attributeBytes_length]
      omega
    have hboth : pushAttr (attributeBytes (mappedAttribute ip port)) attrOtherAddress
        (encodeAddr (.v4 oip oport) false) =
        attributeBytes (mappedAttribute ip port) ++ attributeBytes (otherAttribute oip oport) :=
      pushAttr_of_aligned (a := otherAttribute oip oport) (by omega) (by omega)
    have htotal : (attributeBytes (mappedAttribute ip port) ++
        attributeBytes (otherAttribute oip oport)).length = 24 := by
      rw [List.length_append, hbodyLen, hotherLen]
    have hencode : encodeBindingResponse txid (.v4 ip port) (some (.v4 oip oport)) =
        responseHeader txid (attributeBytes (mappedAttribute ip port) ++
            attributeBytes (otherAttribute oip oport)).length ++
          (attributeBytes (mappedAttribute ip port) ++ attributeBytes (otherAttribute oip oport)) := by
      simp only [encodeBindingResponse, responseHeader, hbody, hboth, List.append_assoc]
    have hfirst := attributesOf_cons (mappedAttribute ip port) _
      (attributeBytes (otherAttribute oip oport)) (show attrXorMappedAddress < 65536 by decide)
      (by omega) (by omega) (responseHeader_length txid 24) (show 20 + 4 ≤ 44 by omega)
    have hsecond := attributesOf_cons (otherAttribute oip oport)
      (responseHeader txid 24 ++ attributeBytes (mappedAttribute ip port)) []
      (show attrOtherAddress < 65536 by decide) (by omega) (by omega)
      (by rw [List.length_append, responseHeader_length, hbodyLen]) (show 32 + 4 ≤ 44 by omega)
    rw [List.append_nil, List.append_assoc] at hsecond
    rw [hmapped] at hfirst
    rw [Option.map_some, hencode, parse_attributes txid (by omega), htotal, hfirst, hsecond,
      attributesOf_end (by omega)]
    have hdistinct : attrOtherAddress ≠ attrXorMappedAddress := by decide
    simp only [List.foldl_cons, List.foldl_nil, Addresses.note, mappedAttribute, otherAttribute,
      if_true, if_neg hdistinct, addressIn_encodeAddr, Addresses.result]

end RoundTrip

section Trailing

/-- The attribute whose header is inside the declared message and whose value ends behind
it, but in the buffer. It is the last one that the parser reads. -/
def overrun (buf : Bytes) (stop off : Nat) : Option Attribute :=
  if off + 4 ≤ stop then
    let alen := u16At buf (off + 2)
    if off + 4 + alen ≤ stop then overrun buf stop (off + 4 + (alen + 3) / 4 * 4)
    else if off + 4 + alen ≤ buf.length then some ⟨u16At buf off, field buf (off + 4) alen⟩
    else none
  else none
termination_by stop - off

theorem attributesOf_take {buf : Bytes} {stop : Nat} (h : stop ≤ buf.length) (off : Nat) :
    attributesOf buf stop off =
      attributesOf (buf.take stop) stop off ++ (overrun buf stop off).toList := by
  have hlen : (buf.take stop).length = stop := List.length_take_of_le h
  induction hn : stop - off using Nat.strongRecOn generalizing off with
  | ind n ih =>
    rw [attributesOf, attributesOf, overrun]
    by_cases hroom : off + 4 ≤ stop
    · rw [if_pos hroom, if_pos hroom, if_pos hroom, u16At_take (by omega), u16At_take (by omega),
        hlen]
      by_cases hinside : off + 4 + u16At buf (off + 2) ≤ stop
      · rw [if_neg (by omega), if_neg (by omega), if_pos hinside, field_take hinside,
          List.cons_append, ih _ (by omega) _ rfl]
      · rw [if_pos (show off + 4 + u16At buf (off + 2) > stop by omega), if_neg hinside]
        by_cases hfits : off + 4 + u16At buf (off + 2) ≤ buf.length
        · rw [if_neg (by omega), if_pos hfits, attributesOf_end (by omega)]
          rfl
        · rw [if_pos (by omega), if_neg hfits]
          rfl
    · rw [if_neg hroom, if_neg hroom, if_neg hroom]
      rfl

/-- The address in the last attribute of a type. -/
def lastAddress (type : Nat) (xor : Bool) (attrs : List Attribute) : Option SocketAddr :=
  ((attrs.filter fun a => a.type = type).getLast?).bind fun a => addressIn a.value xor

theorem lastAddress_concat (type : Nat) (xor : Bool) (attrs : List Attribute) (a : Attribute) :
    lastAddress type xor (attrs ++ [a]) =
      if a.type = type then addressIn a.value xor else lastAddress type xor attrs := by
  unfold lastAddress
  rw [List.filter_append]
  by_cases htype : a.type = type
  · simp [htype]
  · simp [htype]

theorem foldl_note (attrs : List Attribute) :
    attrs.foldl Addresses.note ⟨none, none⟩ =
      ⟨lastAddress attrXorMappedAddress true attrs, lastAddress attrOtherAddress false attrs⟩ := by
  induction attrs using List.reverseRecOn with
  | nil => rfl
  | append_singleton attrs a ih =>
    rw [List.foldl_append, ih, List.foldl_cons, List.foldl_nil, lastAddress_concat,
      lastAddress_concat, Addresses.note]
    by_cases hmapped : a.type = attrXorMappedAddress
    · rw [if_pos hmapped, if_pos hmapped, if_neg]
      rw [hmapped]
      decide
    · rw [if_neg hmapped, if_neg hmapped]
      by_cases hother : a.type = attrOtherAddress
      · rw [if_pos hother, if_pos hother]
      · rw [if_neg hother, if_neg hother]

theorem result_eq_iff (a b : Addresses) :
    a.result = b.result ↔ a.mapped = b.mapped ∧ (b.mapped = none ∨ a.other = b.other) := by
  obtain ⟨mapped, other⟩ := a
  obtain ⟨mapped', other'⟩ := b
  unfold Addresses.result
  cases mapped with
  | none => cases mapped' <;> simp [fail]
  | some m => cases mapped' <;> simp [fail]

/-- An attribute behind others that does not change what they say: it is no address
attribute, or it gives the address that is known already. Without a mapped address the
other one does not count. -/
def AddsNothing (attrs : List Attribute) (a : Attribute) : Prop :=
  if a.type = attrXorMappedAddress then
    addressIn a.value true = lastAddress attrXorMappedAddress true attrs
  else if a.type = attrOtherAddress then
    lastAddress attrXorMappedAddress true attrs = none ∨
      addressIn a.value false = lastAddress attrOtherAddress false attrs
  else True

theorem result_concat_iff (attrs : List Attribute) (a : Attribute) :
    ((attrs ++ [a]).foldl Addresses.note ⟨none, none⟩).result =
      (attrs.foldl Addresses.note ⟨none, none⟩).result ↔ AddsNothing attrs a := by
  rw [foldl_note, foldl_note, result_eq_iff, lastAddress_concat, lastAddress_concat, AddsNothing]
  by_cases hmapped : a.type = attrXorMappedAddress
  · have hother : ¬ a.type = attrOtherAddress := by
      rw [hmapped]
      decide
    simp only [if_pos hmapped, if_neg hother, or_true, and_true]
  · by_cases hother : a.type = attrOtherAddress
    · simp only [if_neg hmapped, if_pos hother, true_and]
    · simp only [if_neg hmapped, if_neg hother, or_true, and_self]

/-- No address attribute of the declared message runs on into the bytes behind it, unless
it adds nothing. -/
def Contained (buf : Bytes) : Prop :=
  let stop := 20 + declaredLength buf
  ∀ a, overrun buf stop 20 = some a → AddsNothing (attributesOf (buf.take stop) stop 20) a

theorem matching_take (buf : Bytes) {stop : Nat} (hstop : 20 ≤ stop) (txid : Txid) :
    Matching (buf.take stop) txid ↔ Matching buf txid := by
  unfold Matching
  rw [u16At_take (by omega), u32At, field_take (by omega), field_take (by omega), List.length_take,
    u32At]
  have hlen : 20 ≤ min stop buf.length ↔ 20 ≤ buf.length := by omega
  rw [hlen]

theorem parse_take_iff (buf : Bytes) (h : 20 + declaredLength buf ≤ buf.length) (txid : Txid) :
    parseBindingResponse buf txid =
      parseBindingResponse (buf.take (20 + declaredLength buf)) txid ↔
      (Matching buf txid → Contained buf) := by
  have hlen : (buf.take (20 + declaredLength buf)).length = 20 + declaredLength buf :=
    List.length_take_of_le h
  have hdeclared : declaredLength (buf.take (20 + declaredLength buf)) = declaredLength buf :=
    u16At_take (by omega)
  have htake := matching_take buf (Nat.le_add_right 20 (declaredLength buf)) txid
  by_cases hmatch : Matching buf txid
  · rw [parse_of_matching hmatch h, parse_of_matching (htake.mpr hmatch) (by omega), addresses,
      addresses, hdeclared, attributesOf_take h]
    simp only [hmatch, true_implies, Contained]
    cases overrun buf (20 + declaredLength buf) 20 with
    | none => simp
    | some a => simpa using result_concat_iff _ a
  · rw [parse_of_not_matching hmatch (by omega),
      parse_of_not_matching (fun hm => hmatch (htake.mp hm)) (by omega)]
    simp [hmatch]

end Trailing

theorem parse_ne_panic (buf : Bytes) (txid : Txid) :
    parseBindingResponse buf txid ≠ .error .panic := by
  rw [parseBindingResponse_eq]
  split
  · simp [fail]
  · split
    · simp [fail]
    · split
      · simp [fail]
      · unfold Addresses.result
        split
        · simp
        · simp [fail]

/-- Responses are read back as they were written, nothing is read out of bounds, and the
bytes behind the declared message count exactly when an address attribute runs on into
them and changes what the message says. -/
theorem response_decodes (txid : Txid) (buf : Bytes) :
    (∀ (ip : Ipv4Addr) (port : UInt16) (other : Option (Ipv4Addr × UInt16)),
      parseBindingResponse
          (encodeBindingResponse txid (.v4 ip port) (other.map fun o => .v4 o.1 o.2)) txid =
        .ok (.v4 ip port, other.map fun o => .v4 o.1 o.2)) ∧
      parseBindingResponse buf txid ≠ .error .panic ∧
      (20 + declaredLength buf ≤ buf.length →
        (parseBindingResponse buf txid =
            parseBindingResponse (buf.take (20 + declaredLength buf)) txid ↔
          (Matching buf txid → Contained buf))) := by
  refine ⟨?_, ?_, ?_⟩
  · intro ip port other
    exact parse_encode txid ip port other
  · exact parse_ne_panic buf txid
  · intro hlength
    exact parse_take_iff buf hlength txid

def testTxid : Txid := ⟨List.replicate 12 7, rfl⟩

def testMapped : SocketAddr := .v4 0xCB007109#32 50000
def testOther : SocketAddr := .v4 0xCB00710A#32 3479

/-- A response with three bytes behind it. -/
def padded : Bytes := encodeBindingResponse testTxid testMapped (some testOther) ++ [1, 2, 3]

theorem overrun_padded : overrun padded 44 20 = none := by
  have hfirst : overrun padded 44 20 = overrun padded 44 32 := by
    rw [overrun]
    rfl
  have hsecond : overrun padded 44 32 = overrun padded 44 44 := by
    rw [overrun]
    rfl
  rw [hfirst, hsecond, overrun]
  rfl

theorem response_decodes_padded :
    parseBindingResponse padded testTxid = parseBindingResponse (padded.take 44) testTxid := by
  apply ((response_decodes testTxid padded).2.2 (by decide)).mpr
  intro _ a ha
  have hnone : overrun padded 44 20 = some a := ha
  rw [overrun_padded] at hnone
  cases hnone

/-- The declared message ends with the header of an address attribute; its value stands in
the bytes behind the message. -/
def loose : Bytes :=
  responseHeader testTxid 4 ++ (BigEndian.ofNat 2 attrXorMappedAddress ++
    (BigEndian.ofNat 2 8 ++ encodeAddr testMapped true))

theorem loose_reads_behind :
    20 + declaredLength loose = 24 ∧ loose.length = 32 ∧
      parseBindingResponse loose testTxid ≠ parseBindingResponse (loose.take 24) testTxid := by
  refine ⟨by decide, by decide, ?_⟩
  intro heq
  have hcontained := (parse_take_iff loose (by decide) testTxid).mp heq (by decide)
  have hover : overrun loose 24 20 = some ⟨attrXorMappedAddress, encodeAddr testMapped true⟩ := by
    rw [overrun]
    rfl
  have hinside : attributesOf (loose.take 24) 24 20 = [] := by
    rw [attributesOf]
    rfl
  have hadds : AddsNothing (attributesOf (loose.take 24) 24 20)
      ⟨attrXorMappedAddress, encodeAddr testMapped true⟩ := hcontained _ hover
  rw [hinside] at hadds
  revert hadds
  simp only [AddsNothing, if_true]
  decide

end Straw.Stun
