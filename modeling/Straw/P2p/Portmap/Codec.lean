import Straw.Capsule.Codec
import Straw.Lib.Splice

/-!
# PCP and NAT-PMP messages

The three requests that ask a gateway for a port mapping, and the parsers of their
answers. PCP answers repeat the nonce of the request; NAT-PMP answers only say what kind
of request they belong to.
-/

namespace Straw.Portmap

open Outcome
set_option autoImplicit false

def protoUdp : UInt8 := 17

@[ext]
structure Nonce where
  bytes : Bytes
  length_eq : bytes.length = 12

instance : DecidableEq Nonce := fun _ _ => decidable_of_iff _ Nonce.ext_iff.symm

/-- An IPv4 address as an IPv4-mapped IPv6 address. -/
def v4Mapped (ip : Ipv4Addr) : Bytes := List.replicate 10 0 ++ ([0xff, 0xff] ++ ip.octets)

def v4FromMapped (bytes : Bytes) : Option Ipv4Addr :=
  if bytes.length ≠ 16 ∨ bytes.getD 10 0 ≠ 0xff ∨ bytes.getD 11 0 ≠ 0xff then none
  else some (Ipv4Addr.ofOctets (field bytes 12 4))

section Requests

def natpmpExternalRequest : Bytes := [0, 0]

def natpmpMapRequest (internal suggested : UInt16) (lifetime : UInt32) : Bytes :=
  [0, 1, 0, 0] ++ (BigEndian.ofNat 2 internal.toNat ++ (BigEndian.ofNat 2 suggested.toNat ++
    BigEndian.ofNat 4 lifetime.toNat))

def pcpMapRequest (clientIp : Ipv4Addr) (nonce : Nonce) (internalPort suggestedPort : UInt16)
    (lifetime : UInt32) : Bytes :=
  [2, 1, 0, 0] ++ (BigEndian.ofNat 4 lifetime.toNat ++ (v4Mapped clientIp ++ (nonce.bytes ++
    ([protoUdp, 0, 0, 0] ++ (BigEndian.ofNat 2 internalPort.toNat ++
      (BigEndian.ofNat 2 suggestedPort.toNat ++ v4Mapped 0#32))))))

end Requests

section Parsing

/-- What the two NAT-PMP parsers share; `read` reads the fields behind the result code. -/
def parseNatpmp {α : Type} (size : Nat) (answer : UInt8) (bad : String) (refusal : Nat → String)
    (read : Bytes → Outcome ProxyError α) (resp : Bytes) : Outcome ProxyError α :=
  if resp.length < size then fail (.quic bad)
  else do
    let version ← index resp 0
    let opcode ← index resp 1
    if version ≠ 0 ∨ opcode ≠ answer then fail (.quic bad)
    else
      let result ← readU16 resp 2
      if result ≠ 0 then fail (.quic (refusal result)) else read resp

def parseNatpmpExternal : Bytes → Outcome ProxyError Ipv4Addr :=
  parseNatpmp 12 128 "bad NAT-PMP external response" (fun result => s!"NAT-PMP error {result}")
    fun resp => do
      let octets ← slice resp 8 12
      .ok (Ipv4Addr.ofOctets octets)

def parseNatpmpMap : Bytes → Outcome ProxyError (Nat × Nat × Nat) :=
  parseNatpmp 16 129 "bad NAT-PMP map response" (fun result => s!"NAT-PMP map error {result}")
    fun resp => do
      let internal ← readU16 resp 8
      let mapped ← readU16 resp 10
      let lifetime ← readU32 resp 12
      .ok (internal, mapped, lifetime)

def parsePcpMap (resp : Bytes) (nonce : Nonce) : Outcome ProxyError (Ipv4Addr × Nat × Nat) :=
  if resp.length < 60 then fail (.quic "bad PCP response")
  else do
    let version ← index resp 0
    let opcode ← index resp 1
    if version ≠ 2 ∨ opcode ≠ 0x81 then fail (.quic "bad PCP response")
    else
      let result ← index resp 3
      if result ≠ 0 then fail (.quic s!"PCP error {result}")
      else
        let lifetime ← readU32 resp 4
        let echoed ← slice resp 24 36
        if echoed ≠ nonce.bytes then fail (.quic "PCP nonce mismatch")
        else
          let externalPort ← readU16 resp 42
          let address ← slice resp 44 60
          match v4FromMapped address with
          | none => fail (.quic "PCP returned a non-IPv4 mapping")
          | some externalIp => .ok (externalIp, externalPort, lifetime)

end Parsing

/-! What the parsers accept -/

structure NatpmpAnswer (size : Nat) (answer : UInt8) (resp : Bytes) : Prop where
  length : size ≤ resp.length
  version : resp.getD 0 0 = 0
  opcode : resp.getD 1 0 = answer
  success : u16At resp 2 = 0

structure PcpMap (resp : Bytes) (nonce : Nonce) (ip : Ipv4Addr) : Prop where
  length : 60 ≤ resp.length
  version : resp.getD 0 0 = 2
  opcode : resp.getD 1 0 = 0x81
  success : resp.getD 3 0 = 0
  nonce : field resp 24 12 = nonce.bytes
  address : v4FromMapped (field resp 44 16) = some ip

section Natpmp

variable {α : Type} {size : Nat} {answer : UInt8} {bad : String} {refusal : Nat → String}
  {read : Bytes → Outcome ProxyError α} {resp : Bytes}

theorem parseNatpmp_of (hsize : 4 ≤ size) (h : NatpmpAnswer size answer resp) :
    parseNatpmp size answer bad refusal read resp = read resp := by
  have hlen := h.length
  rw [parseNatpmp, if_neg (by omega), index_of_lt (by omega) 0, ok_bind,
    index_of_lt (by omega) 0, ok_bind, h.version, h.opcode, if_neg (by simp),
    readU16_eq (by omega), ok_bind, h.success, if_neg (by decide)]

theorem parseNatpmp_cases (hsize : 4 ≤ size) :
    (∃ e, parseNatpmp size answer bad refusal read resp = fail e) ∨
      NatpmpAnswer size answer resp := by
  unfold parseNatpmp
  by_cases hshort : resp.length < size
  · exact Or.inl ⟨_, if_pos hshort⟩
  · rw [if_neg hshort, index_of_lt (by omega) 0, ok_bind, index_of_lt (by omega) 0, ok_bind]
    by_cases hkind : resp.getD 0 0 ≠ 0 ∨ resp.getD 1 0 ≠ answer
    · exact Or.inl ⟨_, if_pos hkind⟩
    · rw [if_neg hkind, readU16_eq (by omega), ok_bind]
      by_cases hresult : u16At resp 2 ≠ 0
      · exact Or.inl ⟨_, if_pos hresult⟩
      · simp only [not_or, Decidable.not_not] at hkind hresult
        exact Or.inr ⟨by omega, hkind.1, hkind.2, hresult⟩

theorem parseNatpmpExternal_of (h : NatpmpAnswer 12 128 resp) :
    parseNatpmpExternal resp = .ok (Ipv4Addr.ofOctets (field resp 8 4)) := by
  have hlen := h.length
  rw [parseNatpmpExternal, parseNatpmp_of (by decide) h, slice_of_le 4 rfl (by omega), ok_bind]

theorem parseNatpmpMap_of (h : NatpmpAnswer 16 129 resp) :
    parseNatpmpMap resp = .ok (u16At resp 8, u16At resp 10, u32At resp 12) := by
  have hlen := h.length
  rw [parseNatpmpMap, parseNatpmp_of (by decide) h, readU16_eq (by omega), ok_bind,
    readU16_eq (by omega), ok_bind, readU32_eq (by omega), ok_bind]

end Natpmp

theorem parsePcpMap_of {resp : Bytes} {nonce : Nonce} {ip : Ipv4Addr} (h : PcpMap resp nonce ip) :
    parsePcpMap resp nonce = .ok (ip, u16At resp 42, u32At resp 4) := by
  have hlen := h.length
  rw [parsePcpMap, if_neg (by omega), index_of_lt (by omega) 0, ok_bind,
    index_of_lt (by omega) 0, ok_bind, h.version, h.opcode, if_neg (by decide),
    index_of_lt (by omega) 0, ok_bind, h.success, if_neg (by decide), readU32_eq (by omega),
    ok_bind, slice_of_le 12 rfl (by omega), ok_bind, h.nonce, if_neg (not_not_intro rfl),
    readU16_eq (by omega), ok_bind, slice_of_le 16 rfl (by omega), ok_bind, h.address]

theorem parsePcpMap_cases (resp : Bytes) (nonce : Nonce) :
    (∃ e, parsePcpMap resp nonce = fail e) ∨ ∃ ip, PcpMap resp nonce ip := by
  unfold parsePcpMap
  by_cases hshort : resp.length < 60
  · exact Or.inl ⟨_, if_pos hshort⟩
  · rw [if_neg hshort, index_of_lt (by omega) 0, ok_bind, index_of_lt (by omega) 0, ok_bind]
    by_cases hkind : resp.getD 0 0 ≠ 2 ∨ resp.getD 1 0 ≠ 0x81
    · exact Or.inl ⟨_, if_pos hkind⟩
    · rw [if_neg hkind, index_of_lt (by omega) 0, ok_bind]
      by_cases hresult : resp.getD 3 0 ≠ 0
      · exact Or.inl ⟨_, if_pos hresult⟩
      · rw [if_neg hresult, readU32_eq (by omega), ok_bind, slice_of_le 12 rfl (by omega), ok_bind]
        by_cases hnonce : field resp 24 12 ≠ nonce.bytes
        · exact Or.inl ⟨_, if_pos hnonce⟩
        · rw [if_neg hnonce, readU16_eq (by omega), ok_bind, slice_of_le 16 rfl (by omega), ok_bind]
          simp only [not_or, Decidable.not_not] at hkind hresult hnonce
          cases hip : v4FromMapped (field resp 44 16) with
          | none => exact Or.inl ⟨_, rfl⟩
          | some ip =>
            exact Or.inr ⟨ip, by omega, hkind.1, hkind.2, hresult, hnonce, hip⟩

section Answers

/-! What a gateway sends -/

def natpmpExternalResponse (epoch : UInt32) (ip : Ipv4Addr) : Bytes :=
  [0, 128, 0, 0] ++ (BigEndian.ofNat 4 epoch.toNat ++ ip.octets)

def natpmpMapResponse (epoch : UInt32) (internal mapped : UInt16) (lifetime : UInt32) : Bytes :=
  [0, 129, 0, 0] ++ (BigEndian.ofNat 4 epoch.toNat ++ (BigEndian.ofNat 2 internal.toNat ++
    (BigEndian.ofNat 2 mapped.toNat ++ BigEndian.ofNat 4 lifetime.toNat)))

def pcpMapResponse (nonce : Nonce) (internal external : UInt16) (ip : Ipv4Addr)
    (lifetime epoch : UInt32) : Bytes :=
  [2, 0x81, 0, 0] ++ (BigEndian.ofNat 4 lifetime.toNat ++ ((BigEndian.ofNat 4 epoch.toNat ++
    List.replicate 12 0) ++ (nonce.bytes ++ (([protoUdp, 0, 0, 0] ++
      BigEndian.ofNat 2 internal.toNat) ++ (BigEndian.ofNat 2 external.toNat ++ v4Mapped ip)))))

theorem v4Mapped_length (ip : Ipv4Addr) : (v4Mapped ip).length = 16 := by
  simp [v4Mapped, Ipv4Addr.octets]

theorem v4FromMapped_v4Mapped (ip : Ipv4Addr) : v4FromMapped (v4Mapped ip) = some ip := by
  have hlen := v4Mapped_length ip
  have hten : (v4Mapped ip).getD 10 0 = 0xff := rfl
  have heleven : (v4Mapped ip).getD 11 0 = 0xff := rfl
  have hoctets : field (v4Mapped ip) 12 4 = ip.octets := by
    rw [v4Mapped, ← List.append_assoc]
    exact field_end (by simp) (BigEndian.ofNat_length 4 _)
  rw [v4FromMapped, if_neg (by rw [hlen, hten, heleven]; decide), hoctets,
    Ipv4Addr.ofOctets_octets]

theorem natpmpExternalResponse_length (epoch : UInt32) (ip : Ipv4Addr) :
    (natpmpExternalResponse epoch ip).length = 12 := by
  simp [natpmpExternalResponse, Ipv4Addr.octets]

theorem natpmpMapResponse_length (epoch : UInt32) (internal mapped : UInt16) (lifetime : UInt32) :
    (natpmpMapResponse epoch internal mapped lifetime).length = 16 := by
  simp [natpmpMapResponse]

theorem pcpMapResponse_length (nonce : Nonce) (internal external : UInt16) (ip : Ipv4Addr)
    (lifetime epoch : UInt32) :
    (pcpMapResponse nonce internal external ip lifetime epoch).length = 60 := by
  simp [pcpMapResponse, nonce.length_eq, v4Mapped_length]

theorem parseNatpmpExternal_response (epoch : UInt32) (ip : Ipv4Addr) :
    parseNatpmpExternal (natpmpExternalResponse epoch ip) = .ok ip := by
  have hoctets : field (natpmpExternalResponse epoch ip) 8 4 = ip.octets := by
    rw [natpmpExternalResponse, ← List.append_assoc]
    exact field_end (by simp) (BigEndian.ofNat_length 4 _)
  have haccepted : NatpmpAnswer 12 128 (natpmpExternalResponse epoch ip) :=
    ⟨Nat.le_of_eq (natpmpExternalResponse_length epoch ip).symm, rfl, rfl, rfl⟩
  rw [parseNatpmpExternal_of haccepted, hoctets, Ipv4Addr.ofOctets_octets]

theorem parseNatpmpMap_response (epoch : UInt32) (internal mapped : UInt16) (lifetime : UInt32) :
    parseNatpmpMap (natpmpMapResponse epoch internal mapped lifetime) =
      .ok (internal.toNat, mapped.toNat, lifetime.toNat) := by
  have haccepted : NatpmpAnswer 16 129 (natpmpMapResponse epoch internal mapped lifetime) :=
    ⟨Nat.le_of_eq (natpmpMapResponse_length epoch internal mapped lifetime).symm, rfl, rfl, rfl⟩
  have hinternal : u16At (natpmpMapResponse epoch internal mapped lifetime) 8 = internal.toNat := by
    rw [natpmpMapResponse, ← List.append_assoc]
    exact u16At_ofNat _ _ (by simp) internal.toNat_lt
  have hmapped : u16At (natpmpMapResponse epoch internal mapped lifetime) 10 = mapped.toNat := by
    rw [natpmpMapResponse, ← List.append_assoc, ← List.append_assoc]
    exact u16At_ofNat _ _ (by simp) mapped.toNat_lt
  have hlifetime : u32At (natpmpMapResponse epoch internal mapped lifetime) 12 = lifetime.toNat := by
    rw [natpmpMapResponse, ← List.append_assoc, ← List.append_assoc, ← List.append_assoc,
      ← List.append_nil (BigEndian.ofNat 4 lifetime.toNat)]
    exact u32At_ofNat _ _ (by simp) lifetime.toNat_lt
  rw [parseNatpmpMap_of haccepted, hinternal, hmapped, hlifetime]

theorem parsePcpMap_response (nonce : Nonce) (internal external : UInt16) (ip : Ipv4Addr)
    (lifetime epoch : UInt32) :
    parsePcpMap (pcpMapResponse nonce internal external ip lifetime epoch) nonce =
      .ok (ip, external.toNat, lifetime.toNat) := by
  have hlifetime : u32At (pcpMapResponse nonce internal external ip lifetime epoch) 4 =
      lifetime.toNat := u32At_ofNat _ _ rfl lifetime.toNat_lt
  have hnonce : field (pcpMapResponse nonce internal external ip lifetime epoch) 24 12 =
      nonce.bytes := by
    rw [pcpMapResponse, ← List.append_assoc, ← List.append_assoc]
    exact field_middle (by simp) nonce.length_eq _
  have hexternal : u16At (pcpMapResponse nonce internal external ip lifetime epoch) 42 =
      external.toNat := by
    rw [pcpMapResponse, ← List.append_assoc, ← List.append_assoc, ← List.append_assoc,
      ← List.append_assoc]
    exact u16At_ofNat _ _ (by simp [nonce.length_eq]) external.toNat_lt
  have haddress : field (pcpMapResponse nonce internal external ip lifetime epoch) 44 16 =
      v4Mapped ip := by
    rw [pcpMapResponse, ← List.append_assoc, ← List.append_assoc, ← List.append_assoc,
      ← List.append_assoc, ← List.append_assoc]
    exact field_end (by simp [nonce.length_eq]) (v4Mapped_length ip)
  have haccepted : PcpMap (pcpMapResponse nonce internal external ip lifetime epoch) nonce ip :=
    ⟨Nat.le_of_eq (pcpMapResponse_length nonce internal external ip lifetime epoch).symm, rfl, rfl,
      rfl, hnonce, by rw [haddress, v4FromMapped_v4Mapped]⟩
  rw [parsePcpMap_of haccepted, hexternal, hlifetime]

end Answers

end Straw.Portmap
