import Straw.Capsule.Order

/-!
# Capsules there and back

What an encoder writes is read back, and what the reader of a ROUTE_ADVERTISEMENT accepts
is what the encoder of its entries writes. The order of the entries is another matter:
the reader lets through neighbours that increase in either of the two orders.
-/

namespace Straw

open Codec Outcome
set_option autoImplicit false

section Entries

variable {ε : Type}

/-- The entries of the two address capsules are written alike. -/
def RequestedAddress.toAssigned (r : RequestedAddress) : AssignedAddress :=
  ⟨r.requestId, r.ipVersion, r.ipAddress, r.prefixLength⟩

theorem RequestedAddress.WellFormed.toAssigned {r : RequestedAddress} (h : r.WellFormed) :
    r.toAssigned.WellFormed := ⟨h.version, h.width⟩

theorem requestedAddressLen_encode {r : RequestedAddress} {bytes : Bytes}
    (hversion : r.ipVersion = r.ipAddress.version)
    (h : (encodeRequestedAddress r : Outcome ε Bytes) = .ok bytes) :
    (requestedAddressLen r : Outcome ε Nat) = .ok bytes.length :=
  assignedAddressLen_encode (a := r.toAssigned) hversion h

/-- The two readers differ in one check: a request may not have the id zero. -/
theorem decodeRequestedAddress_of_assigned {r : RequestedAddress} {buf rest : Bytes}
    (hid : r.requestId ≠ 0) (h : decodeAssignedAddress buf = .ok (r.toAssigned, rest)) :
    decodeRequestedAddress buf = .ok (r, rest) := by
  obtain ⟨⟨requestId, buf⟩, hread, h⟩ := bind_eq_ok.mp h
  obtain ⟨⟨version, buf'⟩, hversion, h⟩ := bind_eq_ok.mp h
  obtain ⟨⟨ip, buf''⟩, hip, h⟩ := bind_eq_ok.mp h
  obtain ⟨⟨len, buf'''⟩, hlen, h⟩ := bind_eq_ok.mp h
  obtain ⟨_, hvalid, h⟩ := bind_eq_ok.mp h
  obtain ⟨hr, rfl⟩ := Prod.mk.inj (Except.ok.inj h)
  obtain ⟨rfl, hv, hi, hl⟩ := AssignedAddress.mk.inj hr
  have hrequest : (⟨r.requestId, version.toNat, ip, len.toNat⟩ : RequestedAddress) = r := by
    cases r
    simp only [RequestedAddress.mk.injEq]
    exact ⟨trivial, hv, hi, hl⟩
  simp only [decodeRequestedAddress, hread, bind, Except.bind, if_neg hid, hversion, hip, hlen,
    hvalid, hrequest]

theorem decodeRequestedAddress_encode {r : RequestedAddress} {bytes : Bytes} (hr : r.WellFormed)
    (hid : r.requestId ≠ 0) (h : (encodeRequestedAddress r : Outcome ε Bytes) = .ok bytes) :
    bytes ≠ [] ∧ ∀ rest, decodeRequestedAddress (bytes ++ rest) = .ok (r, rest) := by
  obtain ⟨hne, hread⟩ := decodeAssignedAddress_encode (a := r.toAssigned) hr.toAssigned h
  exact ⟨hne, fun rest => decodeRequestedAddress_of_assigned hid (hread rest)⟩

theorem encodeAddress_ok {requestId : Nat} (hid : requestId < 2 ^ 62) (ipVersion : Nat)
    (ip : IpAddr) (prefixLength : Nat) :
    ∃ bytes, (encodeAddress requestId ipVersion ip prefixLength : Outcome ε Bytes) = .ok bytes := by
  obtain ⟨id, hwrite⟩ := writeVarint_ok hid
  rw [encodeAddress, expect_eq_ok.mpr hwrite]
  exact ⟨_, rfl⟩

theorem getU8_eq_ok {buf rest : Bytes} {b : UInt8} :
    getU8 buf = .ok (b, rest) ↔ buf = b :: rest := by
  cases buf with
  | nil => simp [getU8]
  | cons c buf => simp [getU8]

theorem decodeIpAddress_eq_ok {version : UInt8} {buf rest : Bytes} {ip : IpAddr} :
    decodeIpAddress version buf = .ok (ip, rest) ↔
      version = UInt8.ofNat ip.version ∧ buf = ip.octets ++ rest := by
  constructor
  · intro h
    have hversion := decodeIpAddress_version h
    have hof : version = UInt8.ofNat ip.version := by rw [← hversion, UInt8.ofNat_toNat]
    refine ⟨hof, ?_⟩
    unfold decodeIpAddress at h
    split at h
    · split at h
      · cases h
      · rename_i hlong
        obtain ⟨rfl, rfl⟩ := Prod.mk.inj (Except.ok.inj h)
        have hlen := List.length_take_of_le (Nat.le_of_not_lt hlong)
        rw [IpAddr.octets, Ipv4Addr.octets_ofOctets hlen, List.take_append_drop]
    · split at h
      · split at h
        · cases h
        · rename_i hlong
          obtain ⟨rfl, rfl⟩ := Prod.mk.inj (Except.ok.inj h)
          have hlen := List.length_take_of_le (Nat.le_of_not_lt hlong)
          rw [IpAddr.octets, Ipv6Addr.octets_ofOctets hlen, List.take_append_drop]
      · cases h
  · rintro ⟨rfl, rfl⟩
    exact decodeIpAddress_octets ip rest

/-- The reader of one range accepts exactly what is written for a valid one. -/
theorem decodeIpAddressRange_eq_ok {buf rest : Bytes} {r : IpAddressRange} :
    decodeIpAddressRange buf = .ok (r, rest) ↔
      r.Valid ∧ ∃ bytes, (encodeIpAddressRange r : Outcome ε Bytes) = .ok bytes ∧
        buf = bytes ++ rest := by
  constructor
  · intro h
    obtain ⟨⟨version, buf₁⟩, hversion, h⟩ := bind_eq_ok.mp h
    obtain ⟨⟨startIp, buf₂⟩, hstart, h⟩ := bind_eq_ok.mp h
    obtain ⟨⟨endIp, buf₃⟩, hend, h⟩ := bind_eq_ok.mp h
    by_cases hgt : cmpIpAddr startIp endIp = .gt
    · simp [hgt, bind, Except.bind] at h
    simp only [if_neg hgt] at h
    obtain ⟨⟨protocol, buf₄⟩, hprotocol, h⟩ := bind_eq_ok.mp h
    obtain ⟨rfl, rfl⟩ := Prod.mk.inj (Except.ok.inj h)
    have hstartVersion := decodeIpAddress_version hstart
    have hendVersion := decodeIpAddress_version hend
    rw [cmpIpAddr_eq_compare, Nat.compare_eq_gt, Nat.not_lt,
      IpAddr.rank_le_rank (hstartVersion.symm.trans hendVersion)] at hgt
    refine ⟨⟨⟨hstartVersion.symm, hendVersion.symm⟩, hgt⟩, _, rfl, ?_⟩
    obtain ⟨-, rfl⟩ := decodeIpAddress_eq_ok.mp hstart
    obtain ⟨-, rfl⟩ := decodeIpAddress_eq_ok.mp hend
    obtain rfl := getU8_eq_ok.mp hprotocol
    rw [getU8_eq_ok.mp hversion]
    simp
  · rintro ⟨hr, bytes, hbytes, rfl⟩
    obtain rfl := Except.ok.inj hbytes
    have hversion : (UInt8.ofNat r.startIp.version).toNat = r.startIp.version := by
      cases r.startIp <;> rfl
    have hstart : decodeIpAddress (UInt8.ofNat r.ipVersion)
        (r.startIp.octets ++ (r.endIp.octets ++ (r.ipProtocol :: rest))) =
          .ok (r.startIp, r.endIp.octets ++ (r.ipProtocol :: rest)) := by
      rw [← hr.wellFormed.1]
      exact decodeIpAddress_octets _ _
    have hend : decodeIpAddress (UInt8.ofNat r.ipVersion)
        (r.endIp.octets ++ (r.ipProtocol :: rest)) = .ok (r.endIp, r.ipProtocol :: rest) := by
      rw [← hr.wellFormed.2]
      exact decodeIpAddress_octets _ _
    have hle : ¬ cmpIpAddr r.startIp r.endIp = .gt := by
      rw [cmpIpAddr_eq_compare, Nat.compare_eq_gt, Nat.not_lt]
      exact hr.start_le_end
    have hnat : (UInt8.ofNat r.ipVersion).toNat = r.ipVersion := by
      rw [← hr.wellFormed.1, hversion]
    simp only [decodeIpAddressRange, List.cons_append, List.append_assoc, List.nil_append, getU8,
      bind, Except.bind, hstart, hend, if_neg hle, hnat]

end Entries

section Payloads

variable {ε α : Type} {entry : α → Outcome ε Bytes} {as : List α} {payload : Bytes}

theorem encodePayload_ok (h : ∀ a ∈ as, ∃ bytes, entry a = .ok bytes) :
    ∃ payload, encodePayload entry as = .ok payload := by
  induction as with
  | nil => exact ⟨[], rfl⟩
  | cons a as ih =>
    obtain ⟨bytes, hbytes⟩ := h a List.mem_cons_self
    obtain ⟨rest, hrest⟩ := ih fun b hb => h b (List.mem_cons_of_mem a hb)
    refine ⟨bytes ++ rest, ?_⟩
    simp only [encodePayload, hbytes, hrest, bind, Except.bind]

/-- If one entry is accepted exactly when it is spelled out, so is a list of them. -/
theorem decodeEntries_eq_ok {decode : Bytes → Except DecodeError (α × Bytes)} {P : α → Prop}
    (hne : ∀ a bytes, entry a = .ok bytes → bytes ≠ [])
    (hentry : ∀ buf a rest, decode buf = .ok (a, rest) ↔
      P a ∧ ∃ bytes, entry a = .ok bytes ∧ buf = bytes ++ rest) :
    decodeEntries decode payload.length payload = .ok as ↔
      (∀ a ∈ as, P a) ∧ encodePayload entry as = .ok payload := by
  constructor
  · generalize payload.length = fuel
    intro h
    refine ⟨decodeEntries_forall (fun h => ((hentry _ _ _).mp h).1) h, ?_⟩
    induction fuel generalizing payload as with
    | zero =>
      cases payload with
      | nil =>
        obtain rfl := Except.ok.inj h
        rfl
      | cons b payload => cases h
    | succ fuel ih =>
      cases payload with
      | nil =>
        obtain rfl := Except.ok.inj h
        rfl
      | cons b payload =>
        obtain ⟨⟨a, rest⟩, ha, h⟩ := bind_eq_ok.mp h
        obtain ⟨as, has, h⟩ := bind_eq_ok.mp h
        obtain rfl := Except.ok.inj h
        obtain ⟨-, bytes, hbytes, hbuf⟩ := (hentry _ _ _).mp ha
        simp only [encodePayload, hbytes, ih has, bind, Except.bind]
        rw [hbuf]
  · rintro ⟨hP, h⟩
    refine decodeEntries_encodePayload ?_ h (Nat.le_refl _)
    intro a ha bytes hbytes
    exact ⟨hne a bytes hbytes, fun rest => (hentry _ _ _).mpr ⟨hP a ha, bytes, hbytes, rfl⟩⟩

theorem decodeEntries_ranges {ranges : List IpAddressRange} :
    decodeEntries decodeIpAddressRange payload.length payload = .ok ranges ↔
      (∀ r ∈ ranges, r.Valid) ∧
        (encodePayload encodeIpAddressRange ranges : Outcome ε Bytes) = .ok payload := by
  apply decodeEntries_eq_ok
  · intro r bytes h
    obtain rfl := Except.ok.inj h
    simp
  · intro buf r rest
    exact decodeIpAddressRange_eq_ok

theorem expect_writeVarint_panic {val : Nat} (h : 2 ^ 62 ≤ val) :
    (expect (writeVarint val) : Outcome ε Bytes) = .error .panic := by
  cases hwrite : writeVarint val with
  | error e => rfl
  | ok bs =>
    rcases writeVarint_cases hwrite with ⟨hval, -⟩ | ⟨hval, -⟩ | ⟨hval, -⟩ | ⟨hval, -⟩ <;> omega

theorem encodeList_eq {capsuleType : Nat} {len : α → Outcome ε Nat}
    (hlen : payloadLen len as = .ok payload.length) (h : encodePayload entry as = .ok payload) :
    encodeList capsuleType len entry as = (do
      let type ← expect (writeVarint capsuleType)
      let length ← expect (writeVarint payload.length)
      .ok (type ++ length ++ payload)) := by
  rw [encodeList, hlen]
  simp only [h]
  rfl

theorem decodeCapsule_payload {capsuleType : Nat} {type length : Bytes} {c : Capsule}
    (htype : writeVarint capsuleType = .ok type)
    (hlength : writeVarint payload.length = .ok length)
    (hpayload : decodePayload capsuleType payload = .ok c) (rest : Bytes) :
    decodeCapsule (type ++ length ++ payload ++ rest) = .ok (c, rest) := by
  have hfits : ¬ (payload ++ rest).length < payload.length := by simp
  simp only [decodeCapsule, List.append_assoc, readVarint_writeVarint htype,
    readVarint_writeVarint hlength, bind, Except.bind, if_neg hfits, List.take_left, hpayload,
    List.drop_left]

end Payloads

namespace Capsule

/-- What the decoder can give back. -/
def Sendable : Capsule → Prop
  | addressAssign addrs => ∀ a ∈ addrs, a.WellFormed ∧ a.requestId < 2 ^ 62
  | addressRequest addrs =>
    addrs ≠ [] ∧ ∀ r ∈ addrs, r.WellFormed ∧ r.requestId < 2 ^ 62 ∧ r.requestId ≠ 0
  | routeAdvertisement ranges =>
    (∀ r ∈ ranges, r.Valid) ∧ ranges.Pairwise fun a b => ¬ a.Overlaps b
  | unknown typeId _ => typeId ∉ knownTypes ∧ typeId < 2 ^ 62

/-- A capsule and what its receiver holds: the ranges of a ROUTE_ADVERTISEMENT come back
in the order of their keys. -/
def Received : Capsule → Capsule → Prop
  | routeAdvertisement ranges, routeAdvertisement ranges' =>
    ranges'.Perm ranges ∧ ranges'.Pairwise fun a b => a.cmpKey b = .lt
  | c, c' => c' = c

/-- The encoder sorts the ranges of a ROUTE_ADVERTISEMENT. -/
def sorted : Capsule → Capsule
  | routeAdvertisement ranges => routeAdvertisement (sortRanges ranges)
  | c => c

theorem received_sorted {c : Capsule} (h : c.Sendable) : c.Received c.sorted := by
  cases c with
  | addressAssign addrs => rfl
  | addressRequest addrs => rfl
  | routeAdvertisement ranges => exact ⟨sortRanges_perm ranges, sortRanges_strict h.1 h.2⟩
  | unknown typeId data => rfl

variable {ε : Type}

/-- The entries as the encoder writes them. -/
def writtenPayload : Capsule → Outcome ε Bytes
  | addressAssign addrs => encodePayload encodeAssignedAddress addrs
  | addressRequest addrs => encodePayload encodeRequestedAddress addrs
  | routeAdvertisement ranges => encodePayload encodeIpAddressRange (sortRanges ranges)
  | unknown _ data => .ok data

/-- The length of the payload as the encoder computes it beforehand. -/
def computedLen : Capsule → Outcome ε Nat
  | addressAssign addrs => payloadLen assignedAddressLen addrs
  | addressRequest addrs => payloadLen requestedAddressLen addrs
  | routeAdvertisement ranges => payloadLen ipAddressRangeLen (sortRanges ranges)
  | unknown _ data => .ok data.length

/-- A capsule is encoded, or its payload is too long for a varint; what was encoded is
read back, whatever follows it. -/
def ReadBack (ε : Type) (c : Capsule) (payload : Bytes) : Prop :=
  (2 ^ 62 ≤ payload.length ∧ (encodeCapsule c : Outcome ε Bytes) = .error .panic) ∨
    ∃ bytes, (encodeCapsule c : Outcome ε Bytes) = .ok bytes ∧
      ∀ rest, decodeCapsule (bytes ++ rest) = .ok (c.sorted, rest)

theorem readBack_of_envelope {c : Capsule} {capsuleType : Nat} {payload : Bytes}
    (hencode : (encodeCapsule c : Outcome ε Bytes) = do
      let type ← expect (writeVarint capsuleType)
      let length ← expect (writeVarint payload.length)
      .ok (type ++ length ++ payload))
    (htype : capsuleType < 2 ^ 62) (hdecode : decodePayload capsuleType payload = .ok c.sorted) :
    c.ReadBack ε payload := by
  obtain ⟨type, htype⟩ := writeVarint_ok htype
  have htype' : (expect (writeVarint capsuleType) : Outcome ε Bytes) = .ok type :=
    expect_eq_ok.mpr htype
  rw [ReadBack, hencode, htype']
  by_cases hfits : payload.length < 2 ^ 62
  · obtain ⟨length, hlength⟩ := writeVarint_ok hfits
    have hlength' : (expect (writeVarint payload.length) : Outcome ε Bytes) = .ok length :=
      expect_eq_ok.mpr hlength
    rw [hlength']
    exact Or.inr ⟨_, rfl, decodeCapsule_payload htype hlength hdecode⟩
  · have hlong := Nat.le_of_not_lt hfits
    rw [expect_writeVarint_panic hlong]
    exact Or.inl ⟨hlong, rfl⟩

theorem readBack_addressAssign {addrs : List AssignedAddress}
    (h : (addressAssign addrs).Sendable) :
    ∃ payload, ((addressAssign addrs).writtenPayload : Outcome ε Bytes) = .ok payload ∧
      ((addressAssign addrs).computedLen : Outcome ε Nat) = .ok payload.length ∧
      (addressAssign addrs).ReadBack ε payload := by
  obtain ⟨payload, hpayload⟩ : ∃ payload,
      (encodePayload encodeAssignedAddress addrs : Outcome ε Bytes) = .ok payload :=
    encodePayload_ok fun a ha => encodeAddress_ok (h a ha).2 _ _ _
  have hlen : (payloadLen assignedAddressLen addrs : Outcome ε Nat) = .ok payload.length :=
    payloadLen_encodePayload
      (fun a ha _ hbytes => assignedAddressLen_encode (h a ha).1.version hbytes) hpayload
  have hentries := decodeEntries_encodePayload
    (fun a ha _ hbytes => decodeAssignedAddress_encode (h a ha).1 hbytes) hpayload
    (Nat.le_refl payload.length)
  have hdecode : decodePayload capsuleAddressAssign payload = .ok (addressAssign addrs) := by
    simp only [decodePayload, if_true, hentries, bind, Except.bind]
  exact ⟨payload, hpayload, hlen,
    readBack_of_envelope (encodeList_eq hlen hpayload) (by decide) hdecode⟩

theorem readBack_addressRequest {addrs : List RequestedAddress}
    (h : (addressRequest addrs).Sendable) :
    ∃ payload, ((addressRequest addrs).writtenPayload : Outcome ε Bytes) = .ok payload ∧
      ((addressRequest addrs).computedLen : Outcome ε Nat) = .ok payload.length ∧
      (addressRequest addrs).ReadBack ε payload := by
  obtain ⟨hne, h⟩ := h
  obtain ⟨payload, hpayload⟩ : ∃ payload,
      (encodePayload encodeRequestedAddress addrs : Outcome ε Bytes) = .ok payload :=
    encodePayload_ok fun r hr => encodeAddress_ok (h r hr).2.1 _ _ _
  have hlen : (payloadLen requestedAddressLen addrs : Outcome ε Nat) = .ok payload.length :=
    payloadLen_encodePayload
      (fun r hr _ hbytes => requestedAddressLen_encode (h r hr).1.version hbytes) hpayload
  have hentries := decodeEntries_encodePayload
    (fun r hr _ hbytes => decodeRequestedAddress_encode (h r hr).1 (h r hr).2.2 hbytes) hpayload
    (Nat.le_refl payload.length)
  have hassign : ¬ capsuleAddressRequest = capsuleAddressAssign := by decide
  have hdecode : decodePayload capsuleAddressRequest payload = .ok (addressRequest addrs) := by
    simp only [decodePayload, if_neg hassign, if_true, hentries, bind, Except.bind, if_neg hne]
  exact ⟨payload, hpayload, hlen,
    readBack_of_envelope (encodeList_eq hlen hpayload) (by decide) hdecode⟩

end Capsule

/-- A reader of valid ranges with strictly increasing keys has nothing to refuse. -/
theorem decodePayload_ranges {ε : Type} {ranges : List IpAddressRange} {payload : Bytes}
    (hvalid : ∀ r ∈ ranges, r.Valid) (hstrict : ranges.Pairwise fun a b => a.cmpKey b = .lt)
    (h : (encodePayload encodeIpAddressRange ranges : Outcome ε Bytes) = .ok payload) :
    decodePayload capsuleRouteAdvertisement payload = .ok (.routeAdvertisement ranges) := by
  have hassign : ¬ capsuleRouteAdvertisement = capsuleAddressAssign := by decide
  have hrequest : ¬ capsuleRouteAdvertisement = capsuleAddressRequest := by decide
  simp only [decodePayload, if_neg hassign, if_neg hrequest, if_true,
    decodeEntries_ranges.mpr ⟨hvalid, h⟩, bind, Except.bind, validateOrder_of_strict hstrict]

namespace Capsule

variable {ε : Type}

theorem readBack_routeAdvertisement {ranges : List IpAddressRange}
    (h : (routeAdvertisement ranges).Sendable) :
    ∃ payload, ((routeAdvertisement ranges).writtenPayload : Outcome ε Bytes) = .ok payload ∧
      ((routeAdvertisement ranges).computedLen : Outcome ε Nat) = .ok payload.length ∧
      (routeAdvertisement ranges).ReadBack ε payload := by
  obtain ⟨hvalid, hdisjoint⟩ := h
  have hperm := sortRanges_perm ranges
  have hsorted : ∀ r ∈ sortRanges ranges, r.Valid := fun r hr => hvalid r (hperm.mem_iff.mp hr)
  have hstrict := sortRanges_strict hvalid hdisjoint
  obtain ⟨payload, hpayload⟩ : ∃ payload,
      (encodePayload encodeIpAddressRange (sortRanges ranges) : Outcome ε Bytes) = .ok payload :=
    encodePayload_ok fun r _ => ⟨_, rfl⟩
  have hlen : (payloadLen ipAddressRangeLen (sortRanges ranges) : Outcome ε Nat) =
      .ok payload.length :=
    payloadLen_encodePayload
      (fun r hr _ hbytes => ipAddressRangeLen_encode (hsorted r hr).wellFormed hbytes) hpayload
  exact ⟨payload, hpayload, hlen, readBack_of_envelope (encodeList_eq hlen hpayload) (by decide)
    (decodePayload_ranges hsorted hstrict hpayload)⟩

/-- Every capsule that can be sent is written with the length computed beforehand and is
read back with the rest of the buffer untouched. Only a payload of `2 ^ 62` bytes or more
has no encoding. -/
theorem decodeCapsule_encodeCapsule {c : Capsule} (h : c.Sendable) :
    ∃ payload, (c.writtenPayload : Outcome ε Bytes) = .ok payload ∧
      (c.computedLen : Outcome ε Nat) = .ok payload.length ∧
      ((2 ^ 62 ≤ payload.length ∧ (encodeCapsule c : Outcome ε Bytes) = .error .panic) ∨
        ∃ bytes c', (encodeCapsule c : Outcome ε Bytes) = .ok bytes ∧ c.Received c' ∧
          ∀ rest, decodeCapsule (bytes ++ rest) = .ok (c', rest)) := by
  obtain ⟨payload, hwritten, hlen, hread⟩ : ∃ payload,
      (c.writtenPayload : Outcome ε Bytes) = .ok payload ∧
        (c.computedLen : Outcome ε Nat) = .ok payload.length ∧ c.ReadBack ε payload := by
    cases c with
    | addressAssign addrs => exact readBack_addressAssign h
    | addressRequest addrs => exact readBack_addressRequest h
    | routeAdvertisement ranges => exact readBack_routeAdvertisement h
    | unknown typeId data =>
      exact ⟨data, rfl, rfl, readBack_of_envelope rfl h.2 (decodePayload_unknown h.1 data)⟩
  refine ⟨payload, hwritten, hlen, ?_⟩
  rcases hread with hpanic | ⟨bytes, hbytes, hdecode⟩
  · exact Or.inl hpanic
  · exact Or.inr ⟨bytes, c.sorted, hbytes, received_sorted h, hdecode⟩

/-- A UDP and a TCP range, in the wrong order. -/
def testRanges : List IpAddressRange :=
  [⟨4, .v4 0x0a010000#32, .v4 0x0a0100ff#32, 17⟩, ⟨4, .v4 0x0a000000#32, .v4 0x0a0000ff#32, 6⟩]

theorem decodeCapsule_encodeCapsule_testRanges :
    ∃ bytes c', (encodeCapsule (.routeAdvertisement testRanges) : Outcome Unit Bytes) = .ok bytes ∧
      (routeAdvertisement testRanges).Received c' ∧
      ∀ rest, decodeCapsule (bytes ++ rest) = .ok (c', rest) := by
  have hsendable : (routeAdvertisement testRanges).Sendable :=
    ⟨by decide +kernel, by decide +kernel⟩
  have hshort : ((routeAdvertisement testRanges).writtenPayload : Outcome Unit Bytes).map
      List.length = .ok 20 := by decide +kernel
  obtain ⟨payload, hwritten, -, ⟨hlong, -⟩ | hread⟩ :=
    decodeCapsule_encodeCapsule (ε := Unit) hsendable
  · rw [hwritten] at hshort
    have hlen : payload.length = 20 := Except.ok.inj hshort
    omega
  · exact hread

end Capsule

/-- Neighbours of one version that the derived order has in sequence and the key does not. -/
def IpAddressRange.Interleaved (a b : IpAddressRange) : Prop :=
  a.ipVersion = b.ipVersion ∧
    (b.ipProtocol < a.ipProtocol ∧
        (a.startIp.rank < b.startIp.rank ∨ a.startIp = b.startIp ∧ a.endIp.rank < b.endIp.rank) ∨
      b.ipProtocol = a.ipProtocol ∧ a.startIp = b.startIp ∧ a.endIp.rank < b.endIp.rank)

theorem IpAddressRange.cmpKey_lt_iff_not_interleaved {a b : IpAddressRange}
    (h : outOfOrder a b = false) : a.cmpKey b = .lt ↔ ¬ a.Interleaved b := by
  have hstart : a.startIp = b.startIp ↔ a.startIp.rank = b.startIp.rank :=
    ⟨congrArg IpAddr.rank, IpAddr.rank_inj⟩
  have hproto : b.ipProtocol = a.ipProtocol ↔ b.ipProtocol.toNat = a.ipProtocol.toNat :=
    UInt8.toNat_inj.symm
  have hpass : a.cmp b = .lt ∨ a.cmpKey b = .lt := by
    simp only [outOfOrder, Bool.and_eq_false_iff, bne_eq_false_iff_eq] at h
    exact h
  rw [Interleaved, hstart, hproto, UInt8.lt_iff_toNat_lt]
  rw [cmp_eq_lt] at hpass
  rw [cmpKey_eq_lt] at hpass ⊢
  omega

/-- The ranges a payload spells out, in the order they stand in it. -/
def Spells (payload : Bytes) (ranges : List IpAddressRange) : Prop :=
  (∀ r ∈ ranges, r.Valid) ∧
    (encodePayload encodeIpAddressRange ranges : Outcome Empty Bytes) = .ok payload

theorem decodePayload_routeAdvertisement_iff {payload : Bytes} {ranges : List IpAddressRange} :
    decodePayload capsuleRouteAdvertisement payload = .ok (.routeAdvertisement ranges) ↔
      Spells payload ranges ∧ ranges.IsChain fun a b => outOfOrder a b = false := by
  have hassign : ¬ capsuleRouteAdvertisement = capsuleAddressAssign := by decide
  have hrequest : ¬ capsuleRouteAdvertisement = capsuleAddressRequest := by decide
  rw [Spells, ← decodeEntries_ranges, ← validateOrder_eq_ok]
  simp only [decodePayload, if_neg hassign, if_neg hrequest, if_true]
  constructor
  · intro h
    obtain ⟨ranges', hentries, h⟩ := bind_eq_ok.mp h
    obtain ⟨_, hvalidate, h⟩ := bind_eq_ok.mp h
    obtain rfl := Capsule.routeAdvertisement.inj (Except.ok.inj h)
    exact ⟨hentries, hvalidate⟩
  · rintro ⟨hentries, hvalidate⟩
    simp only [hentries, hvalidate, bind, Except.bind]

/-- The reader enforces the order of the keys exactly for the payloads in which some
neighbours decrease in both orders, or none increase in the derived order alone. -/
theorem routeAdvertisement_ordered_iff (payload : Bytes) :
    (∀ ranges, decodePayload capsuleRouteAdvertisement payload = .ok (.routeAdvertisement ranges) →
        (∀ r ∈ ranges, cmpIpAddr r.startIp r.endIp ≠ .gt) ∧
          ranges.IsChain fun a b => a.cmpKey b = .lt) ↔
      ∀ ranges, Spells payload ranges →
        (¬ ranges.IsChain fun a b => outOfOrder a b = false) ∨
          ranges.IsChain fun a b => ¬ a.Interleaved b := by
  constructor
  · intro h ranges hspells
    by_cases hpass : ranges.IsChain fun a b => outOfOrder a b = false
    · have hkeys := (h ranges (decodePayload_routeAdvertisement_iff.mpr ⟨hspells, hpass⟩)).2
      rw [List.isChain_iff_getElem] at hpass hkeys
      refine Or.inr (List.isChain_iff_getElem.mpr ?_)
      intro i hi
      exact (IpAddressRange.cmpKey_lt_iff_not_interleaved (hpass i hi)).mp (hkeys i hi)
    · exact Or.inl hpass
  · intro h ranges hdecode
    obtain ⟨hspells, hpass⟩ := decodePayload_routeAdvertisement_iff.mp hdecode
    refine ⟨?_, ?_⟩
    · intro r hr
      rw [cmpIpAddr_eq_compare, Ne, Nat.compare_eq_gt, Nat.not_lt]
      exact (hspells.1 r hr).start_le_end
    · rcases h ranges hspells with hrefused | hnone
      · exact absurd hpass hrefused
      · rw [List.isChain_iff_getElem] at hpass hnone ⊢
        intro i hi
        exact (IpAddressRange.cmpKey_lt_iff_not_interleaved (hpass i hi)).mpr (hnone i hi)

/-- A UDP range before a TCP range of the same version: the starts increase, the keys
do not. -/
theorem routeAdvertisement_accepts_unsorted :
    decodePayload capsuleRouteAdvertisement
        [4, 10, 0, 0, 0, 10, 0, 0, 255, 17, 4, 10, 1, 0, 0, 10, 1, 0, 255, 6] =
      .ok (.routeAdvertisement [⟨4, .v4 0x0a000000#32, .v4 0x0a0000ff#32, 17⟩,
        ⟨4, .v4 0x0a010000#32, .v4 0x0a0100ff#32, 6⟩]) ∧
    IpAddressRange.cmpKey ⟨4, .v4 0x0a000000#32, .v4 0x0a0000ff#32, 17⟩
        ⟨4, .v4 0x0a010000#32, .v4 0x0a0100ff#32, 6⟩ = .gt :=
  ⟨rfl, by decide +kernel⟩

end Straw
