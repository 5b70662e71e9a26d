import Mathlib.Data.List.Sort
import Straw.Capsule.Buffer

/-!
# Writing capsules

The encoders of the three address capsules, and what a reader makes of their output.
Every length is computed before the entries are written; a request id that does not fit
a varint panics.
-/

namespace Straw

open Codec Outcome
set_option autoImplicit false

def IpAddr.octets : IpAddr → Bytes
  | .v4 a => Ipv4Addr.octets a
  | .v6 a => Ipv6Addr.octets a

section Encoders

variable {ε : Type}

/-- Assigned and requested addresses have the same form on the wire. -/
def encodeAddress (requestId ipVersion : Nat) (ipAddress : IpAddr) (prefixLength : Nat) :
    Outcome ε Bytes := do
  let id ← expect (writeVarint requestId)
  .ok (id ++ (UInt8.ofNat ipVersion :: (ipAddress.octets ++ [UInt8.ofNat prefixLength])))

def addressLen (requestId ipVersion : Nat) : Outcome ε Nat := do
  let ipLen := if ipVersion = 4 then 4 else 16
  let idLen ← expect (varintLen requestId)
  .ok (idLen + 1 + ipLen + 1)

def encodeAssignedAddress (addr : AssignedAddress) : Outcome ε Bytes :=
  encodeAddress addr.requestId addr.ipVersion addr.ipAddress addr.prefixLength

def assignedAddressLen (addr : AssignedAddress) : Outcome ε Nat :=
  addressLen addr.requestId addr.ipVersion

def encodeRequestedAddress (addr : RequestedAddress) : Outcome ε Bytes :=
  encodeAddress addr.requestId addr.ipVersion addr.ipAddress addr.prefixLength

def requestedAddressLen (addr : RequestedAddress) : Outcome ε Nat :=
  addressLen addr.requestId addr.ipVersion

def encodeIpAddressRange (range : IpAddressRange) : Outcome ε Bytes :=
  .ok (UInt8.ofNat range.ipVersion ::
    (range.startIp.octets ++ (range.endIp.octets ++ [range.ipProtocol])))

def ipAddressRangeLen (range : IpAddressRange) : Outcome ε Nat :=
  let ipLen := if range.ipVersion = 4 then 4 else 16
  .ok (1 + ipLen + ipLen + 1)

/-- `slice::sort_by` is stable, as is insertion sort. -/
def sortRanges (ranges : List IpAddressRange) : List IpAddressRange :=
  ranges.insertionSort fun a b => a.cmpKey b ≠ .gt

def payloadLen {α : Type} (len : α → Outcome ε Nat) : List α → Outcome ε Nat
  | [] => .ok 0
  | a :: as => do
    let n ← len a
    let rest ← payloadLen len as
    .ok (n + rest)

def encodePayload {α : Type} (entry : α → Outcome ε Bytes) : List α → Outcome ε Bytes
  | [] => .ok []
  | a :: as => do
    let bytes ← entry a
    let rest ← encodePayload entry as
    .ok (bytes ++ rest)

def encodeList {α : Type} (capsuleType : Nat) (len : α → Outcome ε Nat)
    (entry : α → Outcome ε Bytes) (as : List α) : Outcome ε Bytes := do
  let n ← payloadLen len as
  let type ← expect (writeVarint capsuleType)
  let length ← expect (writeVarint n)
  let payload ← encodePayload entry as
  .ok (type ++ length ++ payload)

def encodeCapsule : Capsule → Outcome ε Bytes
  | .addressAssign addrs =>
    encodeList capsuleAddressAssign assignedAddressLen encodeAssignedAddress addrs
  | .addressRequest addrs =>
    encodeList capsuleAddressRequest requestedAddressLen encodeRequestedAddress addrs
  | .routeAdvertisement ranges =>
    encodeList capsuleRouteAdvertisement ipAddressRangeLen encodeIpAddressRange (sortRanges ranges)
  | .unknown typeId data => do
    let type ← expect (writeVarint typeId)
    let length ← expect (writeVarint data.length)
    .ok (type ++ length ++ data)

end Encoders

section Lists

variable {ε α : Type} {entry : α → Outcome ε Bytes} {as : List α} {payload : Bytes}

theorem payloadLen_encodePayload {len : α → Outcome ε Nat}
    (hlen : ∀ a ∈ as, ∀ bytes, entry a = .ok bytes → len a = .ok bytes.length)
    (h : encodePayload entry as = .ok payload) : payloadLen len as = .ok payload.length := by
  induction as generalizing payload with
  | nil =>
    obtain rfl := Except.ok.inj h
    rfl
  | cons a as ih =>
    obtain ⟨bytes, hbytes, hrest⟩ := bind_eq_ok.mp h
    obtain ⟨rest, hpayload, hout⟩ := bind_eq_ok.mp hrest
    obtain rfl := Except.ok.inj hout
    have htail := ih (fun b hb => hlen b (List.mem_cons_of_mem a hb)) hpayload
    rw [payloadLen, hlen a List.mem_cons_self bytes hbytes, htail, List.length_append]
    rfl

/-- A list of entries is read back when each entry is, whatever follows it. -/
theorem decodeEntries_encodePayload {decode : Bytes → Except DecodeError (α × Bytes)}
    (hread : ∀ a ∈ as, ∀ bytes, entry a = .ok bytes →
      bytes ≠ [] ∧ ∀ rest, decode (bytes ++ rest) = .ok (a, rest))
    (h : encodePayload entry as = .ok payload) {fuel : Nat} (hfuel : payload.length ≤ fuel) :
    decodeEntries decode fuel payload = .ok as := by
  induction as generalizing payload fuel with
  | nil =>
    obtain rfl := Except.ok.inj h
    cases fuel <;> rfl
  | cons a as ih =>
    obtain ⟨bytes, hbytes, hrest⟩ := bind_eq_ok.mp h
    obtain ⟨rest, hpayload, hout⟩ := bind_eq_ok.mp hrest
    obtain rfl := Except.ok.inj hout
    obtain ⟨hne, hdecode⟩ := hread a List.mem_cons_self bytes hbytes
    obtain ⟨b, tail, rfl⟩ := List.exists_cons_of_ne_nil hne
    rw [List.length_append, List.length_cons] at hfuel
    obtain ⟨fuel, rfl⟩ : ∃ n, fuel = n + 1 := ⟨fuel - 1, by omega⟩
    have htail : decodeEntries decode fuel rest = .ok as :=
      ih (fun c hc => hread c (List.mem_cons_of_mem a hc)) hpayload (by omega)
    have hread := hdecode rest
    rw [List.cons_append] at hread ⊢
    simp only [decodeEntries, hread, bind, Except.bind, htail]

end Lists

theorem nextCapsule_encodeList {ε α : Type} {capsuleType : Nat} {len : α → Outcome ε Nat}
    {entry : α → Outcome ε Bytes} {as : List α} {bytes : Bytes}
    (hlen : ∀ a ∈ as, ∀ bytes, entry a = .ok bytes → len a = .ok bytes.length)
    (h : encodeList capsuleType len entry as = .ok bytes) :
    ∃ payload, encodePayload entry as = .ok payload ∧ ∀ rest,
      nextCapsule (bytes ++ rest) = ((decodePayload capsuleType payload).map some, rest) := by
  obtain ⟨n, hn, h⟩ := bind_eq_ok.mp h
  obtain ⟨type, htype, h⟩ := bind_eq_ok.mp h
  obtain ⟨length, hlength, h⟩ := bind_eq_ok.mp h
  obtain ⟨payload, hpayload, h⟩ := bind_eq_ok.mp h
  obtain rfl := Except.ok.inj h
  rw [payloadLen_encodePayload hlen hpayload] at hn
  obtain rfl := Except.ok.inj hn
  rw [expect_eq_ok] at htype hlength
  exact ⟨payload, hpayload, nextCapsule_payload htype hlength⟩

/-- The version of a range is that of both its ends. -/
def IpAddressRange.WellFormed (r : IpAddressRange) : Prop :=
  r.startIp.version = r.ipVersion ∧ r.endIp.version = r.ipVersion

instance (r : IpAddressRange) : Decidable r.WellFormed := inferInstanceAs (Decidable (_ ∧ _))

section Addresses

/-- The version names the family of the address and the prefix fits it. -/
structure AssignedAddress.WellFormed (a : AssignedAddress) : Prop where
  version : a.ipVersion = a.ipAddress.version
  width : a.prefixLength ≤ a.ipAddress.width

theorem IpAddr.length_octets (ip : IpAddr) :
    ip.octets.length = if ip.version = 4 then 4 else 16 := by
  cases ip with
  | v4 a => exact BigEndian.ofNat_length 4 _
  | v6 a => exact BigEndian.ofNat_length 16 _

theorem decodeIpAddress_octets (ip : IpAddr) (rest : Bytes) :
    decodeIpAddress (UInt8.ofNat ip.version) (ip.octets ++ rest) = .ok (ip, rest) := by
  cases ip with
  | v4 a =>
    have hlen : (Ipv4Addr.octets a).length = 4 := BigEndian.ofNat_length 4 _
    have hfits : ¬ (Ipv4Addr.octets a ++ rest).length < 4 := by
      rw [List.length_append, hlen]
      omega
    have hversion : UInt8.ofNat (IpAddr.v4 a).version = 4 := rfl
    simp only [decodeIpAddress, IpAddr.octets, hversion, if_true, if_neg hfits,
      List.take_left' hlen, List.drop_left' hlen, Ipv4Addr.ofOctets_octets]
  | v6 a =>
    have hlen : (Ipv6Addr.octets a).length = 16 := BigEndian.ofNat_length 16 _
    have hfits : ¬ (Ipv6Addr.octets a ++ rest).length < 16 := by
      rw [List.length_append, hlen]
      omega
    have hversion : UInt8.ofNat (IpAddr.v6 a).version = 6 := rfl
    have hne : ¬ (6 : UInt8) = 4 := by decide
    simp only [decodeIpAddress, IpAddr.octets, hversion, if_neg hne, if_true, if_neg hfits,
      List.take_left' hlen, List.drop_left' hlen, Ipv6Addr.ofOctets_octets]

theorem IpAddr.width_lt (ip : IpAddr) : ip.width < 256 := by
  cases ip with
  | v4 a => exact (by decide : 32 < 256)
  | v6 a => exact (by decide : 128 < 256)

theorem validatePrefixLength_of_le {ip : IpAddr} {n : Nat} (h : n ≤ ip.width) :
    validatePrefixLength (UInt8.ofNat ip.version) (UInt8.ofNat n) = .ok () := by
  have hlt : n < 256 := Nat.lt_of_le_of_lt h ip.width_lt
  have hnat : (UInt8.ofNat n).toNat = n := by
    rw [UInt8.toNat_ofNat', Nat.mod_eq_of_lt hlt]
  cases ip with
  | v4 a =>
    have hversion : UInt8.ofNat (IpAddr.v4 a).version = 4 := rfl
    have hle : ¬ (32 : UInt8) < UInt8.ofNat n := by
      rw [UInt8.lt_iff_toNat_lt, hnat]
      exact Nat.not_lt.mpr h
    simp only [validatePrefixLength, hversion, if_true, if_neg hle]
  | v6 a =>
    have hversion : UInt8.ofNat (IpAddr.v6 a).version = 6 := rfl
    have hne : ¬ (6 : UInt8) = 4 := by decide
    have hle : ¬ (128 : UInt8) < UInt8.ofNat n := by
      rw [UInt8.lt_iff_toNat_lt, hnat]
      exact Nat.not_lt.mpr h
    simp only [validatePrefixLength, hversion, if_neg hne, if_true, if_neg hle]

variable {ε : Type} {a : AssignedAddress} {bytes : Bytes}

theorem assignedAddressLen_encode (hversion : a.ipVersion = a.ipAddress.version)
    (h : (encodeAssignedAddress a : Outcome ε Bytes) = .ok bytes) :
    (assignedAddressLen a : Outcome ε Nat) = .ok bytes.length := by
  obtain ⟨id, hid, hout⟩ := bind_eq_ok.mp h
  obtain rfl := Except.ok.inj hout
  rw [expect_eq_ok] at hid
  have hlen : (expect (varintLen a.requestId) : Outcome ε Nat) = .ok id.length :=
    expect_eq_ok.mpr (varintLen_writeVarint hid)
  rw [assignedAddressLen, addressLen, hlen]
  simp only [bind, Except.bind, hversion, List.length_append, List.length_cons,
    IpAddr.length_octets, List.length_nil]
  congr 1
  omega

theorem decodeAssignedAddress_encode (ha : a.WellFormed)
    (h : (encodeAssignedAddress a : Outcome ε Bytes) = .ok bytes) :
    bytes ≠ [] ∧ ∀ rest, decodeAssignedAddress (bytes ++ rest) = .ok (a, rest) := by
  obtain ⟨id, hid, hout⟩ := bind_eq_ok.mp h
  obtain rfl := Except.ok.inj hout
  rw [expect_eq_ok] at hid
  refine ⟨by simp, ?_⟩
  intro rest
  have hversion : (UInt8.ofNat a.ipAddress.version).toNat = a.ipAddress.version := by
    cases a.ipAddress <;> rfl
  have hwidth : (UInt8.ofNat a.prefixLength).toNat = a.prefixLength := by
    rw [UInt8.toNat_ofNat', Nat.mod_eq_of_lt (Nat.lt_of_le_of_lt ha.width (IpAddr.width_lt _))]
  simp only [decodeAssignedAddress, List.append_assoc, readVarint_writeVarint hid, bind,
    Except.bind, List.cons_append, getU8, ha.version, decodeIpAddress_octets, List.nil_append,
    validatePrefixLength_of_le ha.width, hversion, hwidth]
  rw [← ha.version]

/-- What the client reads from an ADDRESS_ASSIGN is the list that was sent. -/
theorem nextCapsule_addressAssign {addrs : List AssignedAddress}
    (hwf : ∀ a ∈ addrs, a.WellFormed)
    (h : (encodeCapsule (.addressAssign addrs) : Outcome ε Bytes) = .ok bytes) (rest : Bytes) :
    nextCapsule (bytes ++ rest) = (.ok (some (.addressAssign addrs)), rest) := by
  obtain ⟨payload, hpayload, hnext⟩ := nextCapsule_encodeList
    (fun a ha _ hbytes => assignedAddressLen_encode (hwf a ha).version hbytes) h
  have hentries := decodeEntries_encodePayload
    (fun a ha _ hbytes => decodeAssignedAddress_encode (hwf a ha) hbytes) hpayload
    (Nat.le_refl payload.length)
  have hdecode : decodePayload capsuleAddressAssign payload = .ok (.addressAssign addrs) := by
    simp only [decodePayload, if_true, hentries, bind, Except.bind]
  rw [hnext, hdecode]
  rfl

end Addresses

section Ranges

variable {ε : Type} {ranges : List IpAddressRange} {bytes : Bytes}

theorem ipAddressRangeLen_encode {r : IpAddressRange} (hr : r.WellFormed)
    (h : (encodeIpAddressRange r : Outcome ε Bytes) = .ok bytes) :
    (ipAddressRangeLen r : Outcome ε Nat) = .ok bytes.length := by
  obtain rfl := Except.ok.inj h
  simp only [ipAddressRangeLen, List.length_cons, List.length_append, IpAddr.length_octets, hr.1,
    hr.2, List.length_nil]
  congr 1
  omega

/-- A ROUTE_ADVERTISEMENT is one frame. Its reader may refuse the ranges, and finds no
other kind of capsule. -/
theorem frame_routeAdvertisement (hwf : ∀ r ∈ ranges, r.WellFormed)
    (h : (encodeCapsule (.routeAdvertisement ranges) : Outcome ε Bytes) = .ok bytes) :
    ∃ r, CapsuleBuffer.framer.Frame bytes r ∧
      ∀ c, r = .ok c → ∃ ranges', c = .routeAdvertisement ranges' := by
  have hsorted : ∀ r ∈ sortRanges ranges, r.WellFormed := fun r hr =>
    hwf r ((List.mem_insertionSort _).mp hr)
  obtain ⟨payload, -, hnext⟩ := nextCapsule_encodeList
    (fun r hr _ hbytes => ipAddressRangeLen_encode (hsorted r hr) hbytes) h
  have hframe := hnext []
  rw [List.append_nil] at hframe
  refine ⟨decodePayload capsuleRouteAdvertisement payload, hframe, ?_⟩
  intro c hc
  have hassign : ¬ capsuleRouteAdvertisement = capsuleAddressAssign := by decide
  have hrequest : ¬ capsuleRouteAdvertisement = capsuleAddressRequest := by decide
  simp only [decodePayload, if_neg hassign, if_neg hrequest, if_true] at hc
  obtain ⟨ranges', -, hc⟩ := bind_eq_ok.mp hc
  obtain ⟨-, -, hc⟩ := bind_eq_ok.mp hc
  exact ⟨ranges', (Except.ok.inj hc).symm⟩

end Ranges

section Requests

structure RequestedAddress.WellFormed (r : RequestedAddress) : Prop where
  version : r.ipVersion = r.ipAddress.version
  width : r.prefixLength ≤ r.ipAddress.width

/-- The addresses a capsule asks for. -/
def Capsule.requests : Capsule → List RequestedAddress
  | addressRequest requests => requests
  | _ => []

theorem decodeIpAddress_version {version : UInt8} {buf rest : Bytes} {ip : IpAddr}
    (h : decodeIpAddress version buf = .ok (ip, rest)) : version.toNat = ip.version := by
  unfold decodeIpAddress at h
  split at h
  · rename_i hv
    split at h
    · cases h
    · obtain ⟨rfl, -⟩ := Prod.mk.inj (Except.ok.inj h)
      rw [hv]
      rfl
  · split at h
    · rename_i hv
      split at h
      · cases h
      · obtain ⟨rfl, -⟩ := Prod.mk.inj (Except.ok.inj h)
        rw [hv]
        rfl
    · cases h

theorem validatePrefixLength_le {version len : UInt8} {ip : IpAddr}
    (hversion : version.toNat = ip.version) (h : validatePrefixLength version len = .ok ()) :
    len.toNat ≤ ip.width := by
  unfold validatePrefixLength at h
  split at h
  · rename_i hv
    split at h
    · cases h
    · rename_i hle
      rw [UInt8.not_lt, UInt8.le_iff_toNat_le] at hle
      subst hv
      cases ip with
      | v4 => exact hle
      | v6 => cases hversion
  · split at h
    · rename_i hv
      split at h
      · cases h
      · rename_i hle
        rw [UInt8.not_lt, UInt8.le_iff_toNat_le] at hle
        subst hv
        cases ip with
        | v4 => cases hversion
        | v6 => exact hle
    · cases h

theorem decodeRequestedAddress_wellFormed {buf rest : Bytes} {r : RequestedAddress}
    (h : decodeRequestedAddress buf = .ok (r, rest)) : r.WellFormed := by
  obtain ⟨⟨requestId, buf⟩, -, h⟩ := bind_eq_ok.mp h
  by_cases hzero : requestId = 0
  · simp [hzero, bind, Except.bind] at h
  simp only [if_neg hzero] at h
  obtain ⟨⟨version, buf⟩, -, h⟩ := bind_eq_ok.mp h
  obtain ⟨⟨ip, buf⟩, hip, h⟩ := bind_eq_ok.mp h
  obtain ⟨⟨len, buf⟩, -, h⟩ := bind_eq_ok.mp h
  obtain ⟨_, hlen, h⟩ := bind_eq_ok.mp h
  obtain ⟨rfl, -⟩ := Prod.mk.inj (Except.ok.inj h)
  have hversion := decodeIpAddress_version hip
  exact ⟨hversion, validatePrefixLength_le hversion hlen⟩

theorem decodeEntries_forall {α : Type} {entry : Bytes → Except DecodeError (α × Bytes)}
    {P : α → Prop} (hentry : ∀ {buf a rest}, entry buf = .ok (a, rest) → P a) {fuel : Nat}
    {payload : Bytes} {as : List α} (h : decodeEntries entry fuel payload = .ok as) :
    ∀ a ∈ as, P a := by
  induction fuel generalizing payload as with
  | zero =>
    cases payload with
    | nil =>
      obtain rfl := Except.ok.inj h
      simp
    | cons b payload => cases h
  | succ fuel ih =>
    cases payload with
    | nil =>
      obtain rfl := Except.ok.inj h
      simp
    | cons b payload =>
      obtain ⟨⟨a, rest⟩, ha, h⟩ := bind_eq_ok.mp h
      obtain ⟨as, has, h⟩ := bind_eq_ok.mp h
      obtain rfl := Except.ok.inj h
      exact List.forall_mem_cons.mpr ⟨hentry ha, ih has⟩

theorem decodePayload_requests {capsuleType : Nat} {payload : Bytes} {c : Capsule}
    (h : decodePayload capsuleType payload = .ok c) : ∀ r ∈ c.requests, r.WellFormed := by
  unfold decodePayload at h
  split at h
  · obtain ⟨addrs, -, h⟩ := bind_eq_ok.mp h
    obtain rfl := Except.ok.inj h
    simp [Capsule.requests]
  · split at h
    · obtain ⟨requests, hrequests, h⟩ := bind_eq_ok.mp h
      split at h
      · cases h
      · obtain rfl := Except.ok.inj h
        exact decodeEntries_forall decodeRequestedAddress_wellFormed hrequests
    · split at h
      · obtain ⟨ranges, -, h⟩ := bind_eq_ok.mp h
        obtain ⟨-, -, h⟩ := bind_eq_ok.mp h
        obtain rfl := Except.ok.inj h
        simp [Capsule.requests]
      · obtain rfl := Except.ok.inj h
        simp [Capsule.requests]

theorem drain_requests (b : CapsuleBuffer) :
    ∀ c ∈ b.drain.messages, ∀ r ∈ c.requests, r.WellFormed := by
  intro c hc
  obtain ⟨frame, hnext⟩ := Framer.exists_frame_of_mem (f := CapsuleBuffer.framer) hc
  change nextCapsule frame = _ at hnext
  rw [nextCapsule_eq] at hnext
  split at hnext
  · cases hnext
  · rename_i capsuleType payload rest _
    cases hpayload : decodePayload capsuleType payload with
    | error e => simp [hpayload, Except.map] at hnext
    | ok c' =>
      obtain rfl : c' = c := by simpa [hpayload, Except.map] using (Prod.mk.inj hnext).1
      exact decodePayload_requests hpayload

end Requests

end Straw
