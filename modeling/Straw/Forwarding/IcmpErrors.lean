import Straw.Forwarding.IcmpBuffer

/-!
# What the ICMP builders promise

Every error they build is a packet the parser takes, with both checksums right, about the
packet it quotes. Which packets get none is compared with the rule that an ICMP error is
never answered by another.
-/

namespace Straw

open Outcome OnesComplement
set_option autoImplicit false

namespace Icmp

open Packet

theorem Buffer.buildIcmpError_version (kind : IcmpErrorKind) (source : IcmpSource)
    (original : Bytes) :
    Buffer.buildIcmpError kind source original =
      if version original = 4 then Buffer.buildV4Error kind source.v4 original
      else if version original = 6 then
        match source.v6 with
        | some gateway => Buffer.buildV6Error kind gateway original
        | none => .ok none
      else .ok none := by
  cases original with
  | nil => rfl
  | cons first rest =>
    rw [Buffer.buildIcmpError, if_neg (by simp), index_of_lt (by simp) 0, ok_bind]
    rfl

/-- The sender of the original can be answered (the last test is only about IPv4). -/
def Answerable : IpAddr → Prop
  | .v4 a => a.isUnspecified = false ∧ a.isLoopback = false ∧ a.isMulticast = false ∧
      a.isBroadcast = false
  | .v6 a => a.isUnspecified = false ∧ a.isLoopback = false ∧ a.isMulticast = false

theorem answerable_iff (a : IpAddr) : validErrorTarget a = true ↔ Answerable a := by
  cases a with
  | v4 a => simp [validErrorTarget, Answerable, and_assoc]
  | v6 a => simp [validErrorTarget, Answerable, and_assoc]

structure V4ErrorAbout (gateway : Ipv4Addr) (original packet : Bytes) : Prop where
  parsed : parsePacket packet = .ok ⟨4, .v4 gateway, Packet.source original, 1⟩
  answerable : Answerable (Packet.source original)
  headerSum : ipv4Checksum (packet.take 20) = 0
  icmpSum : ipv4Checksum (packet.drop 20) = 0
  quoted : packet.drop 28 = original.take (min original.length (ipHeaderLen original + 8))
  short : packet.length ≤ 96

structure V6ErrorAbout (gateway : Ipv6Addr) (original packet : Bytes) : Prop where
  parsed : parsePacket packet = .ok ⟨6, .v6 gateway, Packet.source original, 58⟩
  answerable : Answerable (Packet.source original)
  icmpSum : icmpv6Checksum gateway (Ipv6Addr.ofOctets (field original 8 16)) (packet.drop 40) = 0
  quoted : packet.drop 48 = original.take (min original.length 48)
  short : packet.length ≤ 96

theorem drop_message {fields : UInt8 × UInt8 × Bytes} (hfields : fields.2.2.length = 4)
    (quoted : Bytes) (checksum : Nat) : (message fields quoted checksum).drop 8 = quoted := by
  apply List.drop_left'
  simp [hfields]

theorem v4ErrorAbout {kind : IcmpErrorKind} {gateway : Ipv4Addr} {original : Bytes}
    (hv : version original = 4)
    (hvalid : validErrorTarget (.v4 (Ipv4Addr.ofOctets (field original 12 4))) = true) :
    V4ErrorAbout gateway original (v4Message kind gateway
      (Ipv4Addr.ofOctets (field original 12 4))
      (original.take (min original.length (statedIhl original + 8)))) := by
  have hsrc : Packet.source original = .v4 (Ipv4Addr.ofOctets (field original 12 4)) := if_pos hv
  have hihl : ipHeaderLen original = statedIhl original := if_pos hv
  have hlen : (original.take (min original.length (statedIhl original + 8))).length ≤ 68 := by
    have hnib : (original.getD 0 0 &&& 0x0f).toNat ≤ 15 := by
      rw [UInt8.toNat_and]
      exact Nat.and_le_right
    rw [List.length_take, statedIhl]
    omega
  generalize hquoted : original.take (min original.length (statedIhl original + 8)) = quoted at hlen ⊢
  have htake : (v4Message kind gateway (Ipv4Addr.ofOctets (field original 12 4)) quoted).take 20 =
      v4Header gateway (Ipv4Addr.ofOctets (field original 12 4)) (20 + (8 + quoted.length)) _ :=
    List.take_left' (length_v4Header ..)
  have hdrop : (v4Message kind gateway (Ipv4Addr.ofOctets (field original 12 4)) quoted).drop 20 =
      message (v4Fields kind) quoted _ := List.drop_left' (length_v4Header ..)
  refine ⟨?_, ?_, ?_, ?_, ?_, ?_⟩
  · rw [hsrc]
    exact parsePacket_v4Message kind gateway _ hlen
  · rw [hsrc]
    exact (answerable_iff _).mp hvalid
  · rw [htake]
    exact v4Header_sum gateway _ _
  · have hsum := message_sum (length_v4Fields kind) hlen [] rfl (by simp)
    rw [hdrop]
    exact hsum
  · have hrest := congrArg (List.drop 8) hdrop
    rw [List.drop_drop, drop_message (length_v4Fields kind)] at hrest
    rw [hihl, hquoted]
    exact hrest
  · simp [v4Message, message, length_v4Header, length_v4Fields]
    omega

/-- The pseudo-header of an ICMPv6 message of a given length. -/
def v6Seed (src dst : Ipv6Addr) (len : Nat) : Bytes :=
  src.octets ++ dst.octets ++ BigEndian.ofNat 4 len ++ [0, 0, 0, 58]

theorem length_v6Seed (src dst : Ipv6Addr) (len : Nat) : (v6Seed src dst len).length = 40 := by
  simp [v6Seed, length_octets16]

theorem icmpv6Checksum_message {fields : UInt8 × UInt8 × Bytes} (hfields : fields.2.2.length = 4)
    (src dst : Ipv6Addr) (quoted : Bytes) (checksum : Nat) :
    icmpv6Checksum src dst (message fields quoted checksum) =
      ipv4Checksum (v6Seed src dst (8 + quoted.length) ++ message fields quoted checksum) := by
  have hlen : (message fields quoted checksum).length = 8 + quoted.length := by
    simp [message, hfields]
    omega
  rw [icmpv6Checksum, hlen, v6Seed]

theorem v6ErrorAbout {kind : IcmpErrorKind} {gateway : Ipv6Addr} {original : Bytes}
    (hv : version original = 6)
    (hvalid : validErrorTarget (.v6 (Ipv6Addr.ofOctets (field original 8 16))) = true) :
    V6ErrorAbout gateway original (v6Message kind gateway
      (Ipv6Addr.ofOctets (field original 8 16)) (original.take (min original.length 48))) := by
  have hne : version original ≠ 4 := by
    rw [hv]
    decide
  have hsrc : Packet.source original = .v6 (Ipv6Addr.ofOctets (field original 8 16)) := if_neg hne
  have hlen : (original.take (min original.length 48)).length ≤ 48 := by
    rw [List.length_take]
    omega
  generalize hquoted : original.take (min original.length 48) = quoted at hlen ⊢
  have hdrop : (v6Message kind gateway (Ipv6Addr.ofOctets (field original 8 16)) quoted).drop 40 =
      message (v6Fields kind) quoted _ := List.drop_left' (length_v6Header ..)
  refine ⟨?_, ?_, ?_, ?_, ?_⟩
  · rw [hsrc]
    exact parsePacket_v6Message kind gateway _ hlen
  · rw [hsrc]
    exact (answerable_iff _).mp hvalid
  · have hseed := length_v6Seed gateway (Ipv6Addr.ofOctets (field original 8 16))
      (8 + quoted.length)
    have hsum := message_sum (length_v6Fields kind) (show quoted.length ≤ 68 by omega)
      (v6Seed gateway (Ipv6Addr.ofOctets (field original 8 16)) (8 + quoted.length))
      (by omega) (by omega)
    rw [hdrop, icmpv6Checksum_message (length_v6Fields kind),
      icmpv6Checksum_message (length_v6Fields kind)]
    exact hsum
  · have hrest := congrArg (List.drop 8) hdrop
    rw [List.drop_drop, drop_message (length_v6Fields kind)] at hrest
    rw [hquoted]
    exact hrest
  · simp [v6Message, message, length_v6Header, length_v6Fields]
    omega

/-- The builder never panics, and what it builds is an error about the original. -/
theorem buildIcmpError_wellFormed (kind : IcmpErrorKind) (source : IcmpSource) (original : Bytes) :
    ∃ result, Buffer.buildIcmpError kind source original = .ok result ∧
      ∀ packet, result = some packet →
        (version original = 4 ∧ V4ErrorAbout source.v4 original packet) ∨
        (version original = 6 ∧ ∃ gateway, source.v6 = some gateway ∧
          V6ErrorAbout gateway original packet) := by
  rw [Buffer.buildIcmpError_version]
  split
  · rename_i h4
    rw [Buffer.buildV4Error, buildV4ErrorWith_eq, writeV4Error_eq]
    split
    · rename_i hok
      refine ⟨_, rfl, ?_⟩
      intro packet hpacket
      obtain rfl := Option.some.inj hpacket
      exact Or.inl ⟨h4, v4ErrorAbout h4 hok.2.2.1⟩
    · exact ⟨none, rfl, fun packet hpacket => by cases hpacket⟩
  · split
    · rename_i h6
      cases hgateway : source.v6 with
      | none => exact ⟨none, rfl, fun packet hpacket => by cases hpacket⟩
      | some gateway =>
        simp only
        rw [Buffer.buildV6Error, buildV6ErrorWith_eq, writeV6Error_eq]
        split
        · rename_i hok
          refine ⟨_, rfl, ?_⟩
          intro packet hpacket
          obtain rfl := Option.some.inj hpacket
          exact Or.inr ⟨h6, gateway, rfl, v6ErrorAbout h6 hok.2.1⟩
        · exact ⟨none, rfl, fun packet hpacket => by cases hpacket⟩
    · exact ⟨none, rfl, fun packet hpacket => by cases hpacket⟩

/-- The proxy's addresses in the tests below. -/
def testSource : IcmpSource := ⟨0x0a640001#32, some 0xfd000000000000000000000000000001#128⟩

theorem buildIcmpError_wellFormed_options :
    ∃ packet, Buffer.buildIcmpError .timeExceeded testSource optionsPacket = .ok (some packet) ∧
      V4ErrorAbout 0x0a640001#32 optionsPacket packet := by
  obtain ⟨result, hbuild, hpacket⟩ :=
    buildIcmpError_wellFormed .timeExceeded testSource optionsPacket
  have hsome : (Buffer.buildIcmpError .timeExceeded testSource optionsPacket).map Option.isSome =
      .ok true := by decide +kernel
  rw [hbuild] at hsome
  obtain ⟨packet, rfl⟩ := Option.isSome_iff_exists.mp (Except.ok.inj hsome)
  rcases hpacket packet rfl with ⟨-, hv4⟩ | ⟨hv6, -⟩
  · exact ⟨packet, hbuild, hv4⟩
  · exact absurd hv6 (by decide)

/-- The original is itself an ICMP error: directly behind an IPv4 header, or behind the last
extension header of an IPv6 packet. -/
inductive CarriesIcmpError (original : Bytes) (info : PacketInfo) : Prop where
  | v4 (icmpType : UInt8) (version : info.version = 4) (protocol : info.protocol = 1)
      (first : be16 (original.getD 6 0) (original.getD 7 0) % 2 ^ 13 = 0)
      (there : original[ipHeaderLen original]? = some icmpType)
      (error : icmpType ∈ [3, 4, 5, 11, 12])
  | v6 (hs : List ExtensionHeader) (icmpType : UInt8) (body : Bytes) (version : info.version = 6)
      (protocol : info.protocol = 58) (first : ∀ h ∈ hs, ¬ h.IsLaterFragment)
      (chain : Ipv6Chain original hs 58 (icmpType :: body)) (error : icmpType < 128)

theorem parsePacket_cases {packet : Bytes} {info : PacketInfo} (h : parsePacket packet = .ok info) :
    (version packet = 4 ∧ info = ⟨4, Packet.source packet, destination packet, nextProtocol packet⟩) ∨
      (version packet = 6 ∧ info.version = 6 ∧ info.src = Packet.source packet) := by
  rcases (wellFormed_of_parsePacket h).version with h4 | h6
  · rw [parsePacket_v4 h4] at h
    split at h
    · exact Or.inl ⟨h4, (Except.ok.inj h).symm⟩
    · cases h
  · rw [parsePacket_v6 h6] at h
    split at h
    · obtain ⟨protocol, -, hinfo⟩ := bind_eq_ok.mp h
      obtain rfl := Except.ok.inj hinfo
      exact Or.inr ⟨h6, rfl, rfl⟩
    · cases h

theorem leads_eq_icmpv6 {hs : List ExtensionHeader} : leads hs 58 = 58 ↔ hs = [] := by
  cases hs with
  | nil => simp [leads]
  | cons h hs =>
    have hne : h.kind.number ≠ 58 := by
      cases h.kind <;> decide
    simp [leads, hne]

theorem v4ErrorSeen_of_carries {original : Bytes} {icmpType : UInt8} (hv : version original = 4)
    (hprotocol : nextProtocol original = 1)
    (hthere : original[ipHeaderLen original]? = some icmpType)
    (herror : icmpType ∈ [3, 4, 5, 11, 12]) : V4ErrorSeen original := by
  have hihl : ipHeaderLen original = statedIhl original := if_pos hv
  rw [hihl] at hthere
  refine ⟨?_, (List.getElem?_eq_some_iff.mp hthere).1, ?_⟩
  · rwa [nextProtocol, if_pos hv] at hprotocol
  · rw [List.getD_eq_getElem?_getD, hthere, Option.getD_some]
    simpa [isV4ErrorType, or_assoc] using herror

theorem v6ErrorSeen_iff {original : Bytes} {hs : List ExtensionHeader} {icmpType : UInt8}
    {body : Bytes} (hchain : Ipv6Chain original hs 58 (icmpType :: body))
    (herror : icmpType < 128) : V6ErrorSeen original ↔ original.getD 6 0 = 58 := by
  constructor
  · exact fun hseen => hseen.1
  · intro hnext
    have hnil : hs = [] := leads_eq_icmpv6.mp (hchain.announced.symm.trans hnext)
    subst hnil
    have hpayload : original.drop 40 = icmpType :: body := hchain.payload
    have hlen := length_of_drop hpayload hchain.header
    rw [List.length_cons] at hlen
    refine ⟨hnext, by omega, ?_⟩
    rw [show original.getD 40 0 = icmpType from getD_add_of_drop hpayload 0]
    exact herror

/-- An ICMP error goes unanswered exactly when it is IPv4, when the ICMPv6 header follows the
fixed header at once, or when no packet could be answered anyway. -/
theorem buildIcmpError_none_iff {original : Bytes} {info : PacketInfo}
    (hparse : parsePacket original = .ok info) (herror : CarriesIcmpError original info)
    (kind : IcmpErrorKind) (source : IcmpSource) :
    Buffer.buildIcmpError kind source original = .ok none ↔
      info.version = 4 ∨ nextProtocol original = 58 ∨ source.v6 = none ∨
        ¬ Answerable info.src := by
  rw [Buffer.buildIcmpError_version]
  cases herror with
  | v4 icmpType hversion hprotocol _ hthere hicmp =>
    rcases parsePacket_cases hparse with ⟨h4, hinfo⟩ | ⟨-, hsix, -⟩
    · subst hinfo
      have hseen := v4ErrorSeen_of_carries h4 hprotocol hthere hicmp
      rw [if_pos h4, Buffer.buildV4Error, buildV4ErrorWith_eq, if_neg fun h => h.2.2.2 hseen]
      simp
    · omega
  | v6 hs icmpType body hversion hprotocol _ hchain hicmp =>
    rcases parsePacket_cases hparse with ⟨-, hinfo⟩ | ⟨h6, -, hsrc⟩
    · subst hinfo
      cases hversion
    · have hne : version original ≠ 4 := by
        rw [h6]
        decide
      have hnext : nextProtocol original = original.getD 6 0 := if_neg hne
      have hsource : Packet.source original = .v6 (Ipv6Addr.ofOctets (field original 8 16)) :=
        if_neg hne
      rw [if_neg hne, if_pos h6, hnext, hsrc, hsource, ← v6ErrorSeen_iff hchain hicmp,
        ← answerable_iff]
      cases source.v6 with
      | none => simp
      | some gateway =>
        simp only
        rw [Buffer.buildV6Error, buildV6ErrorWith_eq, writeV6Error_eq]
        have hlen := hchain.header
        split
        · rename_i hok
          simp [hok.2.1, hok.2.2, hversion, Except.map]
        · rename_i hok
          simp only [hlen, true_and, not_and, not_not] at hok
          have hcase : V6ErrorSeen original ∨
              ¬ validErrorTarget (.v6 (Ipv6Addr.ofOctets (field original 8 16))) = true := by
            by_cases hvalid : validErrorTarget (.v6 (Ipv6Addr.ofOctets (field original 8 16))) = true
            · exact Or.inl (hok hvalid)
            · exact Or.inr hvalid
          simp only [true_iff]
          rcases hcase with hseen | hinvalid
          · exact Or.inr (Or.inl hseen)
          · exact Or.inr (Or.inr (Or.inr hinvalid))

/-- A Destination Unreachable that is answered with a Time Exceeded. -/
theorem buildIcmpError_about_error :
    parsePacket optionedError = .ok ⟨6, .v6 0xfd000000000000000000000000000002#128,
        .v6 0x20010db8000000000000000000000001#128, 58⟩ ∧
      optionedError.drop 48 = [1, 0, 0, 0, 0, 0, 0, 0] ∧
      (Buffer.buildIcmpError .timeExceeded testSource optionedError).map Option.isSome =
        .ok true := by
  refine ⟨?_, ?_, ?_⟩
  · decide +kernel
  · decide
  · decide +kernel

/-- The same error without the options is not answered. -/
def bareError : Bytes :=
  [0x60, 0, 0, 0, 0, 8, 58, 64] ++
    [0xfd, 0, 0, 0, 0, 0, 0, 0, 0, 0, 0, 0, 0, 0, 0, 2] ++
    [0x20, 0x01, 0x0d, 0xb8, 0, 0, 0, 0, 0, 0, 0, 0, 0, 0, 0, 1] ++ [1, 0, 0, 0, 0, 0, 0, 0]

theorem buildIcmpError_none_bare :
    Buffer.buildIcmpError .timeExceeded testSource bareError = .ok none := by
  have hparse : parsePacket bareError = .ok ⟨6, .v6 0xfd000000000000000000000000000002#128,
      .v6 0x20010db8000000000000000000000001#128, 58⟩ := by decide +kernel
  have hchain : Ipv6Chain bareError [] 58 [1, 0, 0, 0, 0, 0, 0, 0] :=
    ⟨by decide, by decide, by decide, by decide, by decide⟩
  have herror : CarriesIcmpError bareError ⟨6, .v6 0xfd000000000000000000000000000002#128,
      .v6 0x20010db8000000000000000000000001#128, 58⟩ :=
    .v6 [] 1 _ rfl rfl (fun h hmem => by cases hmem) hchain (by decide)
  exact (buildIcmpError_none_iff hparse herror .timeExceeded testSource).mpr
    (Or.inr (Or.inl (by decide)))

end Icmp

end Straw
