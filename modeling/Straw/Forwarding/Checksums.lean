import Straw.Forwarding.Offload
import Straw.Forwarding.IcmpErrors

/-!
# The three checksum routines

`internet_checksum`, seeded with the sum of a pseudo-header, gives what `ipv4_checksum` and
`icmpv6_checksum` give over the bytes. None of the sums leaves 32 bits, and the checksum
written into the data makes the data sum to zero.
-/

namespace Straw.Checksums

open Outcome OnesComplement Packet Vnet Icmp
set_option autoImplicit false

/-- The additions over the words of the data all fit a `u32`. -/
def SumFits (data : Bytes) : Prop := sumPart data 0 = .ok (sumWords data 0)

section Data
variable {data : Bytes} {seed i : Nat}

theorem sumFits (h : data.length ≤ 131070) : SumFits data := by
  have hsum := wordSum_le data
  rw [SumFits, sumPart_of_lt (by omega), sumWords_of_lt (by omega)]

theorem internetChecksum_zero (h : data.length ≤ 131070) :
    internetChecksum 0 [data] = .ok (ipv4Checksum data) := by
  have hsum := wordSum_le data
  rw [internetChecksum_of_lt (by omega), ipv4Checksum_eq h, Nat.zero_add]

theorem internetChecksum_written {c : Nat} (h : 2 * seed + 0xffff * (data.length + 1) < 2 ^ 33)
    (hi : i % 2 = 0) (hfit : i + 2 ≤ data.length) (hzero : field data i 2 = [0, 0])
    (hc : internetChecksum seed [data] = .ok c) :
    internetChecksum seed [splice data i (BigEndian.ofNat 2 c)] = .ok 0 := by
  have hlen : (splice data i (BigEndian.ofNat 2 c)).length = data.length :=
    length_splice (by rw [BigEndian.ofNat_length]; exact hfit)
  have hsum := wordSum_le data
  have hsum' := wordSum_le (splice data i (BigEndian.ofNat 2 c))
  rw [hlen] at hsum'
  rw [internetChecksum_of_lt (by omega)] at hc
  rw [internetChecksum_of_lt (by omega), ← Except.ok.inj hc,
    fold_complement_zeroed hi hfit hzero]

end Data

section Icmpv6
variable {src dst : Ipv6Addr} {m h : Bytes}

/-- An IPv6 header with these addresses in front of an ICMPv6 message. -/
structure Icmpv6Header (src dst : Ipv6Addr) (h : Bytes) : Prop where
  length : 40 ≤ h.length
  version : version h = 6
  nextHeader : h.getD 6 0 = 58
  src : field h 8 16 = src.octets
  dst : field h 24 16 = dst.octets

theorem wordSum_v6Seed {n : Nat} (h : n ≤ 0xffff) :
    wordSum (v6Seed src dst n) = wordSum (src.octets ++ dst.octets) + n + 58 := by
  have hlen := length_octets16 src
  have hlen' := length_octets16 dst
  rw [v6Seed, wordSum_append (by simp [hlen, hlen']), wordSum_append (by simp [hlen, hlen']),
    wordSum_ofNat_four h]
  rfl

theorem icmpv6Checksum_seeded (hm : m.length ≤ 65535) :
    icmpv6Checksum src dst m = 0xffff - fold (wordSum (v6Seed src dst m.length) + wordSum m) := by
  have hseed := length_v6Seed src dst m.length
  rw [icmpv6Checksum, ← v6Seed, ipv4Checksum_eq (by rw [List.length_append]; omega),
    wordSum_append (by omega)]

namespace Icmpv6Header

theorem pseudoSum_eq_seed (hh : Icmpv6Header src dst h) (hm : m.length ≤ 65535) :
    pseudoSum h m.length = .ok (wordSum (v6Seed src dst m.length)) := by
  have hne : Packet.version h ≠ 4 := by
    rw [hh.version]
    decide
  have haddr : addressBytes h = src.octets ++ dst.octets := by
    rw [addressBytes, if_neg hne, ← hh.src, ← hh.dst, field, field, field,
      show 32 = 16 + 16 from rfl, List.take_add, List.drop_drop]
  rw [pseudoSum_eq (by omega), fixedHeaderLen_v6 hne, if_neg (Nat.not_lt.mpr hh.length),
    networkSum, haddr, nextProtocol, if_neg hne, hh.nextHeader, wordSum_v6Seed hm,
    Nat.add_right_comm]
  rfl

end Icmpv6Header

end Icmpv6

section Agreement
variable {d : Bytes} {src dst : Ipv6Addr} {m h : Bytes}

theorem wordSum_v6Seed_le (src dst : Ipv6Addr) (n : Nat) :
    wordSum (v6Seed src dst n) ≤ 0x200000 := by
  have hsum := wordSum_le (v6Seed src dst n)
  rw [length_v6Seed] at hsum
  omega

theorem internetChecksum_seeded (hm : m.length ≤ 65535) :
    internetChecksum (wordSum (v6Seed src dst m.length)) [m] =
      .ok (icmpv6Checksum src dst m) := by
  have hseed := wordSum_v6Seed_le src dst m.length
  have hsum := wordSum_le m
  rw [internetChecksum_of_lt (by omega), icmpv6Checksum_seeded hm]

theorem icmpv6Checksum_written {i : Nat} (hm : m.length ≤ 65535) (hi : i % 2 = 0)
    (hfit : i + 2 ≤ m.length) (hzero : field m i 2 = [0, 0]) :
    icmpv6Checksum src dst (splice m i (BigEndian.ofNat 2 (icmpv6Checksum src dst m))) = 0 := by
  have hlen : (splice m i (BigEndian.ofNat 2 (icmpv6Checksum src dst m))).length = m.length :=
    length_splice (by rw [BigEndian.ofNat_length]; exact hfit)
  have hrule := fold_complement_zeroed hi hfit hzero (wordSum (v6Seed src dst m.length))
  rw [← icmpv6Checksum_seeded hm] at hrule
  rw [icmpv6Checksum_seeded (by omega), hlen, hrule]

/-- The routines agree wherever two of them apply, and each of them verifies. -/
theorem checksums_agree (hd : d.length ≤ 131070) (hm : m.length ≤ 65535)
    (hh : Icmpv6Header src dst h) :
    (SumFits d ∧ internetChecksum 0 [d] = .ok (ipv4Checksum d) ∧
      ∀ i, i % 2 = 0 → i + 2 ≤ d.length → field d i 2 = [0, 0] →
        ipv4Checksum (splice d i (BigEndian.ofNat 2 (ipv4Checksum d))) = 0 ∧
        internetChecksum 0 [splice d i (BigEndian.ofNat 2 (ipv4Checksum d))] = .ok 0) ∧
    ∃ seed, pseudoSum h m.length = .ok seed ∧ SumFits (v6Seed src dst m.length ++ m) ∧
      internetChecksum seed [m] = .ok (icmpv6Checksum src dst m) ∧
      ∀ i, i % 2 = 0 → i + 2 ≤ m.length → field m i 2 = [0, 0] →
        icmpv6Checksum src dst (splice m i (BigEndian.ofNat 2 (icmpv6Checksum src dst m))) = 0 ∧
        internetChecksum seed [splice m i (BigEndian.ofNat 2 (icmpv6Checksum src dst m))] =
          .ok 0 := by
  constructor
  · refine ⟨sumFits hd, internetChecksum_zero hd, ?_⟩
    intro i hi hfit hzero
    exact ⟨ipv4Checksum_written hd hi hfit hzero,
      internetChecksum_written (by omega) hi hfit hzero (internetChecksum_zero hd)⟩
  · have hlen := length_v6Seed src dst m.length
    have hseed := wordSum_v6Seed_le src dst m.length
    refine ⟨wordSum (v6Seed src dst m.length), hh.pseudoSum_eq_seed hm,
      sumFits (by rw [List.length_append]; omega), internetChecksum_seeded hm, ?_⟩
    intro i hi hfit hzero
    exact ⟨icmpv6Checksum_written hm hi hfit hzero,
      internetChecksum_written (by omega) hi hfit hzero (internetChecksum_seeded hm)⟩

def echoHeader : Bytes :=
  [0x60, 0, 0, 0, 0, 9, 58, 64] ++ Ipv6Addr.octets 0xfd00000000000000000000000000000a#128 ++
    Ipv6Addr.octets 0xfd000000000000000000000000000001#128

def echoRequest : Bytes := [128, 0, 0, 0, 0x12, 0x34, 0, 1, 0xff]

theorem echoHeader_addresses :
    Icmpv6Header 0xfd00000000000000000000000000000a#128 0xfd000000000000000000000000000001#128
      echoHeader :=
  ⟨by decide +kernel, by decide +kernel, by decide +kernel, by decide +kernel, by decide +kernel⟩

theorem checksums_agree_echo :
    internetChecksum 0 [echoRequest] = .ok (ipv4Checksum echoRequest) ∧
    ∃ seed, pseudoSum echoHeader 9 = .ok seed ∧
      internetChecksum seed [splice echoRequest 2 (BigEndian.ofNat 2
        (icmpv6Checksum 0xfd00000000000000000000000000000a#128
          0xfd000000000000000000000000000001#128 echoRequest))] = .ok 0 := by
  have hagree := checksums_agree (d := echoRequest) (m := echoRequest) (by decide) (by decide)
    echoHeader_addresses
  obtain ⟨⟨-, hzero, -⟩, seed, hseed, -, -, hwritten⟩ := hagree
  exact ⟨hzero, seed, hseed, (hwritten 2 rfl (by decide) rfl).2⟩

end Agreement

end Straw.Checksums
