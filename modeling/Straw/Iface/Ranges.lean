import Straw.Capsule.Basic
import Mathlib.Data.List.Sort
import Mathlib.Data.List.Destutter
import Mathlib.Data.Prod.Lex

/-!
# Advertised ranges as routes

`prefixes_from_ranges` cuts the ranges of a route advertisement into prefixes for the
kernel. The subnet iterators of the `ipnet` crate do the cutting; all that is assumed of
them is that the prefixes they give for an interval cover it exactly.
-/

namespace Straw

set_option autoImplicit false

/-! The order of prefixes -/

namespace IpNet

/-- IPv4 before IPv6, then by address, then by length. -/
def key : IpNet → Nat ×ₗ (Nat ×ₗ Nat)
  | .v4 net => toLex (4, toLex (net.network.toNat, net.len))
  | .v6 net => toLex (6, toLex (net.network.toNat, net.len))

theorem key_injective : Function.Injective key := by
  intro a b h
  cases a with
  | v4 a =>
    cases b with
    | v4 b =>
      obtain ⟨-, hnet⟩ := Prod.mk.inj (toLex.injective h)
      obtain ⟨hnetwork, hlen⟩ := Prod.mk.inj (toLex.injective hnet)
      rw [NetPrefix.ext_toNat hnetwork hlen]
    | v6 b => exact absurd (Prod.mk.inj (toLex.injective h)).1 (by decide)
  | v6 a =>
    cases b with
    | v4 b => exact absurd (Prod.mk.inj (toLex.injective h)).1 (by decide)
    | v6 b =>
      obtain ⟨-, hnet⟩ := Prod.mk.inj (toLex.injective h)
      obtain ⟨hnetwork, hlen⟩ := Prod.mk.inj (toLex.injective hnet)
      rw [NetPrefix.ext_toNat hnetwork hlen]

instance linearOrder : LinearOrder IpNet := LinearOrder.lift' key key_injective

end IpNet

namespace Iface

def splitDefault (net : IpNet) : List IpNet :=
  if net.prefixLen ≠ 0 then [net]
  else
    match net with
    | .v4 _ =>
      [.v4 (NetPrefix.ofAddr 0x00000000#32 1 (by decide)),
        .v4 (NetPrefix.ofAddr 0x80000000#32 1 (by decide))]
    | .v6 _ =>
      [.v6 (NetPrefix.ofAddr 0x00000000000000000000000000000000#128 1 (by decide)),
        .v6 (NetPrefix.ofAddr 0x80000000000000000000000000000000#128 1 (by decide))]

/-- The subnet iterators of `ipnet`, run to their end: from a first address to a last one,
with a least prefix length. -/
structure SubnetIters where
  v4 : Ipv4Addr → Ipv4Addr → Nat → List Ipv4Net
  v6 : Ipv6Addr → Ipv6Addr → Nat → List Ipv6Net

def rangePrefixes (subnets : SubnetIters) (range : IpAddressRange) : List IpNet :=
  if range.ipProtocol ≠ 0 then []
  else
    match range.startIp, range.endIp with
    | .v4 start, .v4 stop => if start ≤ stop then (subnets.v4 start stop 0).map .v4 else []
    | .v6 start, .v6 stop => if start ≤ stop then (subnets.v6 start stop 0).map .v6 else []
    | _, _ => []

def prefixesFromRanges (subnets : SubnetIters) (ranges : List IpAddressRange) : List IpNet :=
  let out := ranges.flatMap fun range => (rangePrefixes subnets range).flatMap splitDefault
  (out.insertionSort (· ≤ ·)).destutter (· ≠ ·)

/-! What the prefixes cover -/

def Covered (nets : List IpNet) (a : IpAddr) : Prop := ∃ net ∈ nets, net.contains a = true

theorem not_covered_nil (a : IpAddr) : ¬ Covered [] a := by
  rintro ⟨net, hnet, -⟩
  exact List.not_mem_nil hnet

theorem covered_flatMap {α : Type} {xs : List α} {f : α → List IpNet} {a : IpAddr} :
    Covered (xs.flatMap f) a ↔ ∃ x ∈ xs, Covered (f x) a := by
  constructor
  · rintro ⟨net, hnet, ha⟩
    obtain ⟨x, hx, hmem⟩ := List.mem_flatMap.mp hnet
    exact ⟨x, hx, net, hmem, ha⟩
  · rintro ⟨x, hx, net, hnet, ha⟩
    exact ⟨net, List.mem_flatMap.mpr ⟨x, hx, hnet⟩, ha⟩

/-- The nets and the addresses of one of the two families. -/
structure Family {w : Nat} (mkNet : NetPrefix w → IpNet) (mkAddr : BitVec w → IpAddr) : Prop where
  contains_iff : ∀ net a,
    (mkNet net).contains a = true ↔ ∃ b, a = mkAddr b ∧ net.contains b = true

theorem family_v4 : Family IpNet.v4 IpAddr.v4 := by
  constructor
  intro net a
  cases a with
  | v4 a => simp [IpNet.contains]
  | v6 a => simp [IpNet.contains]

theorem family_v6 : Family IpNet.v6 IpAddr.v6 := by
  constructor
  intro net a
  cases a with
  | v4 a => simp [IpNet.contains]
  | v6 a => simp [IpNet.contains]

namespace Family

variable {w : Nat} {mkNet : NetPrefix w → IpNet} {mkAddr : BitVec w → IpAddr} {a : IpAddr}

/-- The two halves cover what a prefix of length zero covers. -/
theorem covered_halves (hf : Family mkNet mkAddr) (hw : 1 ≤ w) (hi : BitVec w)
    (hhi : hi.toNat = 2 ^ (w - 1)) {net : NetPrefix w} (hlen : net.len = 0) :
    Covered [mkNet (NetPrefix.ofAddr 0#w 1 hw), mkNet (NetPrefix.ofAddr hi 1 hw)] a ↔
      (mkNet net).contains a = true := by
  have hall : (mkNet net).contains a = true ↔ ∃ b, a = mkAddr b := by
    simp only [hf.contains_iff, NetPrefix.contains_of_len_eq_zero hlen, and_true]
  rw [hall]
  constructor
  · rintro ⟨half, hhalf, ha⟩
    obtain rfl | rfl := List.mem_pair.mp hhalf
    · obtain ⟨b, hb, -⟩ := (hf.contains_iff _ a).mp ha
      exact ⟨b, hb⟩
    · obtain ⟨b, hb, -⟩ := (hf.contains_iff _ a).mp ha
      exact ⟨b, hb⟩
  · rintro ⟨b, rfl⟩
    obtain hlow | hhigh := NetPrefix.halves_contain hw hi hhi b
    · exact ⟨_, List.mem_cons_self, (hf.contains_iff _ _).mpr ⟨b, rfl, hlow⟩⟩
    · exact ⟨_, List.mem_cons_of_mem _ List.mem_cons_self,
        (hf.contains_iff _ _).mpr ⟨b, rfl, hhigh⟩⟩

/-- Exact prefixes for an interval cover the interval. -/
theorem covered_interval (hf : Family mkNet mkAddr) {nets : List (NetPrefix w)}
    {start stop : BitVec w} (hexact : start ≤ stop → ∀ b,
      (∃ net ∈ nets, net.contains b = true) ↔ start ≤ b ∧ b ≤ stop) :
    Covered (if start ≤ stop then nets.map mkNet else []) a ↔
      start ≤ stop ∧ ∃ b, a = mkAddr b ∧ start ≤ b ∧ b ≤ stop := by
  split
  · rename_i hle
    simp only [hle, true_and, ← hexact hle]
    constructor
    · rintro ⟨_, hmem, ha⟩
      obtain ⟨net, hnet, rfl⟩ := List.mem_map.mp hmem
      obtain ⟨b, rfl, hb⟩ := (hf.contains_iff net a).mp ha
      exact ⟨b, rfl, net, hnet, hb⟩
    · rintro ⟨b, rfl, net, hnet, hb⟩
      exact ⟨mkNet net, List.mem_map_of_mem hnet, (hf.contains_iff net _).mpr ⟨b, rfl, hb⟩⟩
  · rename_i hle
    exact iff_of_false (not_covered_nil a) fun hr => hle hr.1

end Family

theorem covered_splitDefault {net : IpNet} {a : IpAddr} :
    Covered (splitDefault net) a ↔ net.contains a = true := by
  unfold splitDefault
  split
  · simp [Covered]
  · rename_i hlen
    have hzero : net.prefixLen = 0 := not_not.mp hlen
    cases net with
    | v4 net => exact family_v4.covered_halves (by decide) 0x80000000#32 rfl hzero
    | v6 net =>
      exact family_v6.covered_halves (by decide) 0x80000000000000000000000000000000#128 rfl hzero

theorem prefixLen_splitDefault {net half : IpNet} (h : half ∈ splitDefault net) :
    half.prefixLen ≠ 0 := by
  unfold splitDefault at h
  split at h
  · rwa [List.mem_singleton.mp h]
  · cases net with
    | v4 net =>
      obtain rfl | rfl := List.mem_pair.mp h
      · exact Nat.one_ne_zero
      · exact Nat.one_ne_zero
    | v6 net =>
      obtain rfl | rfl := List.mem_pair.mp h
      · exact Nat.one_ne_zero
      · exact Nat.one_ne_zero

/-- The prefixes for an interval cover it exactly. -/
structure SubnetIters.Exact (subnets : SubnetIters) : Prop where
  v4 : ∀ start stop, start ≤ stop → ∀ a,
    (∃ net ∈ subnets.v4 start stop 0, net.contains a = true) ↔ start ≤ a ∧ a ≤ stop
  v6 : ∀ start stop, start ≤ stop → ∀ a,
    (∃ net ∈ subnets.v6 start stop 0, net.contains a = true) ↔ start ≤ a ∧ a ≤ stop

/-- No protocol scope, both ends of one family, and the first not above the last. -/
def Installable (range : IpAddressRange) : Prop :=
  range.ipProtocol = 0 ∧
    match range.startIp, range.endIp with
    | .v4 start, .v4 stop => start ≤ stop
    | .v6 start, .v6 stop => start ≤ stop
    | _, _ => False

/-- The addresses from the first to the last of a range. -/
def Spans (range : IpAddressRange) (a : IpAddr) : Prop :=
  match range.startIp, range.endIp, a with
  | .v4 start, .v4 stop, .v4 a => start ≤ a ∧ a ≤ stop
  | .v6 start, .v6 stop, .v6 a => start ≤ a ∧ a ≤ stop
  | _, _, _ => False

variable {subnets : SubnetIters} {ranges : List IpAddressRange}

theorem covered_rangePrefixes (h : subnets.Exact) {range : IpAddressRange} {a : IpAddr} :
    Covered (rangePrefixes subnets range) a ↔ Installable range ∧ Spans range a := by
  obtain ⟨version, startIp, endIp, proto⟩ := range
  by_cases hproto : proto = 0
  · subst hproto
    cases startIp with
    | v4 start =>
      cases endIp with
      | v4 stop =>
        apply (family_v4.covered_interval (h.v4 start stop)).trans
        cases a <;> simp [Installable, Spans]
      | v6 stop => exact iff_of_false (not_covered_nil a) fun hr => hr.1.2
    | v6 start =>
      cases endIp with
      | v4 stop => exact iff_of_false (not_covered_nil a) fun hr => hr.1.2
      | v6 stop =>
        apply (family_v6.covered_interval (h.v6 start stop)).trans
        cases a <;> simp [Installable, Spans]
  · have hnone : rangePrefixes subnets ⟨version, startIp, endIp, proto⟩ = [] := by
      unfold rangePrefixes
      exact if_pos hproto
    rw [hnone]
    exact iff_of_false (not_covered_nil a) fun hr => hproto hr.1.1

/-! Sorting -/

theorem destutter_sorted (nets : List IpNet) :
    (nets.insertionSort (· ≤ ·)).destutter (· ≠ ·) = (nets.insertionSort (· ≤ ·)).dedup :=
  (List.pairwise_insertionSort (· ≤ ·) nets).destutter_eq_dedup

theorem mem_prefixesFromRanges {net : IpNet} :
    net ∈ prefixesFromRanges subnets ranges ↔
      net ∈ ranges.flatMap fun range => (rangePrefixes subnets range).flatMap splitDefault := by
  rw [prefixesFromRanges, destutter_sorted, List.mem_dedup, List.mem_insertionSort]

theorem prefixesFromRanges_increasing (subnets : SubnetIters) (ranges : List IpAddressRange) :
    (prefixesFromRanges subnets ranges).Pairwise (· < ·) := by
  rw [prefixesFromRanges, destutter_sorted]
  have hle := (List.pairwise_insertionSort (· ≤ ·) (ranges.flatMap fun range =>
    (rangePrefixes subnets range).flatMap splitDefault)).sublist (List.dedup_sublist _)
  apply (hle.and (List.nodup_dedup _)).imp
  intro a b hab
  exact lt_of_le_of_ne hab.1 hab.2

/-- The routes for an advertisement reach what it advertises without a protocol scope and
nothing else; none of them is a default route, and they come in order. -/
theorem prefixesFromRanges_exact (h : subnets.Exact) (ranges : List IpAddressRange) :
    (∀ a, Covered (prefixesFromRanges subnets ranges) a ↔
      ∃ range ∈ ranges, Installable range ∧ Spans range a) ∧
    (∀ net ∈ prefixesFromRanges subnets ranges, net.prefixLen ≠ 0) ∧
    (prefixesFromRanges subnets ranges).Pairwise (· < ·) := by
  refine ⟨?_, ?_, prefixesFromRanges_increasing subnets ranges⟩
  · intro a
    have hsame : Covered (prefixesFromRanges subnets ranges) a ↔ Covered (ranges.flatMap
        fun range => (rangePrefixes subnets range).flatMap splitDefault) a := by
      simp only [Covered, mem_prefixesFromRanges]
    have hsplit (nets : List IpNet) : Covered (nets.flatMap splitDefault) a ↔ Covered nets a := by
      rw [covered_flatMap]
      simp only [covered_splitDefault]
      rfl
    rw [hsame, covered_flatMap]
    simp only [hsplit, covered_rangePrefixes h]
  · intro net hnet
    obtain ⟨range, -, hmem⟩ := List.mem_flatMap.mp (mem_prefixesFromRanges.mp hnet)
    obtain ⟨whole, -, hhalf⟩ := List.mem_flatMap.mp hmem
    exact prefixLen_splitDefault hhalf

/-- Host routes, one for each address of the interval. -/
def hostRoutes {w : Nat} (start stop : BitVec w) : List (NetPrefix w) :=
  (List.range (stop.toNat - start.toNat + 1)).map fun i =>
    NetPrefix.ofAddr (BitVec.ofNat w (start.toNat + i)) w (Nat.le_refl w)

theorem hostRoutes_contain {w : Nat} {start stop : BitVec w} (h : start ≤ stop) (a : BitVec w) :
    (∃ net ∈ hostRoutes start stop, net.contains a = true) ↔ start ≤ a ∧ a ≤ stop := by
  simp only [hostRoutes, List.mem_map, List.mem_range, exists_exists_and_eq_and,
    NetPrefix.ofAddr_full_contains_iff, BitVec.le_def]
  rw [BitVec.le_def] at h
  have hstop := stop.isLt
  constructor
  · rintro ⟨i, hi, rfl⟩
    rw [BitVec.toNat_ofNat, Nat.mod_eq_of_lt (by omega)]
    omega
  · rintro ⟨hlow, hhigh⟩
    refine ⟨a.toNat - start.toNat, by omega, ?_⟩
    rw [Nat.add_sub_cancel' hlow, BitVec.ofNat_toNat, BitVec.setWidth_eq]

def hostIters : SubnetIters :=
  ⟨fun start stop _ => hostRoutes start stop, fun start stop _ => hostRoutes start stop⟩

theorem prefixesFromRanges_exact_hosts :
    hostIters.Exact ∧
    (prefixesFromRanges hostIters
      [⟨4, .v4 0xfffffffe#32, .v4 0xffffffff#32, 0⟩, ⟨4, .v4 0xffffffff#32, .v6 0#128, 0⟩]).Pairwise
      (· < ·) ∧
    Covered (prefixesFromRanges hostIters
      [⟨4, .v4 0xfffffffe#32, .v4 0xffffffff#32, 0⟩, ⟨4, .v4 0xffffffff#32, .v6 0#128, 0⟩])
      (.v4 0xffffffff#32) := by
  have hexact : hostIters.Exact :=
    ⟨fun _ _ hle a => hostRoutes_contain hle a, fun _ _ hle a => hostRoutes_contain hle a⟩
  have hroutes := prefixesFromRanges_exact hexact
    [⟨4, .v4 0xfffffffe#32, .v4 0xffffffff#32, 0⟩, ⟨4, .v4 0xffffffff#32, .v6 0#128, 0⟩]
  refine ⟨hexact, hroutes.2.2, (hroutes.1 _).mpr ⟨_, List.mem_cons_self, ⟨rfl, ?_⟩, ?_, ?_⟩⟩
  · decide
  · decide
  · decide

end Iface

end Straw
