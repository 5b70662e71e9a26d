import Straw.Capsule.Encode

/-!
# The two orders of address ranges

The derived order of a range compares the version, the ends and then the protocol; the
key that ROUTE_ADVERTISEMENT asks for compares the version, the protocol and the start.
Both are written out here over the positions of the addresses.
-/

namespace Straw

open Codec Outcome
set_option autoImplicit false

/-- The position of an address in the order of `IpAddr`: IPv4 comes first. -/
def IpAddr.rank : IpAddr → Nat
  | .v4 a => a.toNat
  | .v6 a => 2 ^ 32 + a.toNat

theorem cmpIpAddr_eq_compare (a b : IpAddr) : cmpIpAddr a b = compare a.rank b.rank := by
  cases a with
  | v4 a =>
    cases b with
    | v4 b => rfl
    | v6 b =>
      have hlt := a.isLt
      symm
      apply Nat.compare_eq_lt.mpr
      simp only [IpAddr.rank]
      omega
  | v6 a =>
    cases b with
    | v4 b =>
      have hlt := b.isLt
      symm
      apply Nat.compare_eq_gt.mpr
      simp only [IpAddr.rank]
      omega
    | v6 b =>
      have hshift : ∀ x y : Nat, compare (2 ^ 32 + x) (2 ^ 32 + y) = compare x y := by
        intro x y
        simp only [compare, compareOfLessAndEq, Nat.add_lt_add_iff_left, Nat.add_left_cancel_iff]
      exact (hshift a.toNat b.toNat).symm

theorem IpAddr.rank_inj {a b : IpAddr} (h : a.rank = b.rank) : a = b := by
  cases a with
  | v4 a =>
    have ha := a.isLt
    cases b with
    | v4 b => exact congrArg IpAddr.v4 (BitVec.eq_of_toNat_eq h)
    | v6 b =>
      simp only [rank] at h
      omega
  | v6 a =>
    cases b with
    | v4 b =>
      have hb := b.isLt
      simp only [rank] at h
      omega
    | v6 b =>
      simp only [rank] at h
      exact congrArg IpAddr.v6 (BitVec.eq_of_toNat_eq (by omega))

/-- Within one family the position is the numeric key, shifted by a constant. -/
theorem IpAddr.rank_eq_ipKey (a : IpAddr) :
    a.rank = ipKey a + if a.version = 4 then 0 else 2 ^ 32 := by
  cases a with
  | v4 a => rfl
  | v6 a => exact Nat.add_comm _ _

theorem IpAddr.rank_le_rank {a b : IpAddr} (h : a.version = b.version) :
    a.rank ≤ b.rank ↔ ipKey a ≤ ipKey b := by
  rw [rank_eq_ipKey, rank_eq_ipKey, h]
  omega

theorem IpAddr.rank_lt_rank {a b : IpAddr} (h : a.version = b.version) :
    a.rank < b.rank ↔ ipKey a < ipKey b := by
  rw [rank_eq_ipKey, rank_eq_ipKey, h]
  omega

namespace IpAddressRange

/-- The version is that of both ends, and the start is not above the end. -/
structure Valid (r : IpAddressRange) : Prop where
  wellFormed : r.WellFormed
  ordered : ipKey r.startIp ≤ ipKey r.endIp

instance (r : IpAddressRange) : Decidable r.Valid :=
  decidable_of_iff (r.WellFormed ∧ ipKey r.startIp ≤ ipKey r.endIp)
    ⟨fun h => ⟨h.1, h.2⟩, fun h => ⟨h.wellFormed, h.ordered⟩⟩

variable {a b c : IpAddressRange}

theorem cmp_eq_lt : a.cmp b = .lt ↔
    a.ipVersion < b.ipVersion ∨ a.ipVersion = b.ipVersion ∧
      (a.startIp.rank < b.startIp.rank ∨ a.startIp.rank = b.startIp.rank ∧
        (a.endIp.rank < b.endIp.rank ∨ a.endIp.rank = b.endIp.rank ∧
          a.ipProtocol.toNat < b.ipProtocol.toNat)) := by
  simp only [cmp, cmpIpAddr_eq_compare, Ordering.then_eq_lt, Nat.compare_eq_lt, Nat.compare_eq_eq]

theorem cmp_eq_gt : a.cmp b = .gt ↔ b.cmp a = .lt := by
  rw [cmp_eq_lt]
  simp only [cmp, cmpIpAddr_eq_compare, Ordering.then_eq_gt, Nat.compare_eq_gt, Nat.compare_eq_eq]
  omega

theorem cmpKey_eq_lt : a.cmpKey b = .lt ↔
    a.ipVersion < b.ipVersion ∨ a.ipVersion = b.ipVersion ∧
      (a.ipProtocol.toNat < b.ipProtocol.toNat ∨ a.ipProtocol.toNat = b.ipProtocol.toNat ∧
        a.startIp.rank < b.startIp.rank) := by
  simp only [cmpKey, cmpIpAddr_eq_compare, Ordering.then_eq_lt, Nat.compare_eq_lt,
    Nat.compare_eq_eq]

theorem cmpKey_eq_gt : a.cmpKey b = .gt ↔ b.cmpKey a = .lt := by
  rw [cmpKey_eq_lt]
  simp only [cmpKey, cmpIpAddr_eq_compare, Ordering.then_eq_gt, Nat.compare_eq_gt,
    Nat.compare_eq_eq]
  omega

theorem eq_of_fields (hversion : a.ipVersion = b.ipVersion)
    (hstart : a.startIp.rank = b.startIp.rank) (hend : a.endIp.rank = b.endIp.rank)
    (hproto : a.ipProtocol.toNat = b.ipProtocol.toNat) : a = b := by
  cases a
  cases b
  simp only [mk.injEq]
  exact ⟨hversion, IpAddr.rank_inj hstart, IpAddr.rank_inj hend, UInt8.toNat_inj.mp hproto⟩

theorem eq_of_cmp_ne (hlt : a.cmp b ≠ .lt) (hgt : a.cmp b ≠ .gt) : a = b := by
  rw [Ne, cmp_eq_lt] at hlt
  rw [Ne, cmp_eq_gt, cmp_eq_lt] at hgt
  apply eq_of_fields
  all_goals omega

/-- Two ranges of one version and protocol share an address. -/
def Overlaps (a b : IpAddressRange) : Prop :=
  a.ipVersion = b.ipVersion ∧ a.ipProtocol = b.ipProtocol ∧
    ipKey a.startIp ≤ ipKey b.endIp ∧ ipKey b.startIp ≤ ipKey a.endIp

instance (a b : IpAddressRange) : Decidable (a.Overlaps b) :=
  inferInstanceAs (Decidable (_ ∧ _ ∧ _ ∧ _))

theorem Overlaps.symm (h : a.Overlaps b) : b.Overlaps a :=
  ⟨h.1.symm, h.2.1.symm, h.2.2.2, h.2.2.1⟩

theorem Valid.start_version (ha : a.Valid) (hb : b.Valid) (h : a.ipVersion = b.ipVersion) :
    a.startIp.version = b.startIp.version :=
  ha.wellFormed.1.trans (h.trans hb.wellFormed.1.symm)

theorem Valid.start_le_end (ha : a.Valid) : a.startIp.rank ≤ a.endIp.rank :=
  (IpAddr.rank_le_rank (ha.wellFormed.1.trans ha.wellFormed.2.symm)).mpr ha.ordered

/-- Ranges that do not overlap differ in their key. -/
theorem cmpKey_lt_of_not_overlaps (ha : a.Valid) (hb : b.Valid) (h : ¬ a.Overlaps b)
    (hle : a.cmpKey b ≠ .gt) : a.cmpKey b = .lt := by
  rw [Ne, cmpKey_eq_gt, cmpKey_eq_lt] at hle
  rw [cmpKey_eq_lt]
  by_cases hversion : a.ipVersion = b.ipVersion
  · by_cases hproto : a.ipProtocol.toNat = b.ipProtocol.toNat
    · have hstart : a.startIp.rank ≠ b.startIp.rank := by
        intro heq
        apply h
        have hsame := IpAddr.rank_inj heq
        have hA := ha.ordered
        have hB := hb.ordered
        refine ⟨hversion, UInt8.toNat_inj.mp hproto, ?_, ?_⟩
        · rwa [hsame]
        · rwa [← hsame]
      omega
    · omega
  · omega

end IpAddressRange

section Sorting

variable {ranges : List IpAddressRange}

theorem sortRanges_perm (ranges : List IpAddressRange) : (sortRanges ranges).Perm ranges :=
  List.perm_insertionSort _ _

theorem sortRanges_pairwise (ranges : List IpAddressRange) :
    (sortRanges ranges).Pairwise fun a b => a.cmpKey b ≠ .gt := by
  have : Std.Total fun a b : IpAddressRange => a.cmpKey b ≠ .gt := by
    constructor
    intro a b
    simp only [ne_eq, IpAddressRange.cmpKey_eq_gt, IpAddressRange.cmpKey_eq_lt]
    omega
  have : IsTrans IpAddressRange fun a b => a.cmpKey b ≠ .gt := by
    constructor
    intro a b c
    simp only [ne_eq, IpAddressRange.cmpKey_eq_gt, IpAddressRange.cmpKey_eq_lt]
    omega
  exact List.pairwise_insertionSort _ ranges

/-- Without overlaps the sorted ranges increase strictly. -/
theorem sortRanges_strict (hvalid : ∀ r ∈ ranges, r.Valid)
    (hdisjoint : ranges.Pairwise fun a b => ¬ a.Overlaps b) :
    (sortRanges ranges).Pairwise fun a b => a.cmpKey b = .lt := by
  have hperm := sortRanges_perm ranges
  have hsorted : (sortRanges ranges).Pairwise fun a b => ¬ a.Overlaps b :=
    (hperm.pairwise_iff fun h hover => h hover.symm).mpr hdisjoint
  refine ((sortRanges_pairwise ranges).and hsorted).imp_of_mem ?_
  intro a b ha hb hab
  exact IpAddressRange.cmpKey_lt_of_not_overlaps (hvalid a (hperm.mem_iff.mp ha))
    (hvalid b (hperm.mem_iff.mp hb)) hab.2 hab.1

theorem sortRanges_of_strict (h : ranges.Pairwise fun a b => a.cmpKey b = .lt) :
    sortRanges ranges = ranges := by
  apply List.Pairwise.insertionSort_eq
  refine h.imp ?_
  intro a b hab
  rw [hab]
  decide

theorem validateOrder_eq_ok (ranges : List IpAddressRange) :
    validateOrder ranges = .ok () ↔ ranges.IsChain fun a b => outOfOrder a b = false := by
  induction ranges with
  | nil => simp [validateOrder]
  | cons a ranges ih =>
    cases ranges with
    | nil => simp [validateOrder]
    | cons b ranges =>
      rw [List.isChain_cons_cons, ← ih, validateOrder]
      cases outOfOrder a b with
      | false => simp
      | true => simp

/-- A strictly increasing key passes the check, whatever the derived order says. -/
theorem validateOrder_of_strict (h : ranges.Pairwise fun a b => a.cmpKey b = .lt) :
    validateOrder ranges = .ok () := by
  rw [validateOrder_eq_ok]
  refine (h.imp ?_).isChain
  intro a b hab
  simp [outOfOrder, hab]

end Sorting

end Straw
