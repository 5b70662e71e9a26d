import Mathlib.Data.Prod.Lex
import Straw.Capsule.RoundTrip
import Straw.Forwarding.Engine
import Straw.Lib.Coalesce

/-!
# Merging ranges

`merge_ranges` sorts by the derived order and goes through the ranges once, comparing each
with the last one kept. It never changes what is covered. Its result is in normal form
unless the derived order returns to a protocol it had left.
-/

namespace Straw

open Codec Outcome
set_option autoImplicit false

/-- `u128::saturating_add`. -/
def saturatingAdd (a b : Nat) : Nat := min (a + b) (2 ^ 128 - 1)

/-- One turn of the loop of `merge_ranges`. -/
def mergeStep (merged : List IpAddressRange) (range : IpAddressRange) : List IpAddressRange :=
  match merged.getLast? with
  | some last =>
    if last.ipVersion = range.ipVersion ∧ last.ipProtocol = range.ipProtocol ∧
        ipKey range.startIp ≤ saturatingAdd (ipKey last.endIp) 1 then
      if ipKey last.endIp < ipKey range.endIp then
        merged.dropLast ++ [{ last with endIp := range.endIp }]
      else merged
    else merged ++ [range]
  | none => merged ++ [range]

/-- `ranges.sort()`: stable, by the derived order. -/
def sortDerived (ranges : List IpAddressRange) : List IpAddressRange :=
  ranges.insertionSort fun a b => a.cmp b ≠ .gt

def mergeRanges (ranges : List IpAddressRange) : List IpAddressRange :=
  (sortDerived ranges).foldl mergeStep []

namespace IpAddressRange

/-- Version and protocol, in the order of the key. -/
def group (r : IpAddressRange) : ℕ ×ₗ ℕ := toLex (r.ipVersion, r.ipProtocol.toNat)

theorem group_eq_iff {a b : IpAddressRange} :
    a.group = b.group ↔ a.ipVersion = b.ipVersion ∧ a.ipProtocol = b.ipProtocol := by
  rw [group, group, toLex_inj, Prod.mk.injEq, UInt8.toNat_inj]

def extend (last range : IpAddressRange) : IpAddressRange :=
  if ipKey last.endIp < ipKey range.endIp then { last with endIp := range.endIp } else last

def intervals : Intervals IpAddressRange (ℕ ×ₗ ℕ) where
  group := group
  lo r := ipKey r.startIp
  hi r := ipKey r.endIp
  extend := extend
  group_extend a b := by
    unfold extend
    split
    · rfl
    · rfl
  lo_extend a b := by
    unfold extend
    split
    · rfl
    · rfl
  hi_extend a b := by
    unfold extend
    split
    · rename_i hlt
      exact (Nat.max_eq_right (Nat.le_of_lt hlt)).symm
    · rename_i hge
      exact (Nat.max_eq_left (Nat.le_of_not_lt hge)).symm

theorem Valid.extend {a b : IpAddressRange} (ha : a.Valid) (hb : b.Valid)
    (h : a.group = b.group) : (a.extend b).Valid := by
  have hversion := (group_eq_iff.mp h).1
  unfold IpAddressRange.extend
  split
  · rename_i hlt
    refine ⟨⟨ha.wellFormed.1, hb.wellFormed.2.trans hversion.symm⟩, ?_⟩
    exact Nat.le_trans ha.ordered (Nat.le_of_lt hlt)
  · exact ha

end IpAddressRange

open IpAddressRange (intervals)

theorem ipKey_lt (ip : IpAddr) : ipKey ip < 2 ^ 128 := by
  cases ip with
  | v4 a => exact Nat.lt_trans a.isLt (by decide)
  | v6 a => exact a.isLt

section Merging

variable {ranges : List IpAddressRange} {last : IpAddressRange}

/-- No address is above the largest one, so saturation changes nothing. -/
theorem mergeStep_append (done : List IpAddressRange) (last range : IpAddressRange) :
    mergeStep (done ++ [last]) range =
      if intervals.group last = intervals.group range ∧
          intervals.lo range ≤ intervals.hi last + 1 then
        done ++ [intervals.extend last range]
      else done ++ [last] ++ [range] := by
  have hkey := ipKey_lt range.startIp
  have hguard : (last.ipVersion = range.ipVersion ∧ last.ipProtocol = range.ipProtocol ∧
      ipKey range.startIp ≤ saturatingAdd (ipKey last.endIp) 1) ↔
      (intervals.group last = intervals.group range ∧
        intervals.lo range ≤ intervals.hi last + 1) := by
    have hsat : ipKey range.startIp ≤ saturatingAdd (ipKey last.endIp) 1 ↔
        ipKey range.startIp ≤ ipKey last.endIp + 1 := by
      unfold saturatingAdd
      omega
    rw [hsat, ← and_assoc, ← IpAddressRange.group_eq_iff]
    rfl
  simp only [mergeStep, List.getLast?_concat, List.dropLast_concat, hguard]
  split
  · simp only [intervals, IpAddressRange.extend]
    split
    · rfl
    · rfl
  · rfl

theorem foldl_mergeStep (done : List IpAddressRange) (last : IpAddressRange)
    (rs : List IpAddressRange) :
    rs.foldl mergeStep (done ++ [last]) = done ++ intervals.coalesceFrom last rs := by
  induction rs generalizing done last with
  | nil => rfl
  | cons r rs ih =>
    rw [List.foldl_cons, mergeStep_append]
    split
    · rename_i h
      rw [ih, Intervals.coalesceFrom_pos rs h]
    · rename_i h
      rw [ih, Intervals.coalesceFrom_neg rs h, List.append_assoc, List.singleton_append]

/-- The loop is the coalescing pass over the sorted ranges. -/
theorem mergeRanges_eq (ranges : List IpAddressRange) :
    (ranges = [] ∧ mergeRanges ranges = []) ∨
      ∃ first rest, sortDerived ranges = first :: rest ∧
        mergeRanges ranges = intervals.coalesceFrom first rest := by
  cases hsorted : sortDerived ranges with
  | nil =>
    have hempty : ranges = [] := List.length_eq_zero_iff.mp (by
      rw [← List.length_insertionSort (fun a b : IpAddressRange => a.cmp b ≠ .gt) ranges]
      exact congrArg List.length hsorted)
    exact Or.inl ⟨hempty, by rw [mergeRanges, hsorted]; rfl⟩
  | cons first rest =>
    refine Or.inr ⟨first, rest, rfl, ?_⟩
    rw [mergeRanges, hsorted, List.foldl_cons]
    exact foldl_mergeStep [] first rest

theorem sortDerived_perm (ranges : List IpAddressRange) : (sortDerived ranges).Perm ranges :=
  List.perm_insertionSort _ _

theorem sortDerived_pairwise (ranges : List IpAddressRange) :
    (sortDerived ranges).Pairwise fun a b => a.cmp b ≠ .gt := by
  have : Std.Total fun a b : IpAddressRange => a.cmp b ≠ .gt := by
    constructor
    intro a b
    simp only [ne_eq, IpAddressRange.cmp_eq_gt, IpAddressRange.cmp_eq_lt]
    omega
  have : IsTrans IpAddressRange fun a b => a.cmp b ≠ .gt := by
    constructor
    intro a b c
    simp only [ne_eq, IpAddressRange.cmp_eq_gt, IpAddressRange.cmp_eq_lt]
    omega
  exact List.pairwise_insertionSort _ ranges

theorem sortDerived_ascending (hvalid : ∀ r ∈ ranges, r.Valid) :
    intervals.Ascending (sortDerived ranges) := by
  have hperm := sortDerived_perm ranges
  refine (sortDerived_pairwise ranges).imp_of_mem ?_
  intro a b ha hb hab hgroup
  have hversion := (IpAddressRange.group_eq_iff.mp hgroup).1
  have hsame := (hvalid a (hperm.mem_iff.mp ha)).start_version (hvalid b (hperm.mem_iff.mp hb))
    hversion
  rw [Ne, IpAddressRange.cmp_eq_gt, IpAddressRange.cmp_eq_lt] at hab
  apply (IpAddr.rank_le_rank hsame).mp
  omega

theorem mergeRanges_valid (hvalid : ∀ r ∈ ranges, r.Valid) : ∀ r ∈ mergeRanges ranges, r.Valid := by
  rcases mergeRanges_eq ranges with ⟨-, hmerge⟩ | ⟨first, rest, hsorted, hmerge⟩
  · simp [hmerge]
  · rw [hmerge]
    apply Intervals.coalesceFrom_forall fun a b ha hb h => IpAddressRange.Valid.extend ha hb h
    intro r hr
    rw [← hsorted] at hr
    exact hvalid r ((sortDerived_perm ranges).mem_iff.mp hr)

theorem mergeRanges_covers (hvalid : ∀ r ∈ ranges, r.Valid) (g : ℕ ×ₗ ℕ) (x : Nat) :
    intervals.Covers (mergeRanges ranges) g x ↔ intervals.Covers ranges g x := by
  have hperm : intervals.Covers (sortDerived ranges) g x ↔ intervals.Covers ranges g x := by
    simp only [Intervals.Covers, (sortDerived_perm ranges).mem_iff]
  rw [← hperm]
  rcases mergeRanges_eq ranges with ⟨rfl, hmerge⟩ | ⟨first, rest, hsorted, hmerge⟩
  · rw [hmerge]
    rfl
  · have hasc := sortDerived_ascending hvalid
    rw [hsorted] at hasc ⊢
    rw [hmerge]
    exact Intervals.coalesceFrom_covers hasc g x

theorem exists_contains_iff_covers (ranges : List IpAddressRange) (addr : IpAddr) (proto : UInt8) :
    (∃ r ∈ ranges, r.contains addr proto = true) ↔
      ∃ p : UInt8, (p = 0 ∨ p = proto ∨ proto = addr.icmpProto) ∧
        intervals.Covers ranges (toLex (addr.version, p.toNat)) (ipKey addr) := by
  simp only [IpAddressRange.contains, Bool.and_eq_true, Bool.or_eq_true, beq_iff_eq,
    decide_eq_true_eq, Intervals.Covers]
  constructor
  · rintro ⟨r, hr, ⟨hversion, hproto⟩, hlo, hhi⟩
    refine ⟨r.ipProtocol, by rwa [or_assoc] at hproto, r, hr, ?_, hlo, hhi⟩
    rw [← hversion]
    rfl
  · rintro ⟨p, hp, r, hr, hgroup, hlo, hhi⟩
    have hfields := Prod.mk.inj (toLex_inj.mp hgroup)
    refine ⟨r, hr, ⟨hfields.1, ?_⟩, hlo, hhi⟩
    rw [UInt8.toNat_inj.mp hfields.2, or_assoc]
    exact hp

theorem mergeRanges_contains (hvalid : ∀ r ∈ ranges, r.Valid) (addr : IpAddr) (proto : UInt8) :
    (∃ r ∈ mergeRanges ranges, r.contains addr proto = true) ↔
      ∃ r ∈ ranges, r.contains addr proto = true := by
  simp only [exists_contains_iff_covers, mergeRanges_covers hvalid]

end Merging

/-- Two ranges of one version and protocol overlap, or one ends right before the other. -/
def IpAddressRange.Touches (a b : IpAddressRange) : Prop :=
  a.ipVersion = b.ipVersion ∧ a.ipProtocol = b.ipProtocol ∧
    ipKey a.startIp ≤ ipKey b.endIp + 1 ∧ ipKey b.startIp ≤ ipKey a.endIp + 1

instance (a b : IpAddressRange) : Decidable (a.Touches b) :=
  inferInstanceAs (Decidable (_ ∧ _ ∧ _ ∧ _))

/-- What ROUTE_ADVERTISEMENT asks of its ranges. -/
structure NormalForm (ranges : List IpAddressRange) : Prop where
  sorted : ranges.Pairwise fun a b => a.cmpKey b ≠ .gt
  separate : ranges.Pairwise fun a b => ¬ a.Touches b

/-- Within a version, the derived order never goes back to a lower protocol. -/
def ProtocolsAscend (ranges : List IpAddressRange) : Prop :=
  ∀ a ∈ ranges, ∀ b ∈ ranges, a.ipVersion = b.ipVersion → a.cmp b = .lt →
    a.ipProtocol ≤ b.ipProtocol

instance (ranges : List IpAddressRange) : Decidable (ProtocolsAscend ranges) :=
  inferInstanceAs (Decidable (∀ a ∈ ranges, ∀ b ∈ ranges, _))

section NormalForm

variable {ranges : List IpAddressRange}

theorem sortDerived_groups (h : ProtocolsAscend ranges) :
    (sortDerived ranges).Pairwise fun a b => a.group ≤ b.group := by
  have hperm := sortDerived_perm ranges
  refine (sortDerived_pairwise ranges).imp_of_mem ?_
  intro a b ha hb hab
  have hproto := h a (hperm.mem_iff.mp ha) b (hperm.mem_iff.mp hb)
  rw [IpAddressRange.group, IpAddressRange.group, Prod.Lex.toLex_le_toLex]
  by_cases hlt : a.cmp b = .lt
  · have hversion := IpAddressRange.cmp_eq_lt.mp hlt
    rcases Nat.lt_or_ge a.ipVersion b.ipVersion with hless | hge
    · exact Or.inl hless
    · have hsame : a.ipVersion = b.ipVersion := by omega
      exact Or.inr ⟨hsame, UInt8.le_iff_toNat_le.mp (hproto hsame hlt)⟩
  · obtain rfl := IpAddressRange.eq_of_cmp_ne hlt hab
    exact Or.inr ⟨rfl, Nat.le_refl _⟩

theorem mergeRanges_separated (hvalid : ∀ r ∈ ranges, r.Valid) (h : ProtocolsAscend ranges) :
    (mergeRanges ranges).Pairwise fun a b =>
      a.group ≤ b.group ∧ (a.group = b.group → ipKey a.endIp + 1 < ipKey b.startIp) := by
  rcases mergeRanges_eq ranges with ⟨-, hmerge⟩ | ⟨first, rest, hsorted, hmerge⟩
  · rw [hmerge]
    exact List.Pairwise.nil
  · have hgroups := sortDerived_groups h
    have hasc := sortDerived_ascending hvalid
    rw [hsorted] at hgroups hasc
    rw [hmerge]
    exact Intervals.coalesceFrom_separated hgroups hasc

/-- Separated groups of valid ranges increase strictly in the key. -/
theorem IpAddressRange.cmpKey_lt_of_separated {a b : IpAddressRange} (ha : a.Valid) (hb : b.Valid)
    (hle : a.group ≤ b.group) (hgap : a.group = b.group → ipKey a.endIp + 1 < ipKey b.startIp) :
    a.cmpKey b = .lt := by
  rw [IpAddressRange.cmpKey_eq_lt]
  rw [group, group, Prod.Lex.toLex_le_toLex] at hle
  rcases hle with hless | ⟨hversion, hproto⟩
  · exact Or.inl hless
  · refine Or.inr ⟨hversion, ?_⟩
    rcases Nat.lt_or_eq_of_le hproto with hless | hsame
    · exact Or.inl hless
    · have hlt := hgap (IpAddressRange.group_eq_iff.mpr ⟨hversion, UInt8.toNat_inj.mp hsame⟩)
      have hord := ha.ordered
      refine Or.inr ⟨hsame, ?_⟩
      rw [IpAddr.rank_lt_rank (ha.start_version hb hversion)]
      omega

theorem mergeRanges_strict (hvalid : ∀ r ∈ ranges, r.Valid) (h : ProtocolsAscend ranges) :
    (mergeRanges ranges).Pairwise fun a b => a.cmpKey b = .lt ∧ ¬ a.Touches b := by
  have hout := mergeRanges_valid hvalid
  refine (mergeRanges_separated hvalid h).imp_of_mem ?_
  intro a b ha hb hab
  refine ⟨IpAddressRange.cmpKey_lt_of_separated (hout a ha) (hout b hb) hab.1 hab.2, ?_⟩
  rintro ⟨hversion, hproto, -, htouch⟩
  have hlt := hab.2 (IpAddressRange.group_eq_iff.mpr ⟨hversion, hproto⟩)
  omega

theorem protocolsAscend_of_sorted
    (h : (mergeRanges ranges).Pairwise fun a b => a.cmpKey b ≠ .gt) : ProtocolsAscend ranges := by
  have hgroups : (sortDerived ranges).Pairwise fun a b =>
      a.ipVersion = b.ipVersion → a.ipProtocol.toNat ≤ b.ipProtocol.toNat := by
    rcases mergeRanges_eq ranges with ⟨rfl, -⟩ | ⟨first, rest, hsorted, hmerge⟩
    · exact List.Pairwise.nil
    · rw [hmerge] at h
      rw [hsorted]
      apply Intervals.pairwise_group_of_coalesceFrom (I := intervals)
        (R := fun g g' => (ofLex g).1 = (ofLex g').1 → (ofLex g).2 ≤ (ofLex g').2)
      · exact fun g _ => Nat.le_refl _
      · refine h.imp ?_
        intro a b hab hversion
        change a.ipVersion = b.ipVersion at hversion
        change a.ipProtocol.toNat ≤ b.ipProtocol.toNat
        rw [Ne, IpAddressRange.cmpKey_eq_gt, IpAddressRange.cmpKey_eq_lt] at hab
        omega
  intro a ha b hb hversion hlt
  have hperm := sortDerived_perm ranges
  -- in the sorted list the smaller of the two stands first
  have hboth : (sortDerived ranges).Pairwise fun a b =>
      (a.cmp b ≠ .gt ∧ (a.ipVersion = b.ipVersion → a.ipProtocol.toNat ≤ b.ipProtocol.toNat)) ∨
      (b.cmp a ≠ .gt ∧ (b.ipVersion = a.ipVersion → b.ipProtocol.toNat ≤ a.ipProtocol.toNat)) :=
    ((sortDerived_pairwise ranges).and hgroups).imp Or.inl
  have : Std.Symm fun a b : IpAddressRange =>
      (a.cmp b ≠ .gt ∧ (a.ipVersion = b.ipVersion → a.ipProtocol.toNat ≤ b.ipProtocol.toNat)) ∨
      (b.cmp a ≠ .gt ∧ (b.ipVersion = a.ipVersion → b.ipProtocol.toNat ≤ a.ipProtocol.toNat)) :=
    ⟨fun _ _ h => h.symm⟩
  have hne : a ≠ b := by
    rintro rfl
    rw [IpAddressRange.cmp_eq_lt] at hlt
    omega
  rcases hboth.forall (hperm.mem_iff.mpr ha) (hperm.mem_iff.mpr hb) hne with ⟨-, hab⟩ | ⟨hba, -⟩
  · exact UInt8.le_iff_toNat_le.mpr (hab hversion)
  · exact absurd (IpAddressRange.cmp_eq_gt.mpr hlt) hba

/-- The result is in normal form exactly when the derived order does not go back to a
lower protocol. -/
theorem mergeRanges_normalForm_iff (hvalid : ∀ r ∈ ranges, r.Valid) :
    NormalForm (mergeRanges ranges) ↔
      ∀ a ∈ ranges, ∀ b ∈ ranges, a.ipVersion = b.ipVersion → a.cmp b = .lt →
        a.ipProtocol ≤ b.ipProtocol := by
  constructor
  · intro h
    exact protocolsAscend_of_sorted h.sorted
  · intro h
    have hstrict := mergeRanges_strict hvalid h
    refine ⟨hstrict.imp ?_, hstrict.imp fun hab => hab.2⟩
    intro a b hab
    rw [hab.1]
    decide

/-- A range inside another one, and a range of the other family. -/
def testUniform : List IpAddressRange :=
  [⟨6, .v6 0#128, .v6 9#128, 0⟩, ⟨4, .v4 0x0a000080#32, .v4 0x0a0001ff#32, 0⟩,
    ⟨4, .v4 0x0a000000#32, .v4 0x0a0000ff#32, 0⟩]

theorem mergeRanges_normalForm_testUniform :
    (∀ r ∈ testUniform, r.Valid) ∧ NormalForm (mergeRanges testUniform) :=
  ⟨by decide +kernel, (mergeRanges_normalForm_iff (by decide +kernel)).mpr (by decide +kernel)⟩

/-- Two TCP ranges that overlap, with a UDP range between their starts. -/
def testMixed : List IpAddressRange :=
  [⟨4, .v4 0x0a000000#32, .v4 0x0a0000ff#32, 6⟩, ⟨4, .v4 0x0a000040#32, .v4 0x0a00007f#32, 17⟩,
    ⟨4, .v4 0x0a000080#32, .v4 0x0a0001ff#32, 6⟩]

theorem mergeRanges_testMixed :
    (∀ r ∈ testMixed, r.Valid) ∧ mergeRanges testMixed = testMixed ∧
      (testMixed[0]).Touches testMixed[2] ∧ (testMixed[1]).cmpKey testMixed[2] = .gt :=
  ⟨by decide +kernel, by decide +kernel, by decide +kernel, by decide +kernel⟩

end NormalForm

end Straw
