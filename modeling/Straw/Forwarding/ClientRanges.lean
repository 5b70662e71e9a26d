import Straw.Forwarding.Router

/-!
# Routes from client ranges

The nested loops of `entries_from_client_ranges` are one `flatMap` cut off at the cap. What
the subnet iterators of `ipnet` give for a range is a parameter; the results hold where
they cover the range exactly.
-/

namespace Straw

set_option autoImplicit false

section Overlap

theorem overlaps_of_common {a b : IpNet} {x : IpAddr} (ha : a.contains x = true)
    (hb : b.contains x = true) : overlaps a b = true := by
  have hcases : a.contains b.network = true ∨ b.contains a.network = true := by
    cases a with
    | v4 a =>
      cases b with
      | v4 b =>
        cases x with
        | v4 x => exact NetPrefix.contains_network_of_common ha hb
        | v6 x => cases ha
      | v6 b =>
        cases x with
        | v4 x => cases hb
        | v6 x => cases ha
    | v6 a =>
      cases b with
      | v4 b =>
        cases x with
        | v4 x => cases ha
        | v6 x => cases hb
      | v6 b =>
        cases x with
        | v4 x => cases ha
        | v6 x => exact NetPrefix.contains_network_of_common ha hb
  simpa [overlaps] using hcases

theorem IpNet.contains_network (net : IpNet) : net.contains net.network = true := by
  cases net with
  | v4 net =>
    apply (NetPrefix.contains_iff net _).mpr
    exact ⟨Nat.le_refl _, Nat.lt_add_of_pos_right net.size_pos⟩
  | v6 net =>
    apply (NetPrefix.contains_iff net _).mpr
    exact ⟨Nat.le_refl _, Nat.lt_add_of_pos_right net.size_pos⟩

/-- Of two prefixes with an address in common, one holds the network address of the other. -/
theorem overlaps_iff (a b : IpNet) :
    overlaps a b = true ↔ ∃ x, a.contains x = true ∧ b.contains x = true := by
  constructor
  · intro h
    rcases Bool.or_eq_true_iff.mp h with hb | ha
    · exact ⟨b.network, hb, b.contains_network⟩
    · exact ⟨a.network, a.contains_network, ha⟩
  · rintro ⟨x, ha, hb⟩
    exact overlaps_of_common ha hb

end Overlap

namespace IpAddressRange

/-- Both ends are of one family, and in order. -/
def Ordered (range : IpAddressRange) : Prop :=
  range.startIp.version = range.endIp.version ∧ ipKey range.startIp ≤ ipKey range.endIp

/-- The address lies in the range. -/
def Spans (range : IpAddressRange) (x : IpAddr) : Prop :=
  range.startIp.version = x.version ∧ range.endIp.version = x.version ∧
    ipKey range.startIp ≤ ipKey x ∧ ipKey x ≤ ipKey range.endIp

/-- The range has an address in common with a denied prefix. -/
def Shares (range : IpAddressRange) (deny : List IpNet) : Prop :=
  ∃ d ∈ deny, ∃ x, d.contains x = true ∧ range.Spans x

theorem Spans.ordered {range : IpAddressRange} {x : IpAddr} (h : range.Spans x) :
    range.Ordered :=
  ⟨h.1.trans h.2.1.symm, Nat.le_trans h.2.2.1 h.2.2.2⟩

end IpAddressRange

section Ranges

variable (subnets : IpAddr → IpAddr → List IpNet)

/-- The prefixes for the range cover it, and nothing else. -/
def Decomposes (range : IpAddressRange) : Prop :=
  ∀ prefixes, rangePrefixes subnets range = some prefixes →
    ∀ x, (∃ net ∈ prefixes, net.contains x = true) ↔ range.Spans x

/-- The prefixes for a range; none if it is malformed. -/
def decomposition (range : IpAddressRange) : List IpNet := (rangePrefixes subnets range).getD []

/-- What the loop body adds for a range. -/
def contribution (session : SessionId) (deny : List IpNet) (range : IpAddressRange) :
    List RouteEntry :=
  if (decomposition subnets range).any fun p => deny.any fun d => overlaps d p then []
  else (decomposition subnets range).map fun net => ⟨net, range.ipProtocol, session⟩

open Classical in
/-- The prefixes of the ranges that share no address with a denied prefix, counted. -/
noncomputable def cleanCount (ranges : List IpAddressRange) (deny : List IpNet) : Nat :=
  (ranges.flatMap fun range =>
    if range.Shares deny then [] else decomposition subnets range).length

variable {subnets} {session : SessionId} {deny : List IpNet} {range : IpAddressRange}
  {ranges : List IpAddressRange}

theorem rangePrefixes_of_ordered (subnets : IpAddr → IpAddr → List IpNet) (h : range.Ordered) :
    ∃ prefixes, rangePrefixes subnets range = some prefixes := by
  obtain ⟨hversion, hle⟩ := h
  unfold rangePrefixes
  cases hstart : range.startIp with
  | v4 a =>
    cases hend : range.endIp with
    | v4 b =>
      rw [hstart, hend] at hle
      exact ⟨_, if_pos (BitVec.le_def.mpr hle)⟩
    | v6 b =>
      rw [hstart, hend] at hversion
      cases hversion
  | v6 a =>
    cases hend : range.endIp with
    | v4 b =>
      rw [hstart, hend] at hversion
      cases hversion
    | v6 b =>
      rw [hstart, hend] at hle
      exact ⟨_, if_pos (BitVec.le_def.mpr hle)⟩

theorem mem_decomposition_iff (h : Decomposes subnets range) (x : IpAddr) :
    (∃ net ∈ decomposition subnets range, net.contains x = true) ↔ range.Spans x := by
  unfold decomposition
  cases hprefixes : rangePrefixes subnets range with
  | some prefixes => exact h prefixes hprefixes x
  | none =>
    apply iff_of_false
    · rintro ⟨net, hnet, -⟩
      cases hnet
    · intro hspans
      obtain ⟨prefixes, hsome⟩ := rangePrefixes_of_ordered subnets hspans.ordered
      rw [hprefixes] at hsome
      cases hsome

/-- The two-sided test on the prefixes of a range finds exactly the shared addresses. -/
theorem any_overlaps_iff (h : Decomposes subnets range) :
    ((decomposition subnets range).any fun p => deny.any fun d => overlaps d p) = true ↔
      range.Shares deny := by
  simp only [List.any_eq_true, overlaps_iff]
  constructor
  · rintro ⟨net, hnet, d, hd, x, hdx, hnetx⟩
    exact ⟨d, hd, x, hdx, (mem_decomposition_iff h x).mp ⟨net, hnet, hnetx⟩⟩
  · rintro ⟨d, hd, x, hdx, hspans⟩
    obtain ⟨net, hnet, hnetx⟩ := (mem_decomposition_iff h x).mpr hspans
    exact ⟨net, hnet, d, hd, x, hdx, hnetx⟩

theorem contribution_of_shares (h : Decomposes subnets range) (hshares : range.Shares deny) :
    contribution subnets session deny range = [] :=
  if_pos ((any_overlaps_iff h).mpr hshares)

theorem contribution_of_clean (h : Decomposes subnets range) (hclean : ¬ range.Shares deny) :
    contribution subnets session deny range =
      (decomposition subnets range).map fun net => ⟨net, range.ipProtocol, session⟩ :=
  if_neg fun hany => hclean ((any_overlaps_iff h).mp hany)

/-- The loops, with their early return, are a `flatMap` cut off at the cap. -/
theorem entriesFrom_eq {entries : List RouteEntry} (hlen : entries.length ≤ 128) :
    entriesFrom subnets session deny entries ranges =
      (entries ++ ranges.flatMap (contribution subnets session deny)).take 128 := by
  induction ranges generalizing entries with
  | nil =>
    rw [List.flatMap_nil, List.append_nil]
    exact (List.take_of_length_le hlen).symm
  | cons range ranges ih =>
    rw [List.flatMap_cons]
    unfold entriesFrom
    split
    · next hnone =>
      have hnothing : contribution subnets session deny range = [] := by
        simp [contribution, decomposition, hnone]
      rw [ih hlen, hnothing, List.nil_append]
    · next prefixes hsome =>
      have hprefixes : decomposition subnets range = prefixes := by
        rw [decomposition, hsome]
        rfl
      split
      · next hany =>
        have hnothing : contribution subnets session deny range = [] := by
          rw [contribution, hprefixes, if_pos hany]
        rw [ih hlen, hnothing, List.nil_append]
      · next hclear =>
        have hall : contribution subnets session deny range =
            prefixes.map fun net => ⟨net, range.ipProtocol, session⟩ := by
          rw [contribution, hprefixes, if_neg hclear]
        rw [hall, ← List.append_assoc]
        generalize entries ++ prefixes.map
          (fun net => RouteEntry.mk net range.ipProtocol session) = all
        by_cases hlong : maxClientRoutePrefixes < all.length
        · simp only [if_pos hlong]
          exact (List.take_append_of_le_length (Nat.le_of_lt hlong)).symm
        · simp only [if_neg hlong]
          exact ih (Nat.not_lt.mp hlong)

theorem entriesFromClientRanges_eq (subnets : IpAddr → IpAddr → List IpNet) (session : SessionId)
    (ranges : List IpAddressRange) (deny : List IpNet) :
    entriesFromClientRanges subnets session ranges deny =
      (ranges.flatMap (contribution subnets session deny)).take 128 :=
  entriesFrom_eq (Nat.zero_le _)

/-- An entry comes from a clean range. -/
theorem mem_contribution {r : RouteEntry} (h : Decomposes subnets range)
    (hr : r ∈ contribution subnets session deny range) : range.Ordered ∧ ¬ range.Shares deny ∧
      r.sessionId = session ∧ r.ipProtocol = range.ipProtocol ∧
      ∀ x, r.net.contains x = true → range.Spans x := by
  have hclean : ¬ range.Shares deny := by
    intro hshares
    rw [contribution_of_shares h hshares] at hr
    cases hr
  rw [contribution_of_clean h hclean] at hr
  obtain ⟨net, hnet, rfl⟩ := List.mem_map.mp hr
  have hspans : ∀ x, net.contains x = true → range.Spans x :=
    fun x hx => (mem_decomposition_iff h x).mp ⟨net, hnet, hx⟩
  exact ⟨(hspans _ net.contains_network).ordered, hclean, rfl, rfl, hspans⟩

theorem length_flatMap_contribution (h : ∀ range ∈ ranges, Decomposes subnets range) :
    (ranges.flatMap (contribution subnets session deny)).length =
      cleanCount subnets ranges deny := by
  rw [cleanCount, List.length_flatMap, List.length_flatMap]
  congr 1
  apply List.map_congr_left
  intro range hrange
  split
  · next hshares =>
    rw [contribution_of_shares (h range hrange) hshares]
    rfl
  · next hclean => rw [contribution_of_clean (h range hrange) hclean, List.length_map]

/-- The routes made from what a client advertises. -/
theorem entriesFromClientRanges_cover (subnets : IpAddr → IpAddr → List IpNet)
    (session : SessionId) (ranges : List IpAddressRange) (deny : List IpNet)
    (h : ∀ range ∈ ranges, Decomposes subnets range) :
    let entries := entriesFromClientRanges subnets session ranges deny
    entries.length ≤ 128 ∧
    (∀ r ∈ entries, r.sessionId = session) ∧
    (∀ r ∈ entries,
      (∃ range ∈ ranges, range.Ordered ∧ range.ipProtocol = r.ipProtocol ∧
        ∀ x, r.net.contains x = true → range.Spans x) ∧
      ∀ d ∈ deny, ¬ ∃ x, d.contains x = true ∧ r.net.contains x = true) ∧
    (cleanCount subnets ranges deny ≤ 128 →
      ∀ range ∈ ranges, ¬ range.Shares deny → ∀ x, range.Spans x →
        ∃ r ∈ entries, r.ipProtocol = range.ipProtocol ∧ r.net.contains x = true) ∧
    (∀ before range after, ranges = before ++ range :: after → range.Shares deny →
      entries = entriesFromClientRanges subnets session (before ++ after) deny) := by
  intro entries
  have hentries := entriesFromClientRanges_eq subnets session ranges deny
  have horigin : ∀ r ∈ entries, ∃ range ∈ ranges,
      r ∈ contribution subnets session deny range := by
    intro r hr
    rw [show entries = _ from hentries] at hr
    exact List.mem_flatMap.mp (List.mem_of_mem_take hr)
  refine ⟨?_, ?_, ?_, ?_, ?_⟩
  · rw [show entries = _ from hentries, List.length_take]
    exact Nat.min_le_left _ _
  · intro r hr
    obtain ⟨range, hrange, hmem⟩ := horigin r hr
    exact (mem_contribution (h range hrange) hmem).2.2.1
  · intro r hr
    obtain ⟨range, hrange, hmem⟩ := horigin r hr
    obtain ⟨hordered, hclean, -, hproto, hspans⟩ := mem_contribution (h range hrange) hmem
    refine ⟨⟨range, hrange, hordered, hproto.symm, hspans⟩, ?_⟩
    rintro d hd ⟨x, hdx, hrx⟩
    exact hclean ⟨d, hd, x, hdx, hspans x hrx⟩
  · intro hcount range hrange hclean x hx
    have hall : entries = ranges.flatMap (contribution subnets session deny) := by
      rw [show entries = _ from hentries]
      apply List.take_of_length_le
      rwa [length_flatMap_contribution h]
    obtain ⟨net, hnet, hnetx⟩ := (mem_decomposition_iff (h range hrange) x).mpr hx
    refine ⟨⟨net, range.ipProtocol, session⟩, ?_, rfl, hnetx⟩
    rw [hall]
    apply List.mem_flatMap.mpr
    refine ⟨range, hrange, ?_⟩
    rw [contribution_of_clean (h range hrange) hclean]
    exact List.mem_map_of_mem hnet
  · intro before range after hsplit hshares
    have hrange : range ∈ ranges := by
      rw [hsplit]
      exact List.mem_append_right _ List.mem_cons_self
    rw [show entries = _ from hentries, entriesFromClientRanges_eq, hsplit, List.flatMap_append,
      List.flatMap_append, List.flatMap_cons, contribution_of_shares (h range hrange) hshares,
      List.nil_append]

end Ranges

section Site

def poolNet : IpNet := .v4 ⟨0x0a640000, 16, by decide, by decide⟩

def siteNet : IpNet := .v4 ⟨0xc0a83200, 24, by decide, by decide⟩

def siteRange : IpAddressRange := ⟨4, .v4 0xc0a83200, .v4 0xc0a832ff, 0⟩

/-- One address of the pool. -/
def hijackRange : IpAddressRange := ⟨4, .v4 0x0a640003, .v4 0x0a640003, 0⟩

def siteSubnets (first _last : IpAddr) : List IpNet :=
  if first = .v4 0xc0a83200 then [siteNet] else [.v4 ⟨0x0a640003, 32, by decide, by decide⟩]

theorem decomposes_v4 {range : IpAddressRange} {a b : Ipv4Addr} (net : NetPrefix 32)
    (hstart : range.startIp = .v4 a) (hend : range.endIp = .v4 b)
    (hnets : siteSubnets (.v4 a) (.v4 b) = [.v4 net]) (hlow : net.network.toNat = a.toNat)
    (hhigh : net.network.toNat + net.size = b.toNat + 1) : Decomposes siteSubnets range := by
  intro prefixes hprefixes x
  have hle : a ≤ b := by
    have := net.size_pos
    exact BitVec.le_def.mpr (by omega)
  simp only [rangePrefixes, hstart, hend, if_pos hle, hnets] at hprefixes
  cases hprefixes
  simp only [List.mem_singleton, exists_eq_left, IpAddressRange.Spans, hstart, hend]
  cases x with
  | v4 x =>
    change net.contains x = true ↔ _ ∧ _ ∧ a.toNat ≤ x.toNat ∧ x.toNat ≤ b.toNat
    rw [NetPrefix.contains_iff]
    simp only [IpAddr.version, true_and]
    omega
  | v6 x => simp [IpNet.contains, IpAddr.version]

theorem decomposes_site : ∀ range ∈ [hijackRange, siteRange], Decomposes siteSubnets range := by
  intro range hrange
  rcases List.mem_cons.mp hrange with rfl | hrange
  · exact decomposes_v4 ⟨0x0a640003, 32, by decide, by decide⟩ rfl rfl rfl rfl rfl
  · obtain rfl := List.mem_singleton.mp hrange
    exact decomposes_v4 ⟨0xc0a83200, 24, by decide, by decide⟩ rfl rfl rfl rfl rfl

theorem hijackRange_shares : hijackRange.Shares [poolNet] :=
  ⟨poolNet, List.mem_singleton_self _, .v4 0x0a640003, by decide, rfl, rfl, Nat.le_refl _,
    Nat.le_refl _⟩

theorem siteRange_clean : ¬ siteRange.Shares [poolNet] := by
  rintro ⟨d, hd, x, hdx, -, hversion, hlow, -⟩
  obtain rfl := List.mem_singleton.mp hd
  cases x with
  | v4 x =>
    have hhigh := ((NetPrefix.contains_iff _ x).mp hdx).2
    change 3232248320 ≤ x.toNat at hlow
    change x.toNat < 174325760 + 65536 at hhigh
    omega
  | v6 x => cases hversion

theorem entriesFromClientRanges_cover_site :
    (∃ r ∈ entriesFromClientRanges siteSubnets ⟨4⟩ [hijackRange, siteRange] [poolNet],
      r.ipProtocol = 0 ∧ r.net.contains (.v4 0xc0a83207) = true) ∧
    entriesFromClientRanges siteSubnets ⟨4⟩ [hijackRange, siteRange] [poolNet] =
      entriesFromClientRanges siteSubnets ⟨4⟩ [siteRange] [poolNet] := by
  have h := entriesFromClientRanges_cover siteSubnets ⟨4⟩ [hijackRange, siteRange] [poolNet]
    decomposes_site
  have hcount : cleanCount siteSubnets [hijackRange, siteRange] [poolNet] ≤ 128 := by
    simp only [cleanCount, List.flatMap_cons, List.flatMap_nil, if_pos hijackRange_shares,
      if_neg siteRange_clean]
    decide
  exact ⟨h.2.2.2.1 hcount siteRange (by simp) siteRange_clean (.v4 0xc0a83207)
    ⟨rfl, rfl, by decide, by decide⟩, h.2.2.2.2 [] hijackRange [siteRange] rfl hijackRange_shares⟩

end Site

end Straw
