import Mathlib.Data.Finset.Card
import Straw.UdpBind.Alloc

/-!
# Runs of the port allocator

The two cursors of the allocator only say where a scan begins. From any position the scan
visits every pair of an address and a port within its bound, so it fails only when all
pairs are in use.
-/

namespace Straw.PortAllocator

set_option autoImplicit false

def capacity (a : PortAllocator) : Nat :=
  a.ips.length * (a.portHi.toNat - a.portLo.toNat + 1)

/-- The calls on an allocator. -/
inductive Op where
  | allocate
  | release (addr : SocketAddr)

def apply (a : PortAllocator) : Op → PortAllocator
  | .allocate => a.allocate.1
  | .release addr => a.release addr

def after (a : PortAllocator) (ops : List Op) : PortAllocator := ops.foldl apply a

/-- The addresses that are out after the calls, read off their answers: every address that
a call returned and no later call released, and those of `held` that none released. -/
def givenOut (a : PortAllocator) (held : Finset SocketAddr) : List Op → Finset SocketAddr
  | [] => held
  | .allocate :: ops =>
    a.allocate.1.givenOut (a.allocate.2.elim held fun addr => insert addr held) ops
  | .release addr :: ops => (a.release addr).givenOut (held.erase addr) ops

/-- A round robin of `n` steps from any place in a ring of `n` comes by every place. -/
theorem exists_add_mod {n start goal : Nat} (hstart : start < n) (hgoal : goal < n) :
    ∃ k, k < n ∧ (start + k) % n = goal := by
  by_cases hle : start ≤ goal
  · refine ⟨goal - start, by omega, ?_⟩
    rw [Nat.add_sub_cancel' hle]
    exact Nat.mod_eq_of_lt hgoal
  · refine ⟨goal + n - start, by omega, ?_⟩
    rw [Nat.add_sub_cancel' (by omega), Nat.add_mod_right]
    exact Nat.mod_eq_of_lt hgoal

/-- The cursors are within the list and the range. -/
structure Cursors (a : PortAllocator) : Prop where
  ip_lt : a.nextIp < a.ips.length
  le_port : a.portLo ≤ a.nextPort
  port_le : a.nextPort ≤ a.portHi

/-- The pair of an address of the list and a port of the range. -/
def Offers (a : PortAllocator) (addr : SocketAddr) : Prop :=
  ∃ ip ∈ a.ips, ∃ port, a.portLo ≤ port ∧ port ≤ a.portHi ∧ addr = SocketAddr.new ip port

/-- The port that a scan has come to after `i` ports. -/
def portAt (a : PortAllocator) (i : Nat) : UInt16 := a.portAfter^[i] a.nextPort

section Ports

variable {a : PortAllocator} {port : UInt16}

theorem portLo_le_portHi (a : PortAllocator) : a.portLo.toNat ≤ a.portHi.toNat := a.ordered

theorem toNat_portAfter (hle : port ≤ a.portHi) :
    (a.portAfter port).toNat =
      if port.toNat = a.portHi.toNat then a.portLo.toNat else port.toNat + 1 := by
  have hnat : port.toNat ≤ a.portHi.toNat := hle
  have hmax := a.portHi.toNat_lt
  unfold portAfter
  by_cases hlast : a.portHi ≤ port
  · have hge : a.portHi.toNat ≤ port.toNat := hlast
    rw [if_pos hlast, if_pos (by omega)]
  · have hlt : ¬ a.portHi.toNat ≤ port.toNat := hlast
    rw [if_neg hlast, if_neg (by omega), UInt16.toNat_add]
    change (port.toNat + 1) % 2 ^ 16 = _
    omega

theorem portAfter_range (hlow : a.portLo ≤ port) (hhigh : port ≤ a.portHi) :
    a.portLo ≤ a.portAfter port ∧ a.portAfter port ≤ a.portHi := by
  have hlow' : a.portLo.toNat ≤ port.toNat := hlow
  have hhigh' : port.toNat ≤ a.portHi.toNat := hhigh
  have hordered := a.portLo_le_portHi
  have hport := toNat_portAfter hhigh
  rw [UInt16.le_iff_toNat_le, UInt16.le_iff_toNat_le, hport]
  split
  · omega
  · omega

theorem portAt_range (h : a.Cursors) (i : Nat) : a.portLo ≤ a.portAt i ∧ a.portAt i ≤ a.portHi := by
  induction i with
  | zero => exact ⟨h.le_port, h.port_le⟩
  | succ i ih =>
    rw [portAt, Function.iterate_succ_apply']
    exact portAfter_range ih.1 ih.2

/-- The ports of a scan go round the range. -/
theorem toNat_portAt (h : a.Cursors) (i : Nat) : (a.portAt i).toNat = a.portLo.toNat +
    (a.nextPort.toNat - a.portLo.toNat + i) % (a.portHi.toNat - a.portLo.toNat + 1) := by
  have hlow : a.portLo.toNat ≤ a.nextPort.toNat := h.le_port
  have hhigh : a.nextPort.toNat ≤ a.portHi.toNat := h.port_le
  induction i with
  | zero =>
    rw [Nat.add_zero, Nat.mod_eq_of_lt (by omega)]
    change a.nextPort.toNat = _
    omega
  | succ i ih =>
    have hstep : a.portAt (i + 1) = a.portAfter (a.portAt i) := Function.iterate_succ_apply' ..
    have hnext : (a.nextPort.toNat - a.portLo.toNat + (i + 1)) %
        (a.portHi.toNat - a.portLo.toNat + 1) = ((a.nextPort.toNat - a.portLo.toNat + i) %
          (a.portHi.toNat - a.portLo.toNat + 1) + 1) % (a.portHi.toNat - a.portLo.toNat + 1) := by
      rw [← Nat.add_assoc, Nat.mod_add_mod]
    have hbound := Nat.mod_lt (a.nextPort.toNat - a.portLo.toNat + i)
      (Nat.succ_pos (a.portHi.toNat - a.portLo.toNat))
    rw [hstep, toNat_portAfter (portAt_range h i).2, ih, hnext]
    generalize (a.nextPort.toNat - a.portLo.toNat + i) % (a.portHi.toNat - a.portLo.toNat + 1) =
      place at hbound
    -- the last place of the range is followed by the first
    split
    · next hlast =>
      have hplace : place + 1 = a.portHi.toNat - a.portLo.toNat + 1 := by omega
      rw [hplace, Nat.mod_self]
      omega
    · rw [Nat.mod_eq_of_lt (by omega)]
      omega

theorem exists_portAt (h : a.Cursors) (hlow : a.portLo ≤ port) (hhigh : port ≤ a.portHi) :
    ∃ i, i < a.portHi.toNat - a.portLo.toNat + 1 ∧ a.portAt i = port := by
  have hstart : a.portLo.toNat ≤ a.nextPort.toNat := h.le_port
  have hend : a.nextPort.toNat ≤ a.portHi.toNat := h.port_le
  have hlow' : a.portLo.toNat ≤ port.toNat := hlow
  have hhigh' : port.toNat ≤ a.portHi.toNat := hhigh
  obtain ⟨i, hi, hplace⟩ := exists_add_mod
    (show a.nextPort.toNat - a.portLo.toNat < a.portHi.toNat - a.portLo.toNat + 1 by omega)
    (show port.toNat - a.portLo.toNat < a.portHi.toNat - a.portLo.toNat + 1 by omega)
  refine ⟨i, hi, ?_⟩
  apply UInt16.toNat_inj.mp
  rw [toNat_portAt h, hplace]
  omega

end Ports

section Scan

variable {a : PortAllocator} {addr : SocketAddr}

theorem offers_candidate {port : UInt16} (hlow : a.portLo ≤ port) (hhigh : port ≤ a.portHi)
    (k : Nat) : a.Offers (a.candidate port k) :=
  ⟨_, List.get_mem _ _, port, hlow, hhigh, rfl⟩

/-- Every pair is a candidate of the scan. -/
theorem exists_candidate (h : a.Cursors) (hoffers : a.Offers addr) :
    ∃ i k, i < a.portHi.toNat - a.portLo.toNat + 1 ∧ k < a.ips.length ∧
      a.candidate (a.portAt i) k = addr := by
  obtain ⟨ip, hip, port, hlow, hhigh, rfl⟩ := hoffers
  obtain ⟨j, hj, hget⟩ := List.getElem_of_mem hip
  obtain ⟨i, hi, hport⟩ := exists_portAt h hlow hhigh
  obtain ⟨k, hk, hindex⟩ := exists_add_mod h.ip_lt hj
  refine ⟨i, k, hi, hk, ?_⟩
  have hip' : a.ips.get ⟨a.ipIndex k, Nat.mod_lt _ a.ips_pos⟩ = ip := by
    rw [List.get_eq_getElem, ← hget]
    congr 1
  rw [candidate, hport, hip']

/-- What a scan of `n` ports can do: take the first free pair it comes to, or find none and
leave the cursor behind the last port. -/
theorem scan_cases (n : Nat) (a : PortAllocator) :
    (∃ i k, i < n ∧ k < a.ips.length ∧ a.candidate (a.portAt i) k ∉ a.inUse ∧
      scan n a = ({ a with nextPort := a.portAt i }.take k, some (a.candidate (a.portAt i) k))) ∨
    ((∀ i < n, ∀ k < a.ips.length, a.candidate (a.portAt i) k ∈ a.inUse) ∧
      scan n a = ({ a with nextPort := a.portAt n }, none)) := by
  induction n generalizing a with
  | zero => exact Or.inr ⟨fun i hi => absurd hi (Nat.not_lt_zero i), rfl⟩
  | succ n ih =>
    rw [scan]
    split
    · next k hfind =>
      have hk := List.mem_range.mp (List.mem_of_find?_eq_some hfind)
      have hfree := List.find?_some hfind
      exact Or.inl ⟨0, k, Nat.succ_pos n, hk, of_decide_eq_true hfree, rfl⟩
    · next hfind =>
      have hfull : ∀ k < a.ips.length, a.candidate a.nextPort k ∈ a.inUse := by
        intro k hk
        have := List.find?_eq_none.mp hfind k (List.mem_range.mpr hk)
        simpa using this
      rcases ih { a with nextPort := a.portAfter a.nextPort } with
        ⟨i, k, hi, hk, hfree, hscan⟩ | ⟨hall, hscan⟩
      · exact Or.inl ⟨i + 1, k, Nat.succ_lt_succ hi, hk, hfree, hscan⟩
      · refine Or.inr ⟨?_, hscan⟩
        intro i hi
        cases i with
        | zero => exact hfull
        | succ i => exact hall i (Nat.lt_of_succ_lt_succ hi)

theorem allocate_some (h : a.Cursors) (hsome : a.allocate.2 = some addr) :
    addr ∉ a.inUse ∧ a.Offers addr ∧ a.allocate.1.inUse = insert addr a.inUse := by
  unfold allocate at hsome ⊢
  rcases scan_cases (a.portHi.toNat - a.portLo.toNat + 1) a with
    ⟨i, k, -, -, hfree, hscan⟩ | ⟨-, hscan⟩
  · rw [hscan] at hsome ⊢
    cases hsome
    have hrange := portAt_range h i
    exact ⟨hfree, offers_candidate hrange.1 hrange.2 k, rfl⟩
  · rw [hscan] at hsome
    cases hsome

theorem allocate_none_iff (h : a.Cursors) :
    a.allocate.2 = none ↔ ∀ addr, a.Offers addr → addr ∈ a.inUse := by
  unfold allocate
  rcases scan_cases (a.portHi.toNat - a.portLo.toNat + 1) a with
    ⟨i, k, -, -, hfree, hscan⟩ | ⟨hall, hscan⟩
  · rw [hscan]
    have hrange := portAt_range h i
    apply iff_of_false (Option.some_ne_none _)
    intro hin
    exact hfree (hin _ (offers_candidate hrange.1 hrange.2 k))
  · rw [hscan]
    apply iff_of_true rfl
    intro addr hoffers
    obtain ⟨i, k, hi, hk, rfl⟩ := exists_candidate h hoffers
    exact hall i hi k hk

theorem inUse_allocate (a : PortAllocator) :
    a.allocate.1.inUse = a.allocate.2.elim a.inUse fun addr => insert addr a.inUse := by
  rcases h : a.allocate with ⟨b, _ | addr⟩
  · exact scan_none h
  · exact (scan_some h).2

/-- In use is what the calls gave out and did not take back. -/
theorem inUse_after (a : PortAllocator) (ops : List Op) :
    (a.after ops).inUse = a.givenOut a.inUse ops := by
  induction ops generalizing a with
  | nil => rfl
  | cons op ops ih =>
    cases op with
    | allocate =>
      rw [givenOut, ← inUse_allocate]
      exact ih a.allocate.1
    | release addr => exact ih (a.release addr)

/-- The list and the range are never changed. -/
def SamePool (a b : PortAllocator) : Prop :=
  b.ips = a.ips ∧ b.portLo = a.portLo ∧ b.portHi = a.portHi

theorem allocate_pool (a : PortAllocator) : SamePool a a.allocate.1 := by
  unfold allocate
  rcases scan_cases (a.portHi.toNat - a.portLo.toNat + 1) a with ⟨i, k, -, -, -, hscan⟩ | ⟨-, hscan⟩
  · rw [hscan]
    exact ⟨rfl, rfl, rfl⟩
  · rw [hscan]
    exact ⟨rfl, rfl, rfl⟩

theorem Cursors.take (h : a.Cursors) (k : Nat) : (a.take k).Cursors where
  ip_lt := Nat.mod_lt _ a.ips_pos
  le_port := by
    change a.portLo ≤ if (a.ipIndex k + 1) % a.ips.length = 0 then a.portAfter a.nextPort
      else a.nextPort
    split
    · exact (portAfter_range h.le_port h.port_le).1
    · exact h.le_port
  port_le := by
    change (if (a.ipIndex k + 1) % a.ips.length = 0 then a.portAfter a.nextPort
      else a.nextPort) ≤ a.portHi
    split
    · exact (portAfter_range h.le_port h.port_le).2
    · exact h.port_le

theorem Cursors.allocate (h : a.Cursors) : a.allocate.1.Cursors := by
  have hmoved : ∀ i, ({ a with nextPort := a.portAt i } : PortAllocator).Cursors :=
    fun i => ⟨h.ip_lt, (portAt_range h i).1, (portAt_range h i).2⟩
  unfold PortAllocator.allocate
  rcases scan_cases (a.portHi.toNat - a.portLo.toNat + 1) a with ⟨i, k, -, -, -, hscan⟩ | ⟨-, hscan⟩
  · rw [hscan]
    exact (hmoved i).take k
  · rw [hscan]
    exact hmoved _

end Scan

section Runs

variable {a : PortAllocator}

theorem SamePool.trans {b c : PortAllocator} (hab : SamePool a b) (hbc : SamePool b c) :
    SamePool a c :=
  ⟨hbc.1.trans hab.1, hbc.2.1.trans hab.2.1, hbc.2.2.trans hab.2.2⟩

theorem after_invariant (h : a.Cursors) (ops : List Op) :
    (a.after ops).Cursors ∧ SamePool a (a.after ops) := by
  induction ops generalizing a with
  | nil => exact ⟨h, rfl, rfl, rfl⟩
  | cons op ops ih =>
    have hstep : (a.apply op).Cursors ∧ SamePool a (a.apply op) := by
      cases op with
      | allocate => exact ⟨h.allocate, a.allocate_pool⟩
      | release addr => exact ⟨⟨h.ip_lt, h.le_port, h.port_le⟩, rfl, rfl, rfl⟩
    obtain ⟨hcursors, hpool⟩ := ih hstep.1
    exact ⟨hcursors, hstep.2.trans hpool⟩

/-- The pairs, one after the other. -/
def tuples (a : PortAllocator) : List SocketAddr :=
  a.ips.flatMap fun ip => (List.range (a.portHi.toNat - a.portLo.toNat + 1)).map fun i =>
    SocketAddr.new ip (UInt16.ofNat (a.portLo.toNat + i))

theorem length_tuples (a : PortAllocator) : a.tuples.length = a.capacity := by
  simp [tuples, capacity, List.length_flatMap]

theorem mem_tuples_iff (addr : SocketAddr) : addr ∈ a.tuples ↔ a.Offers addr := by
  have hordered := a.portLo_le_portHi
  have hmax := a.portHi.toNat_lt
  simp only [tuples, List.mem_flatMap, List.mem_map, List.mem_range]
  constructor
  · rintro ⟨ip, hip, i, hi, rfl⟩
    have hport : (UInt16.ofNat (a.portLo.toNat + i)).toNat = a.portLo.toNat + i := by
      rw [UInt16.toNat_ofNat']
      exact Nat.mod_eq_of_lt (by omega)
    refine ⟨ip, hip, _, ?_, ?_, rfl⟩
    · rw [UInt16.le_iff_toNat_le, hport]
      omega
    · rw [UInt16.le_iff_toNat_le, hport]
      omega
  · rintro ⟨ip, hip, port, hlow, hhigh, rfl⟩
    have hlow' : a.portLo.toNat ≤ port.toNat := hlow
    have hhigh' : port.toNat ≤ a.portHi.toNat := hhigh
    refine ⟨ip, hip, port.toNat - a.portLo.toNat, by omega, ?_⟩
    rw [Nat.add_sub_cancel' hlow', UInt16.ofNat_toNat]

theorem nodup_tuples (hips : a.ips.Nodup) : a.tuples.Nodup := by
  have hordered := a.portLo_le_portHi
  have hmax := a.portHi.toNat_lt
  apply List.nodup_flatMap.mpr
  constructor
  · intro ip _
    apply List.Nodup.map_on _ List.nodup_range
    intro i hi j hj heq
    have hport := congrArg (fun addr => addr.port.toNat) heq
    simp only [SocketAddr.port_new, UInt16.toNat_ofNat'] at hport
    rw [Nat.mod_eq_of_lt, Nat.mod_eq_of_lt] at hport
    · omega
    · have := List.mem_range.mp hj
      omega
    · have := List.mem_range.mp hi
      omega
  · apply hips.imp
    intro ip ip' hne addr hleft hright
    obtain ⟨i, -, rfl⟩ := List.mem_map.mp hleft
    obtain ⟨j, -, heq⟩ := List.mem_map.mp hright
    have hip := congrArg SocketAddr.ip heq
    rw [SocketAddr.ip_new, SocketAddr.ip_new] at hip
    exact hne hip.symm

/-- What holds while allocations follow each other: the pairs in use are of the pool, and
there are as many as allocations were made. -/
structure Filled (a : PortAllocator) (n : Nat) : Prop where
  cursors : a.Cursors
  offered : ∀ addr ∈ a.inUse, a.Offers addr
  card_eq : a.inUse.card = n

theorem SamePool.offers_iff {b : PortAllocator} (h : SamePool a b) (addr : SocketAddr) :
    b.Offers addr ↔ a.Offers addr := by
  unfold Offers
  rw [h.1, h.2.1, h.2.2]

theorem SamePool.capacity_eq {b : PortAllocator} (h : SamePool a b) : b.capacity = a.capacity := by
  unfold capacity
  rw [h.1, h.2.1, h.2.2]

theorem Filled.subset {n : Nat} (h : a.Filled n) : a.inUse ⊆ a.tuples.toFinset := by
  intro addr haddr
  rw [List.mem_toFinset, mem_tuples_iff]
  exact h.offered addr haddr

/-- Allocation fails exactly when the pool is full. -/
theorem Filled.allocate_none_iff {n : Nat} (h : a.Filled n) (hips : a.ips.Nodup) :
    a.allocate.2 = none ↔ n = a.capacity := by
  have hcard : a.tuples.toFinset.card = a.capacity := by
    rw [List.toFinset_card_of_nodup (nodup_tuples hips), length_tuples]
  rw [PortAllocator.allocate_none_iff h.cursors]
  constructor
  · intro hall
    have heq : a.inUse = a.tuples.toFinset := by
      apply Finset.Subset.antisymm h.subset
      intro addr haddr
      rw [List.mem_toFinset, mem_tuples_iff] at haddr
      exact hall addr haddr
    rw [← hcard, ← heq, h.card_eq]
  · intro hn addr hoffers
    have heq : a.inUse = a.tuples.toFinset := by
      apply Finset.eq_of_subset_of_card_le h.subset
      rw [hcard, h.card_eq, hn]
    rw [heq, List.mem_toFinset, mem_tuples_iff]
    exact hoffers

theorem Filled.allocate {n : Nat} {addr : SocketAddr} (h : a.Filled n)
    (hsome : a.allocate.2 = some addr) : a.allocate.1.Filled (n + 1) := by
  obtain ⟨hfree, hoffers, hinUse⟩ := allocate_some h.cursors hsome
  refine ⟨h.cursors.allocate, ?_, ?_⟩
  · intro other hother
    rw [a.allocate_pool.offers_iff]
    rw [hinUse] at hother
    rcases Finset.mem_insert.mp hother with rfl | hold
    · exact hoffers
    · exact h.offered other hold
  · rw [hinUse, Finset.card_insert_of_notMem hfree, h.card_eq]

/-- The first `n` of a row of allocations succeed as long as `n` is within the capacity. -/
theorem filled_after_replicate (h : a.Filled 0) (hips : a.ips.Nodup) {n : Nat}
    (hn : n ≤ a.capacity) : (a.after (List.replicate n .allocate)).Filled n ∧
      SamePool a (a.after (List.replicate n .allocate)) := by
  induction n with
  | zero => exact ⟨h, rfl, rfl, rfl⟩
  | succ n ih =>
    obtain ⟨hfilled, hpool⟩ := ih (by omega)
    have hstep : a.after (List.replicate (n + 1) .allocate) =
        (a.after (List.replicate n .allocate)).allocate.1 := by
      rw [List.replicate_succ', after, List.foldl_append]
      rfl
    rw [hstep]
    refine ⟨?_, hpool.trans (allocate_pool _)⟩
    cases hnext : (a.after (List.replicate n .allocate)).allocate.2 with
    | some addr => exact hfilled.allocate hnext
    | none =>
      have hfull := (hfilled.allocate_none_iff (by rwa [hpool.1])).mp hnext
      rw [hpool.capacity_eq] at hfull
      omega

/-- With nothing in use exactly as many allocations in a row succeed as there are tuples. -/
theorem allocate_row (h : a.Cursors) (hips : a.ips.Nodup) (hempty : a.inUse = ∅) :
    (∀ n < a.capacity, (a.after (List.replicate n .allocate)).allocate.2.isSome = true) ∧
      (a.after (List.replicate a.capacity .allocate)).allocate.2 = none := by
  have hfilled : a.Filled 0 := ⟨h, by simp [hempty], by rw [hempty, Finset.card_empty]⟩
  have hnone : ∀ n ≤ a.capacity,
      (a.after (List.replicate n .allocate)).allocate.2 = none ↔ n = a.capacity := by
    intro n hn
    obtain ⟨hrow, hpool⟩ := filled_after_replicate hfilled hips hn
    rw [hrow.allocate_none_iff (by rwa [hpool.1]), hpool.capacity_eq]
  constructor
  · intro n hn
    rw [Option.isSome_iff_ne_none, ne_eq, hnone n (Nat.le_of_lt hn)]
    omega
  · exact (hnone _ (Nat.le_refl _)).mpr rfl

end Runs

theorem new_eq {ips : List IpAddr} {lo hi : UInt16} (hips : ips ≠ []) (hports : lo ≤ hi) :
    ∃ a, new ips lo hi = .ok a ∧ a.ips = ips ∧ a.portLo = lo ∧ a.portHi = hi ∧ a.Cursors ∧
      a.inUse = ∅ := by
  have hlen : ¬ ips.length = 0 := by
    rwa [List.length_eq_zero_iff]
  have hordered : ¬ hi < lo := UInt16.not_lt.mpr hports
  rw [new, dif_neg hlen, dif_neg hordered]
  exact ⟨_, rfl, rfl, rfl, rfl, ⟨Nat.pos_of_ne_zero hlen, UInt16.le_refl _, hports⟩, rfl⟩

/-- The allocator after any calls. -/
theorem allocate_complete (ips : List IpAddr) (lo hi : UInt16) (hips : ips ≠ [])
    (hports : lo ≤ hi) (ops : List Op) :
    ∃ fresh, new ips lo hi = .ok fresh ∧
      let a := fresh.after ops
      -- in use are the addresses that the calls returned and that were not released since
      a.inUse = fresh.givenOut ∅ ops ∧
      (∀ addr, a.allocate.2 = some addr →
        addr ∉ a.inUse ∧ addr.ip ∈ ips ∧ lo ≤ addr.port ∧ addr.port ≤ hi) ∧
      -- the cursors stay in range, and no sum of a scan overflows: a `Vec` has fewer than
      -- 2^63 elements
      (a.nextIp < ips.length ∧ lo ≤ a.nextPort ∧ a.nextPort ≤ hi) ∧
      (∀ port, lo ≤ port → port ≤ hi → (a.portAfter port).toNat =
        if port.toNat = hi.toNat then lo.toNat else port.toNat + 1) ∧
      (ips.length < 2 ^ 63 → ∀ k < ips.length, a.nextIp + k < 2 ^ 64 ∧ a.ipIndex k + 1 < 2 ^ 64) ∧
      (a.allocate.2 = none ↔
        ∀ ip ∈ ips, ∀ port, lo ≤ port → port ≤ hi → SocketAddr.new ip port ∈ a.inUse) ∧
      (ips.Nodup → a.inUse = ∅ →
        (∀ n < a.capacity, (a.after (List.replicate n .allocate)).allocate.2.isSome = true) ∧
        (a.after (List.replicate a.capacity .allocate)).allocate.2 = none) ∧
      a.capacity = ips.length * (hi.toNat - lo.toNat + 1) ∧
      (ips.length < 2 ^ 48 → a.capacity < 2 ^ 64) := by
  obtain ⟨fresh, hnew, hfips, hflo, hfhi, hfresh, hempty⟩ := new_eq hips hports
  refine ⟨fresh, hnew, ?_⟩
  intro a
  obtain ⟨hcursors, haips, halo, hahi⟩ : a.Cursors ∧ SamePool fresh a := after_invariant hfresh ops
  rw [hfips] at haips
  rw [hflo] at halo
  rw [hfhi] at hahi
  have hcapacity : a.capacity = ips.length * (hi.toNat - lo.toNat + 1) := by
    rw [capacity, haips, halo, hahi]
  refine ⟨?_, ?_, ⟨?_, ?_, ?_⟩, ?_, ?_, ?_, ?_, hcapacity, ?_⟩
  · rw [← hempty]
    exact inUse_after fresh ops
  · intro addr hsome
    obtain ⟨hfree, ⟨ip, hip, port, hlow, hhigh, rfl⟩, -⟩ := allocate_some hcursors hsome
    rw [SocketAddr.ip_new, SocketAddr.port_new, ← haips, ← halo, ← hahi]
    exact ⟨hfree, hip, hlow, hhigh⟩
  · rw [← haips]
    exact hcursors.ip_lt
  · rw [← halo]
    exact hcursors.le_port
  · rw [← hahi]
    exact hcursors.port_le
  · intro port _ hhigh
    rw [← halo, ← hahi]
    apply toNat_portAfter
    rwa [hahi]
  · intro hlen k hk
    have hip := hcursors.ip_lt
    have hindex : a.ipIndex k < a.ips.length := Nat.mod_lt _ a.ips_pos
    rw [haips] at hip hindex
    omega
  · rw [allocate_none_iff hcursors]
    constructor
    · intro hall ip hip port hlow hhigh
      apply hall
      exact ⟨ip, by rwa [haips], port, by rwa [halo], by rwa [hahi], rfl⟩
    · rintro hall addr ⟨ip, hip, port, hlow, hhigh, rfl⟩
      rw [haips] at hip
      rw [halo] at hlow
      rw [hahi] at hhigh
      exact hall ip hip port hlow hhigh
  · intro hnodup hempty
    exact allocate_row hcursors (by rwa [haips]) hempty
  · intro hlen
    have hspan : hi.toNat - lo.toNat + 1 ≤ 2 ^ 16 := by
      have := hi.toNat_lt
      omega
    rw [hcapacity]
    calc ips.length * (hi.toNat - lo.toNat + 1)
        ≤ ips.length * 2 ^ 16 := Nat.mul_le_mul_left _ hspan
      _ < 2 ^ 64 := by omega

/-- Two addresses and the last two ports there are. -/
theorem allocate_complete_last_ports :
    ∃ fresh, new [.v4 0xc0000201, .v4 0xc0000202] 65534 65535 = .ok fresh ∧
      (fresh.after (List.replicate 3 .allocate)).allocate.2.isSome = true ∧
      (fresh.after (List.replicate 4 .allocate)).allocate.2 = none := by
  obtain ⟨fresh, hnew, -, -, -, -, -, -, hrow, hcapacity, -⟩ := allocate_complete
    [.v4 0xc0000201, .v4 0xc0000202] 65534 65535 (by simp) (by decide) []
  have hempty : (fresh.after []).inUse = ∅ := by
    cases hnew
    rfl
  obtain ⟨hsome, hnone⟩ := hrow (by decide) hempty
  rw [hcapacity] at hsome hnone
  exact ⟨fresh, hnew, hsome 3 (by decide), hnone⟩

end Straw.PortAllocator
