import Straw.AddressPool.Effects

/-!
# Bookkeeping over whole runs of the pool

`Bookkept Q R p` says that the two maps of `p` agree, that only addresses in `Q` are
or will be handed out, and that every address in `R` is held by a session or can
still be drawn. Every operation keeps it; the runs are finite lists of operations,
each running to completion before the next one starts.
-/

namespace Straw.AddressPool

open LazyPool
set_option autoImplicit false

abbrev Nets := Ipv4Net × Option Ipv6Net

def InNet (n : Nets) : IpAddr → Prop
  | .v4 a => n.1.contains a = true
  | .v6 a => ∃ net, n.2 = some net ∧ net.contains a = true

/-- The addresses that no session should get. -/
def Reserved (n : Nets) : IpAddr → Prop
  | .v4 a => a = n.1.network ∨ a = gatewayOf n.1 ∨ a = n.1.broadcast
  | .v6 a => ∃ net, n.2 = some net ∧ (a = net.network ∨ a = gatewayOf net)

/-- What a request that names it can get: IPv6 leaves the reserved addresses in. -/
def Servable (n : Nets) : IpAddr → Prop
  | .v4 a => InNet n (.v4 a) ∧ ¬ Reserved n (.v4 a)
  | .v6 a => InNet n (.v6 a)

/-- What the cursors of a new pool run over. -/
def Pristine (n : Nets) : IpAddr → Prop
  | .v4 a => InNet n (.v4 a) ∧ ¬ Reserved n (.v4 a)
  | .v6 a => ∃ net, n.2 = some net ∧
      ∃ o, 2 ≤ o ∧ o < V6Pool.limit net ∧ a = net.network + BitVec.ofNat 128 o

theorem Grantable.servable {p : AddressPool} {a : IpAddr} (h : p.Grantable a) :
    Servable p.nets a := by
  obtain ⟨hin, hgw, -⟩ := h
  cases a with
  | v4 a =>
    simp only [inPool, Bool.and_eq_true, bne_iff_ne, ne_eq] at hin
    obtain ⟨⟨hnet, hfirst⟩, hlast⟩ := hin
    refine ⟨hnet, ?_⟩
    rintro (h | h | h)
    · exact hfirst h
    · exact hgw (by rw [h]; rfl)
    · exact hlast h
  | v6 a =>
    unfold inPool at hin
    cases hv6 : p.v6 with
    | none => simp [hv6] at hin
    | some pool => exact ⟨pool.net, by simp [nets, hv6], by simpa [hv6] using hin⟩

theorem offset_ne_reserved {w : Nat} {net : NetPrefix w} {o : Nat} (h2 : 2 ≤ o) (ho : o < net.size) :
    net.network + BitVec.ofNat w o ≠ net.network ∧
      net.network + BitVec.ofNat w o ≠ gatewayOf net := by
  have hle := net.network_add_size_le
  have hgw : (net.network + 1#w).toNat = net.network.toNat + 1 :=
    NetPrefix.toNat_offset (by omega)
  constructor
  · intro h
    have := congrArg BitVec.toNat h
    rw [NetPrefix.toNat_offset ho] at this
    omega
  · intro h
    have := congrArg BitVec.toNat h
    rw [NetPrefix.toNat_offset ho, gatewayOf, hgw] at this
    omega

theorem pristine_v4_iff (net : Ipv4Net) (a : Ipv4Addr) :
    (net.contains a = true ∧ ¬ (a = net.network ∨ a = gatewayOf net ∨ a = net.broadcast)) ↔
      ∃ o, 2 ≤ o ∧ o < V4Pool.limit net ∧ a = net.network + BitVec.ofNat 32 o := by
  have htop := net.toNat_broadcast
  constructor
  · rintro ⟨hin, hres⟩
    obtain ⟨o, ho, rfl⟩ := NetPrefix.exists_offset hin
    refine ⟨o, ?_, ?_, rfl⟩
    · by_contra hlt
      rcases (by omega : o = 0 ∨ o = 1) with rfl | rfl
      · exact hres (Or.inl (by simp))
      · exact hres (Or.inr (Or.inl rfl))
    · by_contra hlt
      refine hres (Or.inr (Or.inr (BitVec.eq_of_toNat_eq ?_)))
      rw [NetPrefix.toNat_offset ho, htop]
      unfold V4Pool.limit at hlt
      omega
  · rintro ⟨o, h2, hlim, rfl⟩
    have ho : o < net.size := by unfold V4Pool.limit at hlim; omega
    refine ⟨NetPrefix.contains_offset ho, ?_⟩
    rintro (h | h | h)
    · exact (offset_ne_reserved h2 ho).1 h
    · exact (offset_ne_reserved h2 ho).2 h
    · have := congrArg BitVec.toNat h
      rw [NetPrefix.toNat_offset ho, htop] at this
      unfold V4Pool.limit at hlim
      omega

theorem available_new_iff (ipv4 : Ipv4Net) (ipv6 : Option Ipv6Net) (a : IpAddr) :
    (new ipv4 ipv6).Available a ↔ Pristine (ipv4, ipv6) a := by
  cases a with
  | v4 a =>
    have hscan := ahead_offsets_iff (S := V4Pool.scan ipv4) (V4Pool.limit_lt ipv4)
      (V4Pool.iter_eq_offsets ipv4) 0#32 a
    have hpristine := pristine_v4_iff ipv4 a
    simp only [Available, V4Pool.Available, Pool.Available, new, Finset.notMem_empty, false_or,
      Pristine, InNet, Reserved, hscan, hpristine]
    simp
  | v6 a =>
    have hscan net := ahead_offsets_iff (S := V6Pool.scan net) (V6Pool.limit_lt net)
      (V6Pool.iter_eq_offsets net) 0#128 a
    cases ipv6 with
    | none => simp [Available, new, Pristine]
    | some net =>
      simp only [Available, V6Pool.Available, Pool.Available, new, Option.map_some,
        Option.some.injEq, exists_eq_left', Finset.notMem_empty, false_or, Pristine, hscan]
      simp

theorem Pristine.inNet {n : Nets} {a : IpAddr} (h : Pristine n a) : InNet n a := by
  cases a with
  | v4 a => exact h.1
  | v6 a =>
    obtain ⟨net, hnet, o, -, ho, rfl⟩ := h
    exact ⟨net, hnet, NetPrefix.contains_offset (Nat.lt_of_lt_of_le ho (V6Pool.limit_le_size net))⟩

theorem Pristine.unreserved {n : Nets} {a : IpAddr} (h : Pristine n a) : ¬ Reserved n a := by
  cases a with
  | v4 a => exact h.2
  | v6 a =>
    obtain ⟨net, hnet, o, h2, ho, rfl⟩ := h
    rintro ⟨net', hnet', hres⟩
    obtain rfl : net = net' := Option.some.inj (hnet.symm.trans hnet')
    have hne := offset_ne_reserved h2 (Nat.lt_of_lt_of_le ho (V6Pool.limit_le_size net))
    exact hres.elim hne.1 hne.2

/-- The two maps describe one partial function from addresses to sessions. -/
structure Consistent (p : AddressPool) : Prop where
  iff : ∀ a s, p.allocated a = some s ↔ a ∈ p.held s
  nodup : ∀ s, (p.held s).Nodup

structure Bookkept (Q R : IpAddr → Prop) (p : AddressPool) : Prop extends Consistent p where
  confined : ∀ a, (p.allocated a).isSome ∨ p.Available a → Q a
  covered : ∀ a, R a → p.Configured a ∧ ((p.allocated a).isSome ∨ p.Available a)

theorem configured_congr {p q : AddressPool} (h : q.nets = p.nets) (a : IpAddr) :
    q.Configured a ↔ p.Configured a := by
  cases a <;> simp [Configured, h]

section Record

variable (p : AddressPool) (s t : SessionId) (a b : IpAddr)

theorem record_allocated :
    (p.record s a).allocated b = if b = a then some s else p.allocated b :=
  Table.insert_apply _ _ _ _

theorem held_record : (p.record s a).held t = if t = s then p.held s ++ [a] else p.held t := by
  simp only [held, record, Table.insert_apply]
  split <;> rfl

variable {p s a}

theorem Consistent.record (h : p.Consistent) (hfree : p.allocated a = none) :
    (p.record s a).Consistent where
  iff := by
    intro b t
    have hnot : a ∉ p.held t := fun hmem => by simp [(h.iff a t).mpr hmem] at hfree
    rw [record_allocated, held_record]
    by_cases hb : b = a <;> by_cases ht : t = s
    · simp [hb, ht]
    · simp [hb, ht, hnot, Ne.symm ht]
    · subst ht
      simp [hb, h.iff b t]
    · simp [hb, ht, h.iff b t]
  nodup := by
    intro t
    rw [held_record]
    split
    · have hnot : a ∉ p.held s := fun hmem => by simp [(h.iff a s).mpr hmem] at hfree
      exact List.nodup_append.mpr ⟨h.nodup s, List.nodup_singleton a, by
        intro x hx y hy
        obtain rfl : y = a := by simpa using hy
        exact fun hxy => hnot (hxy ▸ hx)⟩
    · exact h.nodup t

end Record

section Steps

variable {Q R : IpAddr → Prop} {p q : AddressPool} {s : SessionId}

theorem Drawn.consistent {got : Option IpAddr} (h : Drawn p q got) (hp : p.Consistent) :
    q.Consistent where
  iff := by simpa only [held, h.allocated, h.allocations] using hp.iff
  nodup := by simpa only [held, h.allocations] using hp.nodup

theorem Allocates.consistent {named got : Option IpAddr} (h : Allocates p s named got q)
    (hp : p.Consistent) : q.Consistent := by
  cases h with
  | refused hdrawn => exact hdrawn.consistent hp
  | @fromPool q a hdrawn =>
    apply (hdrawn.consistent hp).record
    rw [hdrawn.allocated]
    exact (hdrawn.fresh a rfl).1
  | specific hname hgrant => exact hp.record hgrant.2.2

theorem Allocates.held_eq {named got : Option IpAddr} (h : Allocates p s named got q)
    (t : SessionId) : q.held t = if t = s then p.held s ++ got.toList else p.held t := by
  cases h with
  | refused hdrawn =>
    simp only [held, hdrawn.allocations, Option.toList_none, List.append_nil]
    split
    · rename_i ht
      rw [ht]
    · rfl
  | @fromPool q a hdrawn =>
    rw [held_record]
    simp only [held, hdrawn.allocations, Option.toList_some]
  | @specific a hname hgrant =>
    rw [held_record, Option.toList_some]

theorem Allocates.bookkept {named got : Option IpAddr} (h : Allocates p s named got q)
    (hp : Bookkept Q R p) (hnamed : ∀ a, named = some a → Servable p.nets a → Q a) :
    Bookkept Q R q := by
  have hconsistent := h.consistent hp.toConsistent
  cases h with
  | refused hdrawn =>
    refine ⟨hconsistent, ?_, ?_⟩
    · intro a ha
      rw [hdrawn.allocated] at ha
      exact hp.confined a (ha.imp_right (hdrawn.sub a))
    · intro a ha
      obtain ⟨hconf, hor⟩ := hp.covered a ha
      refine ⟨(configured_congr hdrawn.nets a).mpr hconf, ?_⟩
      rw [hdrawn.allocated]
      rcases hor with hal | hav
      · exact Or.inl hal
      · exact (hdrawn.cover a hav).resolve_left (by simp)
  | @fromPool q a hdrawn =>
    obtain ⟨-, hav⟩ := hdrawn.fresh a rfl
    refine ⟨hconsistent, ?_, ?_⟩
    · intro b hb
      rw [record_allocated, hdrawn.allocated] at hb
      by_cases hba : b = a
      · exact hba ▸ hp.confined a (Or.inr hav)
      · rw [if_neg hba] at hb
        exact hp.confined b (hb.imp_right (hdrawn.sub b))
    · intro b hb
      obtain ⟨hconf, hor⟩ := hp.covered b hb
      refine ⟨(configured_congr hdrawn.nets b).mpr hconf, ?_⟩
      rw [record_allocated, hdrawn.allocated]
      by_cases hba : b = a
      · exact Or.inl (by simp [hba])
      · rw [if_neg hba]
        rcases hor with hal | hav'
        · exact Or.inl hal
        · exact (hdrawn.cover b hav').resolve_left (fun h => hba (Option.some.inj h).symm)
  | @specific a hname hgrant =>
    refine ⟨hconsistent, ?_, ?_⟩
    · intro b hb
      rw [record_allocated] at hb
      by_cases hba : b = a
      · exact hba ▸ hnamed a hname hgrant.servable
      · rw [if_neg hba] at hb
        exact hp.confined b hb
    · intro b hb
      obtain ⟨hconf, hor⟩ := hp.covered b hb
      refine ⟨hconf, ?_⟩
      rw [record_allocated]
      by_cases hba : b = a
      · exact Or.inl (by simp [hba])
      · rw [if_neg hba]
        exact hor

end Steps

section Release

variable (p : AddressPool) (s : SessionId)

theorem release_eq : p.release s =
    (p.held s).foldl releaseOne { p with allocations := p.allocations.remove s } := by
  unfold release held
  cases h : p.allocations s with
  | none =>
    have hsame : p.allocations.remove s = p.allocations := by
      funext t
      rw [Table.remove_apply]
      split
      · rename_i ht
        rw [ht, h]
      · rfl
    simp [hsame]
  | some addrs => rfl

theorem release_allocated (a : IpAddr) :
    (p.release s).allocated a = if a ∈ p.held s then none else p.allocated a := by
  rw [release_eq, releaseAll_allocated]

theorem held_release (t : SessionId) : (p.release s).held t = if t = s then [] else p.held t := by
  rw [release_eq]
  simp only [held, releaseAll_allocations, Table.remove_apply]
  split <;> rfl

@[simp] theorem release_nets : (p.release s).nets = p.nets := by
  rw [release_eq, releaseAll_nets]
  rfl

theorem available_release_iff (a : IpAddr) :
    (p.release s).Available a ↔ (a ∈ p.held s ∧ p.Configured a) ∨ p.Available a := by
  rw [release_eq, available_releaseAll_iff]
  cases a <;> rfl

variable {p}

theorem Consistent.release (h : p.Consistent) : (p.release s).Consistent where
  iff := by
    intro a t
    rw [release_allocated, held_release]
    by_cases ht : t = s
    · subst ht
      by_cases ha : a ∈ p.held t
      · simp [ha]
      · simp [ha, h.iff a t]
    · rw [if_neg ht, ← h.iff a t]
      by_cases ha : a ∈ p.held s
      · simp [ha, (h.iff a s).mpr ha, Ne.symm ht]
      · simp [ha]
  nodup := by
    intro t
    rw [held_release]
    split
    · exact List.nodup_nil
    · exact h.nodup t

theorem Bookkept.release {Q R : IpAddr → Prop} (h : Bookkept Q R p) :
    Bookkept Q R (p.release s) := by
  refine ⟨h.toConsistent.release s, ?_, ?_⟩
  · intro a ha
    rw [release_allocated, available_release_iff] at ha
    rcases ha with ha | ⟨hmem, -⟩ | ha
    · split at ha
      · simp at ha
      · exact h.confined a (Or.inl ha)
    · exact h.confined a (Or.inl (by simp [(h.iff a s).mpr hmem]))
    · exact h.confined a (Or.inr ha)
  · intro a ha
    obtain ⟨hconf, hor⟩ := h.covered a ha
    refine ⟨(configured_congr (release_nets p s) a).mpr hconf, ?_⟩
    rw [release_allocated, available_release_iff]
    by_cases hmem : a ∈ p.held s
    · exact Or.inr (Or.inl ⟨hmem, hconf⟩)
    · rw [if_neg hmem]
      exact hor.imp_right Or.inr

end Release

inductive Op where
  | allocateV4 (s : SessionId)
  | allocateV6 (s : SessionId)
  | allocateForRequest (s : SessionId) (r : RequestedAddress)
  | release (s : SessionId)

def Op.names : Op → Option IpAddr
  | .allocateForRequest _ r => specificAddress r
  | _ => none

def apply (p : AddressPool) : Op → AddressPool
  | .allocateV4 s => (p.allocateV4 s).2
  | .allocateV6 s => (p.allocateV6 s).2
  | .allocateForRequest s r => (p.allocateForRequest s r).2
  | .release s => p.release s

def run (p : AddressPool) (ops : List Op) : AddressPool := ops.foldl apply p

end Straw.AddressPool
