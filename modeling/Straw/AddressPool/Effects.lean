import Straw.AddressPool.Model

/-!
# What the pool operations do to the bookkeeping

Every allocation is one of three effects (`Allocates`): nothing is granted, a drawn
address is recorded, or a named one is. The invariants over whole runs are derived
from these effects and from that of `release`, never from the loops again.
-/

namespace Straw.AddressPool

open LazyPool
set_option autoImplicit false

def nets (p : AddressPool) : Ipv4Net × Option Ipv6Net := (p.v4.net, p.v6.map V6Pool.net)

def Available (p : AddressPool) : IpAddr → Prop
  | .v4 a => p.v4.Available a
  | .v6 a => ∃ pool, p.v6 = some pool ∧ pool.Available a

/-- `q` is `p` after drawing candidates, of which `got` was free. -/
structure Drawn (p q : AddressPool) (got : Option IpAddr) : Prop where
  allocated : q.allocated = p.allocated
  allocations : q.allocations = p.allocations
  nets : q.nets = p.nets
  sub : ∀ x, q.Available x → p.Available x
  cover : ∀ x, p.Available x → got = some x ∨ (p.allocated x).isSome ∨ q.Available x
  fresh : ∀ x, got = some x → p.allocated x = none ∧ p.Available x

theorem Drawn.refl (p : AddressPool) : Drawn p p none where
  allocated := rfl
  allocations := rfl
  nets := rfl
  sub _ h := h
  cover _ h := Or.inr (Or.inr h)
  fresh := by simp

theorem drawV4_spec (p : AddressPool) : Drawn p p.drawV4.2 (p.drawV4.1.map .v4) := by
  have hdrew := Pool.nextUntaken_drew (V4Pool.scan p.v4.net)
    (fun a => (p.allocated (.v4 a)).isSome) p.v4.toPool
  unfold drawV4
  generalize p.v4.toPool.nextUntaken (V4Pool.scan p.v4.net)
    (fun a => (p.allocated (.v4 a)).isSome) = r at hdrew ⊢
  refine ⟨rfl, rfl, rfl, ?_, ?_, ?_⟩
  · intro x hx
    cases x with
    | v4 a => exact hdrew.sub a hx
    | v6 a => exact hx
  · intro x hx
    cases x with
    | v4 a =>
      rcases hdrew.cover a hx with h | h | h
      · exact Or.inl (by simp [h])
      · exact Or.inr (Or.inl h)
      · exact Or.inr (Or.inr h)
    | v6 a => exact Or.inr (Or.inr hx)
  · intro x hx
    obtain ⟨b, hb, rfl⟩ := Option.map_eq_some_iff.mp hx
    obtain ⟨hfree, hav⟩ := hdrew.fresh b hb
    exact ⟨by simpa using hfree, hav⟩

theorem drawV6_spec (p : AddressPool) : Drawn p p.drawV6.2 (p.drawV6.1.map .v6) := by
  unfold drawV6
  cases hv6 : p.v6 with
  | none => exact Drawn.refl p
  | some v6 =>
    have hdrew := Pool.nextUntaken_drew (V6Pool.scan v6.net)
      (fun a => (p.allocated (.v6 a)).isSome) v6.toPool
    simp only
    generalize v6.toPool.nextUntaken (V6Pool.scan v6.net)
      (fun a => (p.allocated (.v6 a)).isSome) = r at hdrew ⊢
    refine ⟨rfl, rfl, by simp [AddressPool.nets, hv6], ?_, ?_, ?_⟩
    · intro x hx
      cases x with
      | v4 a => exact hx
      | v6 a =>
        obtain ⟨q, hq, hav⟩ := hx
        obtain rfl := Option.some.inj hq
        exact ⟨v6, hv6, hdrew.sub a hav⟩
    · intro x hx
      cases x with
      | v4 a => exact Or.inr (Or.inr hx)
      | v6 a =>
        obtain ⟨q, hq, hav⟩ := hx
        obtain rfl : v6 = q := Option.some.inj (hv6.symm.trans hq)
        rcases hdrew.cover a hav with h | h | h
        · exact Or.inl (by simp [h])
        · exact Or.inr (Or.inl h)
        · exact Or.inr (Or.inr ⟨_, rfl, h⟩)
    · intro x hx
      obtain ⟨b, hb, rfl⟩ := Option.map_eq_some_iff.mp hx
      obtain ⟨hfree, hav⟩ := hdrew.fresh b hb
      exact ⟨by simpa using hfree, v6, hv6, hav⟩

def Grantable (p : AddressPool) (a : IpAddr) : Prop :=
  p.inPool a = true ∧ a ≠ .v4 p.ipv4Gateway.1 ∧ p.allocated a = none

/-- The effect of an allocation call that may name an address, with the address it grants. -/
inductive Allocates (p : AddressPool) (s : SessionId) (named : Option IpAddr) :
    Option IpAddr → AddressPool → Prop where
  | refused {q : AddressPool} : Drawn p q none → Allocates p s named none q
  | fromPool {q : AddressPool} {a : IpAddr} :
      Drawn p q (some a) → Allocates p s named (some a) (q.record s a)
  | specific {a : IpAddr} :
      named = some a → p.Grantable a → Allocates p s named (some a) (p.record s a)

theorem allocateV4_allocates (p : AddressPool) (s : SessionId) (named : Option IpAddr) :
    Allocates p s named ((p.allocateV4 s).1.map (·.ipAddress)) (p.allocateV4 s).2 := by
  have h := p.drawV4_spec
  unfold allocateV4
  generalize p.drawV4 = r at h ⊢
  obtain ⟨_ | a, q⟩ := r
  · exact .refused h
  · exact .fromPool h

theorem allocateV6_allocates (p : AddressPool) (s : SessionId) (named : Option IpAddr) :
    Allocates p s named ((p.allocateV6 s).1.map (·.ipAddress)) (p.allocateV6 s).2 := by
  have h := p.drawV6_spec
  unfold allocateV6
  generalize p.drawV6 = r at h ⊢
  obtain ⟨_ | a, q⟩ := r
  · exact .refused h
  · exact .fromPool h

theorem allocateFallback_allocates (p : AddressPool) (s : SessionId) (r : RequestedAddress)
    (named : Option IpAddr) :
    Allocates p s named ((p.allocateFallback s r).1.map (·.ipAddress))
      (p.allocateFallback s r).2 := by
  have hbody : Allocates p s named ((p.allocateByVersion s r.ipVersion).1.map (·.ipAddress))
      (p.allocateByVersion s r.ipVersion).2 := by
    unfold allocateByVersion
    split
    · exact p.allocateV4_allocates s named
    · split
      · exact p.allocateV6_allocates s named
      · exact .refused (Drawn.refl p)
  unfold allocateFallback
  simpa [Option.map_map, Function.comp_def] using hbody

theorem tryAllocateSpecific_of_grantable {p : AddressPool} {a : IpAddr} (h : p.Grantable a)
    (s : SessionId) : p.tryAllocateSpecific s a = (true, p.record s a) := by
  obtain ⟨hin, hgw, hfree⟩ := h
  simp [tryAllocateSpecific, hin, hgw, hfree]

theorem tryAllocateSpecific_of_not_grantable {p : AddressPool} {a : IpAddr} (h : ¬ p.Grantable a)
    (s : SessionId) : p.tryAllocateSpecific s a = (false, p) := by
  unfold tryAllocateSpecific
  split
  · rfl
  · rename_i hin
    split
    · rfl
    · rename_i hgw
      split
      · rfl
      · rename_i hfree
        exact absurd ⟨by simpa using hin, hgw, by simpa using hfree⟩ h

theorem allocateForRequest_of_grantable {p : AddressPool} {r : RequestedAddress} {a : IpAddr}
    (hspec : specificAddress r = some a) (h : p.Grantable a) (s : SessionId) :
    p.allocateForRequest s r =
      (some ⟨r.requestId, r.ipVersion, a, r.prefixLength⟩, p.record s a) := by
  simp only [allocateForRequest, hspec, tryAllocateSpecific_of_grantable h]

/-- A request gets what it names, when that is free, or is served in pool order. -/
theorem allocateForRequest_allocates (p : AddressPool) (s : SessionId) (r : RequestedAddress) :
    Allocates p s (specificAddress r) ((p.allocateForRequest s r).1.map (·.ipAddress))
      (p.allocateForRequest s r).2 := by
  cases hspec : specificAddress r with
  | none => simpa only [allocateForRequest, hspec] using p.allocateFallback_allocates s r none
  | some a =>
    by_cases h : p.Grantable a
    · rw [allocateForRequest_of_grantable hspec h s]
      exact .specific rfl h
    · simpa only [allocateForRequest, hspec, tryAllocateSpecific_of_not_grantable h] using
        p.allocateFallback_allocates s r (some a)

section HostPrefix

variable {p : AddressPool} {s : SessionId} {a : AssignedAddress}

theorem allocateV4_host (h : (p.allocateV4 s).1 = some a) :
    a.prefixLength = a.ipAddress.width := by
  unfold allocateV4 at h
  split at h
  · cases h
  · obtain rfl := Option.some.inj h
    rfl

theorem allocateV6_host (h : (p.allocateV6 s).1 = some a) :
    a.prefixLength = a.ipAddress.width := by
  unfold allocateV6 at h
  split at h
  · cases h
  · obtain rfl := Option.some.inj h
    rfl

theorem allocateFallback_host {r : RequestedAddress} (h : (p.allocateFallback s r).1 = some a) :
    a.prefixLength = a.ipAddress.width := by
  obtain ⟨b, hb, rfl⟩ := Option.map_eq_some_iff.mp h
  have hhost : b.prefixLength = b.ipAddress.width := by
    unfold allocateByVersion at hb
    split at hb
    · exact allocateV4_host hb
    · split at hb
      · exact allocateV6_host hb
      · cases hb
  exact hhost

theorem specificAddress_width {r : RequestedAddress} {addr : IpAddr}
    (h : specificAddress r = some addr) : r.prefixLength = addr.width := by
  unfold specificAddress at h
  split at h
  all_goals
    split at h
    · rename_i hc
      obtain rfl := Option.some.inj h
      simp only [Bool.and_eq_true, beq_iff_eq] at hc
      exact hc.2
    · cases h

theorem allocateForRequest_host {r : RequestedAddress}
    (h : (p.allocateForRequest s r).1 = some a) : a.prefixLength = a.ipAddress.width := by
  unfold allocateForRequest at h
  split at h
  · exact allocateFallback_host h
  · rename_i addr hspec
    split at h
    · obtain rfl := Option.some.inj h
      exact specificAddress_width hspec
    · exact allocateFallback_host h

end HostPrefix

section Recycle

def Configured (p : AddressPool) : IpAddr → Prop
  | .v4 _ => True
  | .v6 _ => p.nets.2.isSome

@[simp] theorem recycle_allocated (p : AddressPool) (a : IpAddr) :
    (p.recycle a).allocated = p.allocated := by cases a <;> rfl

@[simp] theorem recycle_allocations (p : AddressPool) (a : IpAddr) :
    (p.recycle a).allocations = p.allocations := by cases a <;> rfl

@[simp] theorem recycle_nets (p : AddressPool) (a : IpAddr) : (p.recycle a).nets = p.nets := by
  cases a with
  | v4 a => rfl
  | v6 a => simp [recycle, nets, Option.map_map, Function.comp_def]

theorem available_recycle_iff (p : AddressPool) (a x : IpAddr) :
    (p.recycle a).Available x ↔ (x = a ∧ p.Configured a) ∨ p.Available x := by
  cases a with
  | v4 a =>
    cases x with
    | v4 x =>
      simp only [Available, recycle, V4Pool.Available, Pool.available_recycle_iff, Configured,
        IpAddr.v4.injEq, and_true]
    | v6 x => simp [Available, recycle]
  | v6 a =>
    cases x with
    | v4 x => simp [Available, recycle]
    | v6 x =>
      cases hv6 : p.v6 with
      | none => simp [Available, recycle, Configured, nets, hv6]
      | some pool =>
        simp only [Available, recycle, Configured, nets, hv6, Option.map_some, Option.some.injEq,
          Option.isSome_some, and_true, IpAddr.v6.injEq, exists_eq_left', V6Pool.Available,
          Pool.available_recycle_iff]

@[simp] theorem releaseOne_nets (p : AddressPool) (a : IpAddr) : (p.releaseOne a).nets = p.nets :=
  recycle_nets _ a

variable (addrs : List IpAddr) (p : AddressPool)

theorem releaseAll_allocated (a : IpAddr) :
    (addrs.foldl releaseOne p).allocated a = if a ∈ addrs then none else p.allocated a := by
  induction addrs generalizing p with
  | nil => rfl
  | cons b addrs ih =>
    simp only [List.foldl_cons, ih, releaseOne, recycle_allocated, List.mem_cons,
      Table.remove_apply]
    by_cases hb : a = b <;> simp [hb]

@[simp] theorem releaseAll_allocations :
    (addrs.foldl releaseOne p).allocations = p.allocations := by
  induction addrs generalizing p with
  | nil => rfl
  | cons b addrs ih => simp only [List.foldl_cons, ih, releaseOne, recycle_allocations]

@[simp] theorem releaseAll_nets : (addrs.foldl releaseOne p).nets = p.nets := by
  induction addrs generalizing p with
  | nil => rfl
  | cons b addrs ih => simp only [List.foldl_cons, ih, releaseOne_nets]

theorem available_releaseAll_iff (x : IpAddr) :
    (addrs.foldl releaseOne p).Available x ↔ (x ∈ addrs ∧ p.Configured x) ∨ p.Available x := by
  induction addrs generalizing p with
  | nil => simp
  | cons b addrs ih =>
    have hconf : (releaseOne p b).Configured x ↔ p.Configured x := by
      cases x <;> simp [Configured]
    have hone : (releaseOne p b).Available x ↔ (x = b ∧ p.Configured b) ∨ p.Available x :=
      available_recycle_iff _ b x
    rw [List.foldl_cons, ih, hconf, hone, List.mem_cons]
    constructor
    · rintro (⟨hx, hc⟩ | ⟨rfl, hc⟩ | hx)
      · exact Or.inl ⟨Or.inr hx, hc⟩
      · exact Or.inl ⟨Or.inl rfl, hc⟩
      · exact Or.inr hx
    · rintro (⟨rfl | hx, hc⟩ | hx)
      · exact Or.inr (Or.inl ⟨rfl, hc⟩)
      · exact Or.inl ⟨hx, hc⟩
      · exact Or.inr (Or.inr hx)

end Recycle

end Straw.AddressPool
