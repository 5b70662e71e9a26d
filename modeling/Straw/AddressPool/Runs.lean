import Straw.AddressPool.Invariant

/-!
# What every run of the pool guarantees

Reserved addresses are kept from the sessions except where a request names an IPv6
one, and no address that the cursor can reach is ever lost.
-/

namespace Straw.AddressPool

open LazyPool
set_option autoImplicit false

variable {Q R : IpAddr → Prop}

theorem Allocates.nets_eq {p q : AddressPool} {s : SessionId} {named got : Option IpAddr}
    (h : Allocates p s named got q) : q.nets = p.nets := by
  cases h with
  | refused hdrawn => exact hdrawn.nets
  | fromPool hdrawn => exact hdrawn.nets
  | specific => rfl

theorem apply_effect (p : AddressPool) (op : Op) :
    (∃ s got, Allocates p s op.names got (p.apply op)) ∨ ∃ s, op = .release s := by
  cases op with
  | allocateV4 s => exact Or.inl ⟨s, _, p.allocateV4_allocates s none⟩
  | allocateV6 s => exact Or.inl ⟨s, _, p.allocateV6_allocates s none⟩
  | allocateForRequest s r => exact Or.inl ⟨s, _, p.allocateForRequest_allocates s r⟩
  | release s => exact Or.inr ⟨s, rfl⟩

theorem apply_nets (p : AddressPool) (op : Op) : (p.apply op).nets = p.nets := by
  rcases p.apply_effect op with ⟨s, got, h⟩ | ⟨s, rfl⟩
  · exact h.nets_eq
  · exact release_nets p s

theorem run_nets (p : AddressPool) (ops : List Op) : (p.run ops).nets = p.nets := by
  induction ops generalizing p with
  | nil => rfl
  | cons op ops ih => exact (ih (p.apply op)).trans (p.apply_nets op)

theorem Bookkept.apply {p : AddressPool} (h : Bookkept Q R p) (op : Op)
    (hop : ∀ a, op.names = some a → Servable p.nets a → Q a) : Bookkept Q R (p.apply op) := by
  rcases p.apply_effect op with ⟨s, got, heff⟩ | ⟨s, rfl⟩
  · exact heff.bookkept h hop
  · exact h.release s

theorem Bookkept.run {p : AddressPool} (h : Bookkept Q R p) (ops : List Op)
    (hops : ∀ op ∈ ops, ∀ a, op.names = some a → Servable p.nets a → Q a) :
    Bookkept Q R (p.run ops) := by
  induction ops generalizing p with
  | nil => exact h
  | cons op ops ih =>
    refine ih (h.apply op (hops op List.mem_cons_self)) ?_
    rw [apply_nets]
    exact fun op' hmem => hops op' (List.mem_cons_of_mem op hmem)

theorem bookkept_new (ipv4 : Ipv4Net) (ipv6 : Option Ipv6Net)
    (hQ : ∀ a, Pristine (ipv4, ipv6) a → Q a) :
    Bookkept Q (Pristine (ipv4, ipv6)) (new ipv4 ipv6) := by
  refine ⟨⟨by simp [new, held], by simp [new, held]⟩, ?_, ?_⟩
  · rintro a (h | h)
    · simp [new] at h
    · exact hQ a ((available_new_iff ipv4 ipv6 a).mp h)
  · intro a ha
    refine ⟨?_, Or.inr ((available_new_iff ipv4 ipv6 a).mpr ha)⟩
    cases a with
    | v4 a => trivial
    | v6 a =>
      obtain ⟨net, hnet, -⟩ := ha
      obtain rfl : ipv6 = some net := hnet
      simp [Configured, nets, new]

theorem new_nets (ipv4 : Ipv4Net) (ipv6 : Option Ipv6Net) :
    (new ipv4 ipv6).nets = (ipv4, ipv6) := by
  cases ipv6 <;> rfl

theorem bookkept_run (ipv4 : Ipv4Net) (ipv6 : Option Ipv6Net) (ops : List Op) :
    Bookkept (Servable (ipv4, ipv6)) (Pristine (ipv4, ipv6)) ((new ipv4 ipv6).run ops) := by
  refine (bookkept_new ipv4 ipv6 ?_).run ops ?_
  · intro a ha
    cases a with
    | v4 a => exact ha
    | v6 a => exact ha.inNet
  · intro op _ a _ ha
    rwa [new_nets] at ha

section Reserved

/-- The books are right and no session holds a reserved address. -/
structure Sound (n : Nets) (p : AddressPool) : Prop extends Consistent p where
  inNet : ∀ a, (p.allocated a).isSome → InNet n a
  unreserved : ∀ a, (p.allocated a).isSome → ¬ Reserved n a

def Op.NamesReservedV6 (ipv6 : Option Ipv6Net) (op : Op) : Prop :=
  ∃ net a, ipv6 = some net ∧ op.names = some (.v6 a) ∧ net.contains a = true ∧
    (a = net.network ∨ a = gatewayOf net)

theorem grantable_of_namesReservedV6 {p : AddressPool} {ipv4 : Ipv4Net} {ipv6 : Option Ipv6Net}
    (hnets : p.nets = (ipv4, ipv6)) (h : Sound (ipv4, ipv6) p) {op : Op}
    (hop : op.NamesReservedV6 ipv6) :
    ∃ a, op.names = some a ∧ p.Grantable a ∧ Reserved (ipv4, ipv6) a := by
  obtain ⟨net, a, rfl, hname, hin, hres⟩ := hop
  have hreserved : Reserved (ipv4, some net) (.v6 a) := ⟨net, rfl, hres⟩
  refine ⟨.v6 a, hname, ⟨?_, by simp, ?_⟩, hreserved⟩
  · have hv6 : p.v6.map V6Pool.net = some net := congrArg Prod.snd hnets
    obtain ⟨pool, hpool, rfl⟩ := Option.map_eq_some_iff.mp hv6
    simpa [inPool, hpool] using hin
  · by_contra hsome
    exact h.unreserved (.v6 a) (by rwa [Option.isSome_iff_ne_none]) hreserved

theorem apply_of_grantable {p : AddressPool} {op : Op} {a : IpAddr} (hname : op.names = some a)
    (h : p.Grantable a) : ((p.apply op).allocated a).isSome := by
  cases op with
  | allocateForRequest s r =>
    simp only [apply, allocateForRequest_of_grantable hname h s, record_allocated]
    simp
  | _ => simp [Op.names] at hname

/-- The reserved addresses stay out of every session's hands through a run exactly when
no request of the run names the first or second address of the IPv6 net. -/
theorem sound_run_iff (ipv4 : Ipv4Net) (ipv6 : Option Ipv6Net) (ops : List Op) :
    (∀ done, done <+: ops → Sound (ipv4, ipv6) ((new ipv4 ipv6).run done)) ↔
      ∀ op ∈ ops, ¬ op.NamesReservedV6 ipv6 := by
  constructor
  · intro h op hmem hop
    obtain ⟨before, after, rfl⟩ := List.append_of_mem hmem
    have hbefore := h before ⟨op :: after, rfl⟩
    have hafter := h (before ++ [op]) ⟨after, by simp⟩
    have hnets := (run_nets (new ipv4 ipv6) before).trans (new_nets ipv4 ipv6)
    obtain ⟨a, hname, hgrant, hres⟩ := grantable_of_namesReservedV6 hnets hbefore hop
    rw [run, List.foldl_append] at hafter
    exact hafter.unreserved a (apply_of_grantable hname hgrant) hres
  · intro h done hdone
    -- without such requests, what is handed out is also not reserved
    have hbooks : Bookkept (fun a => InNet (ipv4, ipv6) a ∧ ¬ Reserved (ipv4, ipv6) a)
        (Pristine (ipv4, ipv6)) ((new ipv4 ipv6).run done) := by
      refine (bookkept_new ipv4 ipv6 fun a ha => ⟨ha.inNet, ha.unreserved⟩).run done ?_
      intro op hmem a hname ha
      rw [new_nets] at ha
      cases a with
      | v4 a => exact ha
      | v6 a =>
        refine ⟨ha, ?_⟩
        obtain ⟨net, hnet, hin⟩ := ha
        rintro ⟨net', hnet', hres⟩
        obtain rfl : net = net' := Option.some.inj (hnet.symm.trans hnet')
        exact h op (hdone.subset hmem) ⟨net, a, hnet, hname, hin, hres⟩
    exact ⟨hbooks.toConsistent, fun a ha => (hbooks.confined a (Or.inl ha)).1,
      fun a ha => (hbooks.confined a (Or.inl ha)).2⟩

/-- `fd00::/64`, whose gateway is `fd00::1`. -/
def testNetV6 : Ipv6Net := ⟨0xfd000000000000000000000000000000#128, 64, by decide, by decide⟩

/-- The proxy's own IPv6 address is given to the first session that names it. -/
theorem v6_gateway_granted :
    ((new testNet (some testNetV6)).allocateForRequest ⟨0⟩
        ⟨9, 6, .v6 (gatewayOf testNetV6), 128⟩).1 =
      some ⟨9, 6, .v6 (gatewayOf testNetV6), 128⟩ ∧
    ¬ Sound (testNet, some testNetV6) ((new testNet (some testNetV6)).run
        [.allocateForRequest ⟨0⟩ ⟨9, 6, .v6 (gatewayOf testNetV6), 128⟩]) := by
  refine ⟨by decide +kernel, ?_⟩
  intro h
  exact h.unreserved (.v6 (gatewayOf testNetV6)) (by decide +kernel)
    ⟨testNetV6, rfl, Or.inr rfl⟩

end Reserved

section Holders

/-- A call for the session returned the address. -/
def give (holders : Table IpAddr SessionId) (s : SessionId) : Option IpAddr → Table IpAddr SessionId
  | none => holders
  | some a => holders.insert a s

/-- What the answer to a call says about who holds what. A release gives up all that the
session holds. -/
def note (p : AddressPool) (holders : Table IpAddr SessionId) : Op → Table IpAddr SessionId
  | .allocateV4 s => give holders s ((p.allocateV4 s).1.map (·.ipAddress))
  | .allocateV6 s => give holders s ((p.allocateV6 s).1.map (·.ipAddress))
  | .allocateForRequest s r => give holders s ((p.allocateForRequest s r).1.map (·.ipAddress))
  | .release s => fun a => if holders a = some s then none else holders a

/-- Who holds what after the calls, read off their answers. -/
def holdersAfter (p : AddressPool) (holders : Table IpAddr SessionId) :
    List Op → Table IpAddr SessionId
  | [] => holders
  | op :: ops => (p.apply op).holdersAfter (p.note holders op) ops

theorem Allocates.allocated_eq {p q : AddressPool} {s : SessionId} {named got : Option IpAddr}
    (h : Allocates p s named got q) : q.allocated = give p.allocated s got := by
  cases h with
  | refused hdrawn => exact hdrawn.allocated
  | @fromPool q a hdrawn =>
    change q.allocated.insert a s = _
    rw [hdrawn.allocated]
    rfl
  | specific hname hgrant => rfl

theorem Consistent.note_eq {p : AddressPool} (h : p.Consistent) (op : Op) :
    (p.apply op).allocated = p.note p.allocated op := by
  cases op with
  | allocateV4 s => exact (p.allocateV4_allocates s none).allocated_eq
  | allocateV6 s => exact (p.allocateV6_allocates s none).allocated_eq
  | allocateForRequest s r => exact (p.allocateForRequest_allocates s r).allocated_eq
  | release s =>
    funext a
    change (p.release s).allocated a = if p.allocated a = some s then none else p.allocated a
    rw [release_allocated]
    simp only [h.iff a s]

theorem Consistent.apply {p : AddressPool} (h : p.Consistent) (op : Op) :
    (p.apply op).Consistent := by
  rcases p.apply_effect op with ⟨s, got, heff⟩ | ⟨s, rfl⟩
  · exact heff.consistent h
  · exact h.release s

/-- The pool's book of allocated addresses is what the answers say. -/
theorem Consistent.allocated_run {p : AddressPool} (h : p.Consistent) (ops : List Op) :
    (p.run ops).allocated = p.holdersAfter p.allocated ops := by
  induction ops generalizing p with
  | nil => rfl
  | cons op ops ih =>
    rw [holdersAfter, ← h.note_eq op]
    exact ih (h.apply op)

end Holders

section Exhaustion

def AssignableV4 (net : Ipv4Net) (a : Ipv4Addr) : Prop :=
  net.contains a = true ∧ a ≠ net.network ∧ a ≠ gatewayOf net ∧ a ≠ net.broadcast

theorem assignableV4_iff (ipv4 : Ipv4Net) (ipv6 : Option Ipv6Net) (a : Ipv4Addr) :
    AssignableV4 ipv4 a ↔ Pristine (ipv4, ipv6) (.v4 a) := by
  simp only [AssignableV4, Pristine, InNet, Reserved, not_or, ne_eq]

theorem allocateV4_eq_none_iff (p : AddressPool) (s : SessionId) :
    (p.allocateV4 s).1 = none ↔ ∀ a, p.v4.Available a → (p.allocated (.v4 a)).isSome := by
  have hdraw : p.drawV4.1 = none ↔ ∀ a, p.v4.Available a → (p.allocated (.v4 a)).isSome :=
    Pool.nextUntaken_eq_none_iff _ _ _
  rw [← hdraw]
  unfold allocateV4
  generalize p.drawV4 = r
  obtain ⟨_ | a, q⟩ := r <;> simp

theorem allocateV6_eq_none_iff {p : AddressPool} {pool : V6Pool} (h : p.v6 = some pool)
    (s : SessionId) :
    (p.allocateV6 s).1 = none ↔ ∀ a, pool.Available a → (p.allocated (.v6 a)).isSome := by
  have hdraw : p.drawV6.1 = none ↔ ∀ a, pool.Available a → (p.allocated (.v6 a)).isSome := by
    simp only [drawV6, h]
    exact Pool.nextUntaken_eq_none_iff _ _ _
  rw [← hdraw]
  unfold allocateV6
  generalize p.drawV6 = r
  obtain ⟨_ | a, q⟩ := r <;> simp

theorem allocateV4_run_eq_none_iff (ipv4 : Ipv4Net) (ipv6 : Option Ipv6Net) (ops : List Op)
    (s : SessionId) :
    (((new ipv4 ipv6).run ops).allocateV4 s).1 = none ↔
      ∀ a, AssignableV4 ipv4 a → (((new ipv4 ipv6).run ops).allocated (.v4 a)).isSome := by
  have hbooks := bookkept_run ipv4 ipv6 ops
  rw [allocateV4_eq_none_iff]
  constructor
  · intro h a ha
    rcases (hbooks.covered (.v4 a) ((assignableV4_iff ipv4 ipv6 a).mp ha)).2 with hal | hav
    · exact hal
    · exact h a hav
  · intro h a ha
    exact h a ((assignableV4_iff ipv4 ipv6 a).mpr (hbooks.confined (.v4 a) (Or.inr ha)))

theorem allocateV6_run_eq_none {ipv4 : Ipv4Net} {net : Ipv6Net} {ops : List Op} {s : SessionId}
    (hnone : (((new ipv4 (some net)).run ops).allocateV6 s).1 = none) {o : Nat} (h2 : 2 ≤ o)
    (ho : o < min (2 ^ 64) (2 ^ (128 - net.len))) :
    (((new ipv4 (some net)).run ops).allocated
      (.v6 (net.network + BitVec.ofNat 128 o))).isSome := by
  have hbooks := bookkept_run ipv4 (some net) ops
  rcases (hbooks.covered (.v6 _) ⟨net, rfl, o, h2, ho, rfl⟩).2 with hal | ⟨pool, hpool, hav⟩
  · exact hal
  · exact (allocateV6_eq_none_iff hpool s).mp hnone _ hav

/-- A net that contains the unspecified address starts with it. -/
theorem AssignableV4.specified {net : Ipv4Net} {a : Ipv4Addr} (h : AssignableV4 net a) :
    a.isUnspecified = false := by
  obtain ⟨hin, hfirst, -, -⟩ := h
  by_contra hzero
  obtain rfl : a = 0#32 := by simpa [Ipv4Addr.isUnspecified] using hzero
  rw [NetPrefix.contains_iff] at hin
  have h0 : net.network.toNat = 0 := by simpa using hin.1
  exact hfirst (BitVec.eq_of_toNat_eq (by simp [h0]))

theorem AssignableV4.grantable {p : AddressPool} {a : Ipv4Addr} (h : AssignableV4 p.v4.net a)
    (hfree : p.allocated (.v4 a) = none) : p.Grantable (.v4 a) := by
  obtain ⟨hin, hfirst, hgw, hlast⟩ := h
  refine ⟨?_, ?_, hfree⟩
  · simp [inPool, hin, hfirst, hlast]
  · simpa [ipv4Gateway] using hgw

theorem allocateForRequest_run_eq {ipv4 : Ipv4Net} {ipv6 : Option Ipv6Net} {ops : List Op}
    {r : RequestedAddress} {a : Ipv4Addr} (haddr : r.ipAddress = .v4 a)
    (hlen : r.prefixLength = 32) (ha : AssignableV4 ipv4 a)
    (hfree : ((new ipv4 ipv6).run ops).allocated (.v4 a) = none) (s : SessionId) :
    (((new ipv4 ipv6).run ops).allocateForRequest s r).1 =
      some ⟨r.requestId, r.ipVersion, .v4 a, 32⟩ := by
  have hnet : ((new ipv4 ipv6).run ops).v4.net = ipv4 :=
    congrArg Prod.fst ((run_nets (new ipv4 ipv6) ops).trans (new_nets ipv4 ipv6))
  have hspec : specificAddress r = some (.v4 a) := by
    simp [specificAddress, haddr, hlen, ha.specified]
  rw [allocateForRequest_of_grantable hspec (AssignableV4.grantable (hnet.symm ▸ ha) hfree) s]
  simp [hlen]

/-- No address is lost: an address is allocated as long as a call has returned it and the
session has not released, a failed draw means that everything the pool serves is allocated,
and a free host that is asked for by name is given. The cursors never overflow. -/
theorem no_address_lost (ipv4 : Ipv4Net) (ipv6 : Option Ipv6Net) (ops : List Op)
    (s : SessionId) :
    ((new ipv4 ipv6).run ops).allocated = (new ipv4 ipv6).holdersAfter Table.empty ops ∧
    ((((new ipv4 ipv6).run ops).allocateV4 s).1 = none ↔
      ∀ a, AssignableV4 ipv4 a → (((new ipv4 ipv6).run ops).allocated (.v4 a)).isSome) ∧
    (∀ net, ipv6 = some net → (((new ipv4 ipv6).run ops).allocateV6 s).1 = none →
      ∀ o, 2 ≤ o → o < min (2 ^ 64) (2 ^ (128 - net.len)) →
        (((new ipv4 ipv6).run ops).allocated
          (.v6 (net.network + BitVec.ofNat 128 o))).isSome) ∧
    (∀ r a, r.ipAddress = .v4 a → r.prefixLength = 32 → AssignableV4 ipv4 a →
      ((new ipv4 ipv6).run ops).allocated (.v4 a) = none →
        (((new ipv4 ipv6).run ops).allocateForRequest s r).1 =
          some ⟨r.requestId, r.ipVersion, .v4 a, 32⟩) ∧
    (∀ net cursor, V4Pool.iter net cursor ≠ .exhausted → cursor.toNat + 1 < 2 ^ 32) ∧
    ∀ net cursor, V6Pool.iter net cursor ≠ .exhausted → cursor.toNat + 1 < 2 ^ 128 := by
  refine ⟨?_, allocateV4_run_eq_none_iff ipv4 ipv6 ops s, ?_, ?_, ?_, ?_⟩
  · exact (bookkept_run ipv4 ipv6 []).toConsistent.allocated_run ops
  · rintro net rfl hnone o h2 ho
    exact allocateV6_run_eq_none hnone h2 ho
  · intro r a haddr hlen ha hfree
    exact allocateForRequest_run_eq haddr hlen ha hfree s
  · exact fun net cursor => V4Pool.iter_increment_fits
  · exact fun net cursor => V6Pool.iter_increment_fits

theorem no_address_lost_testNet :
    AssignableV4 testNet 0x0a640005#32 ∧
    (((new testNet none).run [.allocateV4 ⟨0⟩]).allocateForRequest ⟨4⟩
      ⟨9, 4, .v4 0x0a640005#32, 32⟩).1 = some ⟨9, 4, .v4 0x0a640005#32, 32⟩ := by
  have hin : AssignableV4 testNet 0x0a640005#32 := by unfold AssignableV4; decide
  exact ⟨hin, (no_address_lost testNet none [.allocateV4 ⟨0⟩] ⟨4⟩).2.2.2.1
    ⟨9, 4, .v4 0x0a640005#32, 32⟩ _ rfl rfl hin (by decide +kernel)⟩

end Exhaustion

end Straw.AddressPool
