import Straw.UdpBind.Handler

/-!
# The context table over sequences of calls

Invariants of `ContextTable` under `register`, `ack` and `close`, what its two searches
find, and which calls a capsule of the peer makes.
-/

namespace Straw

open Codec Outcome
set_option autoImplicit false

inductive ContextOp where
  | register (assign : CompressionAssign)
  | ack (contextId : Nat)
  | close (contextId : Nat)
deriving DecidableEq

namespace ContextTable

/-- A call that fails leaves the table as it was. -/
def call (t : ContextTable) : ContextOp → ContextTable
  | .register assign => (t.register assign).toOption.getD t
  | .ack contextId => (t.ack contextId).toOption.getD t
  | .close contextId => t.close contextId

def calls (t : ContextTable) (ops : List ContextOp) : ContextTable := ops.foldl call t

structure Inv (t : ContextTable) : Prop where
  disjoint : ∀ id, id ∈ t.contexts → id ∉ t.pending
  even : ∀ id, id ∈ t.contexts ∨ id ∈ t.pending → id % 2 = 0

variable {t t' : ContextTable} {id : Nat} {remote : SocketAddr}

theorem mem_contexts_iff : id ∈ t.contexts ↔ ∃ b, t.binding id = some b := by
  rw [← AList.lookup_isSome, Option.isSome_iff_exists]
  rfl

theorem register_ok {assign : CompressionAssign} (h : t.register assign = .ok t') :
    assign.contextId % 2 = 0 ∧ assign.contextId ∉ t.contexts ∧
      t' = { t with pending := t.pending.insert assign.contextId assign.binding } := by
  unfold register at h
  split at h
  · cases h
  · rename_i heven
    split at h
    · cases h
    · rename_i hfresh
      exact ⟨by omega, fun hmem => hfresh (Or.inl hmem), (Except.ok.inj h).symm⟩

theorem ack_ok (h : t.ack id = .ok t') :
    ∃ b, t.pending.lookup id = some b ∧ id ∈ t.pending ∧
      t' = ⟨t.contexts.insert id b, t.pending.erase id⟩ := by
  unfold ack at h
  split at h
  · cases h
  · rename_i b hb
    refine ⟨b, hb, ?_, (Except.ok.inj h).symm⟩
    rw [← AList.lookup_isSome, hb]
    rfl

/-- Every id a call leaves in the table was there before or is the one it registers. -/
theorem known_of_call {op : ContextOp}
    (h : id ∈ (t.call op).contexts ∨ id ∈ (t.call op).pending) :
    (id ∈ t.contexts ∨ id ∈ t.pending) ∨
      ∃ assign, op = .register assign ∧ assign.contextId = id ∧ id % 2 = 0 := by
  cases op with
  | register assign =>
    rw [call] at h
    cases hregister : t.register assign with
    | error e =>
      rw [hregister] at h
      exact Or.inl h
    | ok t' =>
      rw [hregister] at h
      obtain ⟨heven, -, rfl⟩ := register_ok hregister
      rcases h with h | h
      · exact Or.inl (Or.inl h)
      · rcases (AList.mem_insert _).mp h with rfl | h
        · exact Or.inr ⟨assign, rfl, rfl, heven⟩
        · exact Or.inl (Or.inr h)
  | ack id' =>
    rw [call] at h
    cases hack : t.ack id' with
    | error e =>
      rw [hack] at h
      exact Or.inl h
    | ok t' =>
      rw [hack] at h
      obtain ⟨b, -, hpending, rfl⟩ := ack_ok hack
      rcases h with h | h
      · rcases (AList.mem_insert _).mp h with rfl | h
        · exact Or.inl (Or.inr hpending)
        · exact Or.inl (Or.inl h)
      · exact Or.inl (Or.inr (AList.mem_erase.mp h).2)
  | close id' =>
    rcases h with h | h
    · exact Or.inl (Or.inl (AList.mem_erase.mp h).2)
    · exact Or.inl (Or.inr (AList.mem_erase.mp h).2)

/-- Only `ack` makes a context active, and it takes it out of the pending ones. -/
theorem disjoint_call (ht : ∀ id, id ∈ t.contexts → id ∉ t.pending) (op : ContextOp) (id : Nat)
    (hid : id ∈ (t.call op).contexts) : id ∉ (t.call op).pending := by
  cases op with
  | register assign =>
    rw [call] at hid ⊢
    cases h : t.register assign with
    | error e =>
      rw [h] at hid
      exact ht id hid
    | ok t' =>
      rw [h] at hid
      obtain ⟨-, hfresh, rfl⟩ := register_ok h
      intro hpending
      rcases (AList.mem_insert _).mp hpending with rfl | hpending
      · exact hfresh hid
      · exact ht id hid hpending
  | ack id' =>
    rw [call] at hid ⊢
    cases h : t.ack id' with
    | error e =>
      rw [h] at hid
      exact ht id hid
    | ok t' =>
      rw [h] at hid
      obtain ⟨b, -, -, rfl⟩ := ack_ok h
      intro hmem
      obtain ⟨hne, hmem⟩ := AList.mem_erase.mp hmem
      rcases (AList.mem_insert _).mp hid with heq | hid
      · exact hne heq
      · exact ht id hid hmem
  | close id' =>
    intro hmem
    exact ht id (AList.mem_erase.mp hid).2 (AList.mem_erase.mp hmem).2

theorem Inv.call (ht : t.Inv) (op : ContextOp) : (t.call op).Inv := by
  refine ⟨disjoint_call ht.disjoint op, ?_⟩
  intro id hid
  rcases known_of_call hid with hknown | ⟨-, -, -, heven⟩
  · exact ht.even id hknown
  · exact heven

theorem Inv.calls (ht : t.Inv) (ops : List ContextOp) : (t.calls ops).Inv := by
  induction ops generalizing t with
  | nil => exact ht
  | cons op ops ih => exact ih (ht.call op)

theorem inv_empty : empty.Inv := by
  constructor
  · intro id hid
    exact absurd hid (AList.notMem_empty id)
  · intro id hid
    rcases hid with hid | hid
    · exact absurd hid (AList.notMem_empty id)
    · exact absurd hid (AList.notMem_empty id)

theorem call_binding (ht : t.Inv) {op : ContextOp} {b : Binding} (hb : t.binding id = some b)
    (hop : op ≠ .close id) : (t.call op).binding id = some b := by
  cases op with
  | register assign =>
    rw [call]
    cases h : t.register assign with
    | error e => exact hb
    | ok t' =>
      obtain ⟨-, -, rfl⟩ := register_ok h
      exact hb
  | ack id' =>
    rw [call]
    cases h : t.ack id' with
    | error e => exact hb
    | ok t' =>
      obtain ⟨b', -, hpending, rfl⟩ := ack_ok h
      -- a context that is active is not pending
      have hne : id ≠ id' := by
        rintro rfl
        exact ht.disjoint id (mem_contexts_iff.mpr ⟨b, hb⟩) hpending
      exact (AList.lookup_insert_ne hne).trans hb
  | close id' =>
    have hne : id ≠ id' := by
      rintro rfl
      exact hop rfl
    exact (AList.lookup_erase_ne hne).trans hb

theorem calls_binding (ht : t.Inv) {ops : List ContextOp} {b : Binding}
    (hb : t.binding id = some b) (hops : ContextOp.close id ∉ ops) :
    (t.calls ops).binding id = some b := by
  induction ops generalizing t with
  | nil => exact hb
  | cons op ops ih =>
    rw [List.mem_cons, not_or] at hops
    exact ih (ht.call op) (call_binding ht hb (Ne.symm hops.1)) hops.2

section Lookup

theorem binding_of_mem {entry : Sigma fun _ : Nat => Binding} (h : entry ∈ t.contexts.entries) :
    t.binding entry.1 = some entry.2 :=
  AList.mem_lookup_iff.mpr h

theorem binding_of_compressedContextFor (h : t.compressedContextFor remote = some id) :
    t.binding id = some (.compressed remote) := by
  obtain ⟨entry, hmem, hfound⟩ := List.exists_of_findSome?_eq_some h
  have hbound := binding_of_mem hmem
  split at hfound
  · rename_i addr hentry
    split at hfound
    · rename_i hsame
      obtain rfl := Option.some.inj hfound
      rw [hbound, hentry, hsame]
    · cases hfound
  · cases hfound

theorem binding_of_uncompressedContext (h : t.uncompressedContext = some id) :
    t.binding id = some .uncompressed := by
  obtain ⟨entry, hmem, hfound⟩ := List.exists_of_findSome?_eq_some h
  have hbound := binding_of_mem hmem
  split at hfound
  · rename_i hentry
    obtain rfl := Option.some.inj hfound
    rw [hbound, hentry]
  · cases hfound

/-- The context that is picked for a remote carries it. -/
theorem binding_of_chosen
    (h : (t.compressedContextFor remote).or t.uncompressedContext = some id) :
    t.binding id = some (.compressed remote) ∨ t.binding id = some .uncompressed := by
  rcases Option.or_eq_some_iff.mp h with hcompressed | ⟨-, huncompressed⟩
  · exact Or.inl (binding_of_compressedContextFor hcompressed)
  · exact Or.inr (binding_of_uncompressedContext huncompressed)

theorem compressedContextFor_eq_none :
    t.compressedContextFor remote = none ↔ ∀ id, t.binding id ≠ some (.compressed remote) := by
  constructor
  · intro h id hbound
    have hmem := AList.mem_lookup_iff.mp hbound
    have hnone := List.findSome?_eq_none_iff.mp h _ hmem
    simp at hnone
  · intro h
    cases hfound : t.compressedContextFor remote with
    | none => rfl
    | some id => exact absurd (binding_of_compressedContextFor hfound) (h id)

theorem uncompressedContext_eq_none :
    t.uncompressedContext = none ↔ ∀ id, t.binding id ≠ some .uncompressed := by
  constructor
  · intro h id hbound
    have hmem := AList.mem_lookup_iff.mp hbound
    have hnone := List.findSome?_eq_none_iff.mp h _ hmem
    simp at hnone
  · intro h
    cases hfound : t.uncompressedContext with
    | none => rfl
    | some id => exact absurd (binding_of_uncompressedContext hfound) (h id)

theorem encapsulate_eq_none (hclosed : ∀ id, t.binding id ≠ some .uncompressed) (payload : Bytes) :
    encapsulate t remote payload = .ok none ↔ ∀ id, t.binding id ≠ some (.compressed remote) := by
  rw [← compressedContextFor_eq_none]
  cases hfound : t.compressedContextFor remote with
  | none =>
    have hchosen : (t.compressedContextFor remote).or t.uncompressedContext = none := by
      rw [hfound, uncompressedContext_eq_none.mpr hclosed]
      rfl
    exact ⟨fun _ => rfl, fun _ => encapsulate_of_none hchosen payload⟩
  | some id =>
    have hchosen : (t.compressedContextFor remote).or t.uncompressedContext = some id := by
      rw [hfound]
      rfl
    refine ⟨fun h => ?_, fun h => nomatch h⟩
    rw [encapsulate_of_some hchosen] at h
    have hbound := binding_of_compressedContextFor hfound
    unfold encodeDatagram at h
    rw [hbound] at h
    cases hwrite : writeVarint id with
    | error e => simp [hwrite, expect, bind, Except.bind, discardErr] at h
    | ok head => simp [hwrite, expect, bind, Except.bind, discardErr] at h

theorem encapsulate_ok (hfits : ∀ id b, t.binding id = some b → id < 2 ^ 62) (remote : SocketAddr)
    (payload : Bytes) : ∃ out, encapsulate t remote payload = .ok out := by
  cases hchosen : (t.compressedContextFor remote).or t.uncompressedContext with
  | none => exact ⟨none, encapsulate_of_none hchosen payload⟩
  | some id =>
    rw [encapsulate_of_some hchosen]
    rcases binding_of_chosen hchosen with hbound | hbound
    · obtain ⟨body, hbody, -⟩ := carried_compressed (hfits id _ hbound) hbound hbound remote payload
      exact ⟨some body, by rw [hbody]; rfl⟩
    · obtain ⟨body, hbody, -⟩ :=
        carried_uncompressed (hfits id _ hbound) hbound hbound remote payload
      exact ⟨some body, by rw [hbody]; rfl⟩

theorem encapsulate_eq_some (hclosed : ∀ id, t.binding id ≠ some .uncompressed)
    (hfits : ∀ id, t.binding id = some (.compressed remote) → id < 2 ^ 62) (payload : Bytes) :
    (∃ wire, encapsulate t remote payload = .ok (some wire)) ↔
      ∃ id, t.binding id = some (.compressed remote) := by
  constructor
  · rintro ⟨wire, hwire⟩
    by_contra hnone
    have hdropped : encapsulate t remote payload = .ok none :=
      (encapsulate_eq_none hclosed payload).mpr fun id hid => hnone ⟨id, hid⟩
    rw [hdropped] at hwire
    cases hwire
  · rintro ⟨id, hid⟩
    cases hfound : t.compressedContextFor remote with
    | none => exact absurd hid (compressedContextFor_eq_none.mp hfound id)
    | some id' =>
      have hbound := binding_of_compressedContextFor hfound
      have hchosen : (t.compressedContextFor remote).or t.uncompressedContext = some id' := by
        rw [hfound]
        rfl
      obtain ⟨body, hbody, -⟩ :=
        carried_compressed (hfits id' hbound) hbound hbound remote payload
      rw [encapsulate_of_some hchosen, hbody]
      exact ⟨body, rfl⟩

theorem decodeDatagram_registered (hclosed : ∀ id, t.binding id ≠ some .uncompressed)
    {body : Bytes} {dg : BoundDatagram} (h : t.decodeDatagram body = .ok dg) :
    ∃ id, t.binding id = some (.compressed dg.remote) := by
  obtain ⟨⟨id, rest⟩, -, h⟩ := bind_eq_ok.mp h
  simp only at h
  split at h
  · cases h
  · rename_i remote hbound
    obtain rfl := Except.ok.inj h
    exact ⟨id, hbound⟩
  · rename_i hbound
    exact absurd hbound (hclosed id)

end Lookup

/-- The ids that arrive in capsules fit a varint. -/
def Fits (t : ContextTable) : Prop :=
  ∀ id, id ∈ t.contexts ∨ id ∈ t.pending → id < 2 ^ 62

theorem Fits.calls {ops : List ContextOp} (ht : t.Fits)
    (hops : ∀ assign, ContextOp.register assign ∈ ops → assign.contextId < 2 ^ 62) :
    (t.calls ops).Fits := by
  induction ops generalizing t with
  | nil => exact ht
  | cons op ops ih =>
    apply ih
    · intro id hid
      rcases known_of_call hid with hknown | ⟨assign, rfl, rfl, -⟩
      · exact ht id hknown
      · exact hops assign List.mem_cons_self
    · intro assign hmem
      exact hops assign (List.mem_cons_of_mem op hmem)

theorem Fits.binding (h : t.Fits) {b : Binding} (hb : t.binding id = some b) : id < 2 ^ 62 :=
  h id (Or.inl (mem_contexts_iff.mpr ⟨b, hb⟩))

end ContextTable

namespace BindStream

variable {s s' : BindStream} {typeId : Nat} {data : Bytes}

theorem ofDecode_eq_ok {α : Type} {x : Except DecodeError α} {a : α}
    (h : ProxyError.ofDecode x = .ok a) : x = .ok a := by
  cases x with
  | ok b =>
    obtain rfl := Except.ok.inj h
    rfl
  | error e => cases h

theorem decode_contextId_lt {assign : CompressionAssign}
    (h : CompressionAssign.decode data = .ok assign) : assign.contextId < 2 ^ 62 := by
  obtain ⟨⟨contextId, rest⟩, hread, h⟩ := bind_eq_ok.mp h
  obtain ⟨⟨version, rest⟩, -, h⟩ := bind_eq_ok.mp h
  have hid := readVarint_lt hread
  simp only at h
  split at h
  · simp only [bind, Except.bind] at h
    split at h
    · obtain rfl := Except.ok.inj h
      exact hid
    · cases h
  · obtain ⟨⟨addr, rest⟩, -, h⟩ := bind_eq_ok.mp h
    simp only [bind, Except.bind] at h
    split at h
    · obtain rfl := Except.ok.inj h
      exact hid
    · cases h

/-- What a capsule does to the table is a sequence of calls, and the id it registers was a
varint. -/
theorem handleContextCapsule_calls (h : s.handleContextCapsule typeId data = .ok s') :
    ∃ ops, s'.contexts = s.contexts.calls ops ∧
      ∀ assign, ContextOp.register assign ∈ ops → assign.contextId < 2 ^ 62 := by
  unfold handleContextCapsule at h
  split at h
  · obtain ⟨assign, hassign, h⟩ := bind_eq_ok.mp h
    have hid := decode_contextId_lt (ofDecode_eq_ok hassign)
    split at h
    · obtain rfl := Except.ok.inj h
      exact ⟨[], rfl, nofun⟩
    · rename_i table hregister
      have hcall : s.contexts.call (.register assign) = table := by
        rw [ContextTable.call, hregister]
        rfl
      split at h
      · obtain rfl := Except.ok.inj h
        refine ⟨[.register assign], hcall.symm, ?_⟩
        intro other hother
        obtain rfl := ContextOp.register.inj (List.mem_singleton.mp hother)
        exact hid
      · rename_i table' hack
        obtain ⟨buf, -, h⟩ := bind_eq_ok.mp h
        obtain rfl := Except.ok.inj h
        refine ⟨[.register assign, .ack assign.contextId], ?_, ?_⟩
        · change table' = (s.contexts.call (.register assign)).call (.ack assign.contextId)
          rw [hcall, ContextTable.call, hack]
          rfl
        · intro other hother
          rcases List.mem_cons.mp hother with heq | hother
          · obtain rfl := ContextOp.register.inj heq
            exact hid
          · cases List.mem_singleton.mp hother
  · split at h
    · obtain ⟨contextId, -, h⟩ := bind_eq_ok.mp h
      obtain rfl := Except.ok.inj h
      refine ⟨[.close contextId], rfl, ?_⟩
      intro other hother
      cases List.mem_singleton.mp hother
    · obtain rfl := Except.ok.inj h
      exact ⟨[], rfl, nofun⟩

end BindStream

end Straw
