import Straw.P2p.PathMux
import Straw.P2p.Refinement

/-!
# Many calls of the lockdown at once

While a call waits for its context to be acknowledged, no other call can register one,
and no call closes the uncompressed context before the other one is active. So there is
a context for the remote at every moment.
-/

namespace Straw

open Outcome Codec
set_option autoImplicit false

namespace Engage

/-- The call has registered its context and does not know yet whether it is active. -/
def undecided : Engage → Bool
  | .waiting .. | .timedOut _ => true
  | _ => false

/-- The call is about to close the uncompressed context. -/
def narrowing : Engage → Bool
  | .acknowledged .. | .closing .. => true
  | _ => false

/-- The call is about `remote` and the two contexts of the session. -/
def Concerns (remote : SocketAddr) : Engage → Prop
  | .idle | .returned _ => True
  | .waiting peer assignId uncompressed =>
    peer = remote ∧ assignId = compressedContext ∧ uncompressed = firstUncompressedContext
  | .timedOut assignId => assignId = compressedContext
  | .acknowledged peer uncompressed | .closing peer uncompressed =>
    peer = remote ∧ uncompressed = firstUncompressedContext

theorem narrowing_of_undecided {call : Engage} (h : call.undecided = true) :
    call.narrowing = false := by
  cases call with
  | waiting _ _ _ => rfl
  | timedOut _ => rfl
  | idle => cases h
  | returned _ => cases h
  | acknowledged _ _ => cases h
  | closing _ _ => cases h

theorem concerns_of_settled {call : Engage} (hundecided : call.undecided = false)
    (hnarrowing : call.narrowing = false) (remote : SocketAddr) : call.Concerns remote := by
  cases call with
  | idle => trivial
  | returned _ => trivial
  | waiting _ _ _ => cases hundecided
  | timedOut _ => cases hundecided
  | acknowledged _ _ => cases hnarrowing
  | closing _ _ => cases hnarrowing

end Engage

section Tables

variable {slot : Slot} {wide : Bool} {remote : SocketAddr} {l : RelayLockdown}

theorem Slot.pending_lookup (slot : Slot) (wide : Bool) (remote : SocketAddr) (id : Nat) :
    (slot.table wide remote).pending.lookup id =
      if slot = .pending ∧ id = compressedContext then some (.compressed remote) else none := by
  cases slot with
  | absent => rfl
  | active => rfl
  | pending =>
    by_cases hid : id = compressedContext
    · subst hid
      rfl
    · rw [if_neg (fun h => hid h.2), AList.lookup_eq_none]
      intro hmem
      exact hid (List.mem_singleton.mp hmem)

/-- A capsule from the relay can only activate the context that is pending. -/
theorem Slot.acknowledge_table (slot : Slot) (wide : Bool) (remote : SocketAddr)
    (capsule : Capsule) :
    ∃ slot', Client.BindClient.acknowledge (slot.table wide remote) capsule = slot'.table wide remote ∧
      (slot' = slot ∨ (slot = .pending ∧ slot' = .active)) := by
  have hsame : ∃ slot', slot.table wide remote = slot'.table wide remote ∧
      (slot' = slot ∨ (slot = .pending ∧ slot' = .active)) := ⟨slot, rfl, Or.inl rfl⟩
  cases capsule with
  | addressAssign _ => exact hsame
  | addressRequest _ => exact hsame
  | routeAdvertisement _ => exact hsame
  | unknown typeId data =>
    simp only [Client.BindClient.acknowledge]
    split
    · cases decodeContextCapsule data with
      | error e => exact hsame
      | ok id =>
        simp only [ContextTable.ack, Slot.pending_lookup]
        by_cases hpending : slot = .pending ∧ id = compressedContext
        · obtain ⟨rfl, rfl⟩ := hpending
          have hack := Slot.ack_table .pending wide remote
          rw [if_pos rfl, ContextTable.ack, Slot.pending_lookup] at hack
          exact ⟨.active, Except.ok.inj hack, Or.inr ⟨rfl, rfl⟩⟩
        · simp only [if_neg hpending]
          exact hsame
    · exact hsame

/-- A proposal returns at once, or it registers the context of `remote`. -/
theorem propose_table (hl : l.contexts = slot.table wide remote)
    (hclosed : wide = false → slot = .active) :
    (∃ r, l.propose (some remote) = (l, .returned r)) ∨
      (slot = .absent ∧ wide = true ∧ ∃ capsules call,
        l.propose (some remote) = (⟨Slot.pending.table wide remote, capsules⟩, call) ∧
        (call = .waiting remote compressedContext firstUncompressedContext ∨
          ∃ r, call = .returned r)) := by
  unfold RelayLockdown.propose
  simp only [hl, Slot.compressedContextFor_table, Slot.uncompressedContext_table]
  cases slot with
  | active => exact Or.inl ⟨.ok remote, by simp⟩
  | pending =>
    cases wide with
    | false => cases hclosed rfl
    | true =>
      have hregister : (Slot.pending.table true remote).register
          ⟨firstUncompressedContext + 2, .compressed remote⟩ =
            .error (.duplicate compressedContext) := Slot.register_table .pending true remote
      refine Or.inl ⟨fail (.invalidRequest (ContextError.duplicate compressedContext).toString), ?_⟩
      simp [hregister, Engage.fails]
  | absent =>
    cases wide with
    | false => cases hclosed rfl
    | true =>
      have hregister : (Slot.absent.table true remote).register
          ⟨firstUncompressedContext + 2, .compressed remote⟩ =
            .ok (Slot.pending.table true remote) := Slot.register_table .absent true remote
      have hencode : CompressionAssign.encode ⟨firstUncompressedContext + 2, .compressed remote⟩ =
          .ok (LockdownMessage.assign.bytes remote) := LockdownMessage.encode_eq remote .assign
      refine Or.inr ⟨rfl, rfl, ?_⟩
      simp only [reduceCtorEq, false_and, if_false, Option.isSome_none, if_true, hregister, hencode,
        RelayLockdown.trySend]
      by_cases hroom : l.capsules.length < RelayLockdown.queueDepth
      · exact ⟨_, _, if_pos hroom, Or.inl rfl⟩
      · exact ⟨_, _, if_neg hroom, Or.inr ⟨_, rfl⟩⟩

theorem sendClose_cases (l : RelayLockdown) (peer : SocketAddr) :
    ∃ capsules call, l.sendClose peer firstUncompressedContext = (⟨l.contexts, capsules⟩, call) ∧
      (call = .closing peer firstUncompressedContext ∨ ∃ r, call = .returned r) := by
  have hencode : encodeContextCapsule capsuleCompressionClose firstUncompressedContext =
      .ok (LockdownMessage.close.bytes peer) := LockdownMessage.encode_eq peer .close
  simp only [RelayLockdown.sendClose, hencode, RelayLockdown.trySend]
  by_cases hroom : l.capsules.length < RelayLockdown.queueDepth
  · exact ⟨_, _, if_pos hroom, Or.inl rfl⟩
  · exact ⟨_, _, if_neg hroom, Or.inr ⟨_, rfl⟩⟩

/-- While one of the two contexts is active there is a frame for `remote`. -/
theorem frameBind_table (remote : SocketAddr) {qsid : UInt64} (hqsid : qsid.toNat < 2 ^ 62)
    (hclosed : wide = false → slot = .active) (contents : Bytes) :
    ∃ wire, frameBind qsid (slot.table wide remote) remote contents = .ok (some wire) := by
  obtain ⟨head, hhead⟩ := writeVarint_ok hqsid
  have hframe : ∀ id b, id < 2 ^ 62 →
      ((slot.table wide remote).compressedContextFor remote).or
        (slot.table wide remote).uncompressedContext = some id →
      (slot.table wide remote).binding id = some b →
      ∃ wire, frameBind qsid (slot.table wide remote) remote contents = .ok (some wire) := by
    intro id b hid hchosen hbinding
    obtain ⟨idBytes, hidBytes⟩ := writeVarint_ok hid
    simp only [frameBind, hchosen, ContextTable.encodeDatagram, hidBytes, expect, bind, Except.bind,
      hbinding]
    cases b with
    | uncompressed =>
      refine ⟨head ++ (idBytes ++ putAddr remote ++ contents), ?_⟩
      simp only [discardErr, hhead]
    | compressed r =>
      refine ⟨head ++ (idBytes ++ contents), ?_⟩
      simp only [discardErr, hhead]
  by_cases hactive : slot = .active
  · subst hactive
    exact hframe compressedContext (.compressed remote) (by decide)
      (by rw [Slot.compressedContextFor_table, if_pos ⟨rfl, rfl⟩]; rfl)
      (by rw [Slot.binding_compressed, if_pos rfl])
  · have hwide : wide = true := by
      cases wide with
      | true => rfl
      | false => exact absurd (hclosed rfl) hactive
    subst hwide
    exact hframe firstUncompressedContext .uncompressed (by decide)
      (by rw [Slot.compressedContextFor_table, if_neg (fun h => hactive h.1),
        Slot.uncompressedContext_table]; rfl)
      (by rw [Slot.binding_uncompressed]; rfl)

end Tables

namespace PathMux

/-- A session bound to `remote`. At most one call is undecided, and while one is, no call
narrows; a call that narrows has an active context. -/
structure Engaged (remote : SocketAddr) (slot : Slot) (wide : Bool) (s : PathMux) : Prop where
  contexts : s.lockdown.contexts = slot.table wide remote
  concerns : ∀ i, (s.calls i).Concerns remote
  single : ∀ i j, (s.calls i).undecided = true → (s.calls j).undecided = true → i = j
  undecided : ∀ i, (s.calls i).undecided = true →
    slot ≠ .absent ∧ wide = true ∧ ∀ j, (s.calls j).narrowing = false
  narrowing : ∀ i, (s.calls i).narrowing = true → slot = .active
  closed : wide = false → slot = .active

/-- No call has found a remote to work on. -/
structure Unbound (s : PathMux) : Prop where
  contexts : s.lockdown.contexts = LockdownSys.uncompressedOnly
  undecided : ∀ i, (s.calls i).undecided = false
  narrowing : ∀ i, (s.calls i).narrowing = false

variable {s t : PathMux} {remote : SocketAddr} {slot : Slot} {wide : Bool}

theorem Unbound.engaged (h : Unbound s) (remote : SocketAddr) :
    Engaged remote .absent true s where
  contexts := h.contexts
  concerns i := Engage.concerns_of_settled (h.undecided i) (h.narrowing i) remote
  single i _ hi := by simp [h.undecided i] at hi
  undecided i hi := by simp [h.undecided i] at hi
  narrowing i hi := by simp [h.narrowing i] at hi
  closed hwide := by cases hwide

theorem Engaged.congr (h : Engaged remote slot wide s)
    (hcontexts : t.lockdown.contexts = s.lockdown.contexts) (hcalls : t.calls = s.calls) :
    Engaged remote slot wide t := by
  refine ⟨hcontexts.trans h.contexts, ?_, ?_, ?_, ?_, h.closed⟩
  · rw [hcalls]
    exact h.concerns
  · rw [hcalls]
    exact h.single
  · rw [hcalls]
    exact h.undecided
  · rw [hcalls]
    exact h.narrowing

theorem Unbound.congr (h : Unbound s) (hcontexts : t.lockdown.contexts = s.lockdown.contexts)
    (hcalls : t.calls = s.calls) : Unbound t := by
  refine ⟨hcontexts.trans h.contexts, ?_, ?_⟩
  · rw [hcalls]
    exact h.undecided
  · rw [hcalls]
    exact h.narrowing

/-- One call moves on and may leave another table behind. -/
theorem Engaged.setCall (h : Engaged remote slot wide s) {i : Nat} {r : RelayLockdown × Engage}
    {slot' : Slot} {wide' : Bool} (hcontexts : r.1.contexts = slot'.table wide' remote)
    (hconcerns : r.2.Concerns remote)
    (hundecided : r.2.undecided = true → (∀ j, j ≠ i → (s.calls j).undecided = false ∧
      (s.calls j).narrowing = false) ∧ slot' ≠ .absent ∧ wide' = true)
    (hnarrowing : r.2.narrowing = true → slot' = .active)
    (hothers : ∀ j, j ≠ i → (s.calls j).undecided = true →
      slot' ≠ .absent ∧ wide' = true ∧ r.2.narrowing = false)
    (hkept : ∀ j, j ≠ i → (s.calls j).narrowing = true → slot' = .active)
    (hclosed : wide' = false → slot' = .active) :
    Engaged remote slot' wide' (s.setCall i r) := by
  have hsame := setCall_self s i r
  have hother : ∀ j, j ≠ i → (s.setCall i r).calls j = s.calls j := by
    intro j hj
    exact setCall_of_ne s hj r
  refine ⟨hcontexts, ?_, ?_, ?_, ?_, hclosed⟩
  · intro j
    by_cases hj : j = i
    · rw [hj, hsame]
      exact hconcerns
    · rw [hother j hj]
      exact h.concerns j
  · intro j k hundecided_j hundecided_k
    by_cases hj : j = i
    · by_cases hk : k = i
      · rw [hj, hk]
      · rw [hj, hsame] at hundecided_j
        rw [hother k hk, ((hundecided hundecided_j).1 k hk).1] at hundecided_k
        cases hundecided_k
    · by_cases hk : k = i
      · rw [hk, hsame] at hundecided_k
        rw [hother j hj, ((hundecided hundecided_k).1 j hj).1] at hundecided_j
        cases hundecided_j
      · rw [hother j hj] at hundecided_j
        rw [hother k hk] at hundecided_k
        exact h.single j k hundecided_j hundecided_k
  · intro j hj
    by_cases hji : j = i
    · rw [hji, hsame] at hj
      obtain ⟨hnone, hslot, hwide⟩ := hundecided hj
      refine ⟨hslot, hwide, ?_⟩
      intro k
      by_cases hki : k = i
      · rw [hki, hsame]
        exact Engage.narrowing_of_undecided hj
      · rw [hother k hki]
        exact (hnone k hki).2
    · rw [hother j hji] at hj
      obtain ⟨hslot, hwide, hcall⟩ := hothers j hji hj
      refine ⟨hslot, hwide, ?_⟩
      intro k
      by_cases hki : k = i
      · rw [hki, hsame]
        exact hcall
      · rw [hother k hki]
        exact (h.undecided j hj).2.2 k
  · intro j hj
    by_cases hji : j = i
    · rw [hji, hsame] at hj
      exact hnarrowing hj
    · rw [hother j hji] at hj
      exact hkept j hji hj

section Steps

variable {i : Nat}

theorem offer_contexts (s : PathMux) (r : RelayLockdown × Engage) :
    (s.offer r).1.contexts = r.1.contexts := by
  unfold offer
  split <;> rfl

/-- A call whose capsule is refused returns. -/
theorem offer_call (s : PathMux) (r : RelayLockdown × Engage) :
    (s.offer r).2 = r.2 ∨ ∃ result, (s.offer r).2 = .returned result := by
  unfold offer
  split
  · exact Or.inr ⟨_, rfl⟩
  · exact Or.inr ⟨_, rfl⟩
  · exact Or.inl rfl

/-- A call that returns and leaves the table alone changes nothing for the others. -/
theorem Engaged.returned (h : Engaged remote slot wide s) {r : RelayLockdown × Engage}
    (hcontexts : r.1.contexts = s.lockdown.contexts)
    (hcall : ∃ result, r.2 = .returned result) :
    Engaged remote slot wide (s.setCall i r) := by
  obtain ⟨result, hresult⟩ := hcall
  apply h.setCall (hcontexts.trans h.contexts)
  · rw [hresult]
    trivial
  · intro hundecided
    rw [hresult] at hundecided
    cases hundecided
  · intro hnarrowing
    rw [hresult] at hnarrowing
    cases hnarrowing
  · intro j _ hj
    obtain ⟨hslot, hwide, -⟩ := h.undecided j hj
    exact ⟨hslot, hwide, by rw [hresult]; rfl⟩
  · intro j _ hj
    exact h.narrowing j hj
  · exact h.closed

theorem Engaged.engage (h : Engaged remote slot wide s) :
    ∃ slot', Engaged remote slot' wide (s.setCall i (s.offer (s.lockdown.propose (some remote)))) := by
  rcases propose_table h.contexts h.closed with ⟨result, hreturned⟩ |
    ⟨rfl, rfl, capsules, call, hpropose, hcall⟩
  · refine ⟨slot, h.returned ?_ ?_⟩
    · rw [offer_contexts, hreturned]
    · rcases offer_call s (s.lockdown.propose (some remote)) with hsame | hrefused
      · exact ⟨result, by rw [hsame, hreturned]⟩
      · exact hrefused
  · -- nothing is registered, so no other call is under way
    have hnone : ∀ j, (s.calls j).undecided = false ∧ (s.calls j).narrowing = false := by
      intro j
      constructor
      · by_contra hj
        exact (h.undecided j (by simpa using hj)).1 rfl
      · by_contra hj
        cases h.narrowing j (by simpa using hj)
    refine ⟨.pending, h.setCall (by rw [offer_contexts, hpropose]) ?_ ?_ ?_ ?_ ?_ ?_⟩
    · rcases offer_call s (s.lockdown.propose (some remote)) with hsame | ⟨result, hrefused⟩
      · rw [hsame, hpropose]
        rcases hcall with rfl | ⟨result, rfl⟩
        · exact ⟨rfl, rfl, rfl⟩
        · trivial
      · rw [hrefused]
        trivial
    · intro _
      exact ⟨fun j _ => hnone j, by decide, rfl⟩
    · intro hnarrowing
      rcases offer_call s (s.lockdown.propose (some remote)) with hsame | ⟨result, hrefused⟩
      · rw [hsame, hpropose] at hnarrowing
        rcases hcall with rfl | ⟨result, rfl⟩
        · cases hnarrowing
        · cases hnarrowing
      · rw [hrefused] at hnarrowing
        cases hnarrowing
    · intro j _ hj
      rw [(hnone j).1] at hj
      cases hj
    · intro j _ hj
      rw [(hnone j).2] at hj
      cases hj
    · intro hwide
      cases hwide

/-- While a call is undecided the others are neither undecided nor narrowing. -/
theorem Engaged.others (h : Engaged remote slot wide s) (hi : (s.calls i).undecided = true) :
    ∀ j, j ≠ i → (s.calls j).undecided = false ∧ (s.calls j).narrowing = false := by
  intro j hj
  refine ⟨?_, (h.undecided i hi).2.2 j⟩
  by_contra hundecided
  exact hj (h.single j i (by simpa using hundecided) hi)

/-- While a call narrows no call is undecided. -/
theorem Engaged.decided (h : Engaged remote slot wide s) (hi : (s.calls i).narrowing = true)
    (j : Nat) : (s.calls j).undecided = false := by
  by_contra hundecided
  have hnone := (h.undecided j (by simpa using hundecided)).2.2 i
  rw [hnone] at hi
  cases hi

theorem Engaged.observe (h : Engaged remote slot wide s) {peer : SocketAddr}
    {assignId uncompressed : Nat} (hcall : s.calls i = .waiting peer assignId uncompressed)
    (hactive : (s.lockdown.contexts.binding assignId).isSome = true) :
    Engaged remote slot wide (s.setCall i (s.lockdown, .acknowledged peer uncompressed)) := by
  have hconcerns := h.concerns i
  rw [hcall] at hconcerns
  obtain ⟨rfl, rfl, rfl⟩ := hconcerns
  have hslot : slot = .active := by
    rw [h.contexts, Slot.binding_compressed] at hactive
    by_contra hne
    rw [if_neg hne] at hactive
    cases hactive
  have hothers := h.others (i := i) (by rw [hcall]; rfl)
  apply h.setCall h.contexts
  · exact ⟨rfl, rfl⟩
  · intro hundecided
    cases hundecided
  · exact fun _ => hslot
  · intro j hj hundecided
    rw [(hothers j hj).1] at hundecided
    cases hundecided
  · exact fun _ _ _ => hslot
  · exact fun _ => hslot

theorem Engaged.timeout (h : Engaged remote slot wide s) {peer : SocketAddr}
    {assignId uncompressed : Nat} (hcall : s.calls i = .waiting peer assignId uncompressed) :
    Engaged remote slot wide (s.setCall i (s.lockdown, .timedOut assignId)) := by
  have hconcerns := h.concerns i
  rw [hcall] at hconcerns
  have hundecided : (s.calls i).undecided = true := by rw [hcall]; rfl
  have hothers := h.others hundecided
  obtain ⟨hslot, hwide, -⟩ := h.undecided i hundecided
  apply h.setCall h.contexts
  · exact hconcerns.2.1
  · exact fun _ => ⟨hothers, hslot, hwide⟩
  · intro hnarrowing
    cases hnarrowing
  · exact fun _ _ _ => ⟨hslot, hwide, rfl⟩
  · intro j hj hnarrowing
    rw [(hothers j hj).2] at hnarrowing
    cases hnarrowing
  · exact h.closed

theorem Engaged.abandon (h : Engaged remote slot wide s) {assignId : Nat} {r : Engage}
    (hcall : s.calls i = .timedOut assignId) (hr : ∃ result, r = .returned result) :
    Engaged remote .absent wide (s.setCall i
      ({ s.lockdown with contexts := s.lockdown.contexts.close assignId }, r)) := by
  have hconcerns := h.concerns i
  rw [hcall] at hconcerns
  obtain rfl : assignId = compressedContext := hconcerns
  obtain ⟨result, rfl⟩ := hr
  have hundecided : (s.calls i).undecided = true := by rw [hcall]; rfl
  have hothers := h.others hundecided
  apply h.setCall
  · rw [h.contexts]
    exact Slot.close_compressed slot wide remote
  · trivial
  · intro hcontra
    cases hcontra
  · intro hcontra
    cases hcontra
  · intro j hj hcontra
    rw [(hothers j hj).1] at hcontra
    cases hcontra
  · intro j hj hcontra
    rw [(hothers j hj).2] at hcontra
    cases hcontra
  · intro hclosed
    rw [(h.undecided i hundecided).2.1] at hclosed
    cases hclosed

theorem Engaged.sendClose (h : Engaged remote slot wide s) {peer : SocketAddr}
    {uncompressed : Nat} (hcall : s.calls i = .acknowledged peer uncompressed) :
    Engaged remote slot wide
      (s.setCall i (s.offer (s.lockdown.sendClose peer uncompressed))) := by
  have hconcerns := h.concerns i
  rw [hcall] at hconcerns
  obtain ⟨rfl, rfl⟩ := hconcerns
  have hnarrowing : (s.calls i).narrowing = true := by rw [hcall]; rfl
  obtain ⟨capsules, call, hclose, hcases⟩ := sendClose_cases s.lockdown peer
  have hcontexts : (s.offer (s.lockdown.sendClose peer firstUncompressedContext)).1.contexts =
      s.lockdown.contexts := by rw [offer_contexts, hclose]
  have hreturned_or : (∃ result, (s.offer (s.lockdown.sendClose peer
      firstUncompressedContext)).2 = .returned result) ∨
      (s.offer (s.lockdown.sendClose peer firstUncompressedContext)).2 =
        .closing peer firstUncompressedContext := by
    rcases offer_call s (s.lockdown.sendClose peer firstUncompressedContext) with hsame | hrefused
    · rw [hsame, hclose]
      rcases hcases with rfl | hreturned
      · exact Or.inr rfl
      · exact Or.inl hreturned
    · exact Or.inl hrefused
  rcases hreturned_or with hreturned | hclosing
  · exact h.returned hcontexts hreturned
  · apply h.setCall (hcontexts.trans h.contexts)
    · rw [hclosing]
      exact ⟨rfl, rfl⟩
    · intro hundecided
      rw [hclosing] at hundecided
      cases hundecided
    · exact fun _ => h.narrowing i hnarrowing
    · intro j _ hundecided
      rw [h.decided hnarrowing j] at hundecided
      cases hundecided
    · exact fun _ _ _ => h.narrowing i hnarrowing
    · exact h.closed

theorem Engaged.closeLocal (h : Engaged remote slot wide s) {peer : SocketAddr}
    {uncompressed : Nat} {r : Engage} (hcall : s.calls i = .closing peer uncompressed)
    (hr : ∃ result, r = .returned result) :
    Engaged remote slot false (s.setCall i
      ({ s.lockdown with contexts := s.lockdown.contexts.close uncompressed }, r)) := by
  have hconcerns := h.concerns i
  rw [hcall] at hconcerns
  obtain ⟨rfl, rfl⟩ := hconcerns
  obtain ⟨result, rfl⟩ := hr
  have hnarrowing : (s.calls i).narrowing = true := by rw [hcall]; rfl
  apply h.setCall
  · rw [h.contexts]
    exact Slot.close_uncompressed slot wide peer
  · trivial
  · intro hcontra
    cases hcontra
  · intro hcontra
    cases hcontra
  · intro j _ hundecided
    rw [h.decided hnarrowing j] at hundecided
    cases hundecided
  · exact fun _ _ _ => h.narrowing i hnarrowing
  · exact fun _ => h.narrowing i hnarrowing

theorem Engaged.pumpCapsule (h : Engaged remote slot wide s) (capsule : Capsule) :
    ∃ slot', Engaged remote slot' wide { s with lockdown := { s.lockdown with
      contexts := Client.BindClient.acknowledge s.lockdown.contexts capsule } } := by
  obtain ⟨slot', hcontexts, hslot⟩ := Slot.acknowledge_table slot wide remote capsule
  have hactive : slot = .active → slot' = .active := by
    intro hactive
    rcases hslot with rfl | ⟨-, h'⟩
    · exact hactive
    · exact h'
  refine ⟨slot', ?_, h.concerns, h.single, ?_, ?_, ?_⟩
  · rw [h.contexts]
    exact hcontexts
  · intro j hj
    obtain ⟨hne, hwide, hnone⟩ := h.undecided j hj
    refine ⟨?_, hwide, hnone⟩
    rcases hslot with rfl | ⟨-, rfl⟩
    · exact hne
    · decide
  · intro j hj
    exact hactive (h.narrowing j hj)
  · intro hwide
    exact hactive (h.closed hwide)

end Steps

end PathMux

end Straw
