import Straw.P2p.Refinement

/-!
# The peer path during a lockdown

Whether datagrams between client and relay keep their peer and payload while the
compressed context is being proposed, acknowledged, given up and proposed again. Towards
the relay they always do. Towards the client they do unless the relay already has a
context for the peer that the client has not, or no longer.
-/

namespace Straw

open Transition Outcome Codec
set_option autoImplicit false

namespace LockdownSys

variable {s : LockdownSys} {peer : SocketAddr} {id : Nat}

theorem delivers_iff_of_context {got : Bytes → Except ContextError BoundDatagram}
    (hid : (s.relay.contexts.compressedContextFor peer).or s.relay.contexts.uncompressedContext =
      some id)
    (hgot : ∀ payload, ∃ body, s.relay.contexts.encodeDatagram id peer payload = .ok body ∧
      s.client.contexts.decodeDatagram body = got payload) :
    s.Delivers peer ↔ ∀ payload, ∃ i, got payload = .ok ⟨i, peer, payload⟩ := by
  constructor
  · intro hdelivers payload
    obtain ⟨body, hencode, hdecode⟩ := hgot payload
    rw [← hdecode]
    apply hdelivers payload body
    rw [encapsulate_of_some hid, hencode]
    rfl
  · intro hall payload body hbody
    obtain ⟨body', hencode, hdecode⟩ := hgot payload
    rw [encapsulate_of_some hid, hencode] at hbody
    obtain rfl : body' = body := by simpa [discardErr] using hbody
    rw [hdecode]
    exact hall payload

theorem carries_of_context {streamId : UInt64} {remote : SocketAddr} {payload body : Bytes} {i : Nat}
    (hid : (s.client.contexts.compressedContextFor peer).or s.client.contexts.uncompressedContext =
      some id)
    (hencode : s.client.contexts.encodeDatagram id peer payload = .ok body)
    (hdecode : s.relay.contexts.decodeDatagram body = .ok ⟨i, remote, payload⟩) :
    s.Carries streamId peer remote payload := by
  obtain ⟨head, hhead⟩ := writeVarint_ok (quarterStreamId_lt streamId)
  refine ⟨head ++ body, body, i, ?_, readVarint_writeVarint hhead body, hdecode⟩
  simp only [frameBind, hid, hencode, discardErr, bind, Except.bind, hhead, expect]

end LockdownSys

namespace Negotiation

variable {peer : SocketAddr} {a : Negotiation}

/-- The context the relay frames the peer on: its compressed one only when the wire kept
the whole of the peer's address. -/
theorem relay_context (peer : SocketAddr) (a : Negotiation) :
    ((a.view peer).relay.contexts.compressedContextFor peer).or
        (a.view peer).relay.contexts.uncompressedContext =
      if a.relayBound = true ∧ peer.onWire = peer then some compressedContext
      else if a.relayOpen = true then some firstUncompressedContext else none := by
  change ((a.relaySlot.table _ _).compressedContextFor peer).or
    (a.relaySlot.table _ _).uncompressedContext = _
  rw [Slot.compressedContextFor_table, Slot.uncompressedContext_table]
  have hslot : a.relaySlot = .active ↔ a.relayBound = true := by
    cases hbound : a.relayBound <;> simp [relaySlot, hbound]
  simp only [hslot]
  split <;> rfl

theorem client_context (peer : SocketAddr) (a : Negotiation) :
    ((a.view peer).client.contexts.compressedContextFor peer).or
        (a.view peer).client.contexts.uncompressedContext =
      if a.slot = .active then some compressedContext
      else if a.clientOpen = true then some firstUncompressedContext else none := by
  change ((a.slot.table _ _).compressedContextFor peer).or
    (a.slot.table _ _).uncompressedContext = _
  rw [Slot.compressedContextFor_table, Slot.uncompressedContext_table]
  simp only [and_true]
  split <;> rfl

section Bindings

variable (peer)

theorem relay_compressed (h : a.relayBound = true) :
    (a.view peer).relay.contexts.binding compressedContext = some (.compressed peer.onWire) := by
  change (a.relaySlot.table _ _).binding _ = _
  rw [Slot.binding_compressed, relaySlot, h]
  rfl

theorem relay_uncompressed (h : a.relayOpen = true) :
    (a.view peer).relay.contexts.binding firstUncompressedContext = some .uncompressed := by
  change (a.relaySlot.table _ _).binding _ = _
  rw [Slot.binding_uncompressed, if_pos h]

theorem client_compressed (h : a.slot = .active) :
    (a.view peer).client.contexts.binding compressedContext = some (.compressed peer) := by
  change (a.slot.table _ _).binding _ = _
  rw [Slot.binding_compressed, if_pos h]

theorem client_compressed_none (h : a.slot ≠ .active) :
    (a.view peer).client.contexts.binding compressedContext = none := by
  change (a.slot.table _ _).binding _ = _
  rw [Slot.binding_compressed, if_neg h]

theorem client_uncompressed (h : a.clientOpen = true) :
    (a.view peer).client.contexts.binding firstUncompressedContext = some .uncompressed := by
  change (a.slot.table _ _).binding _ = _
  rw [Slot.binding_uncompressed, if_pos h]

theorem client_uncompressed_none (h : a.clientOpen = false) :
    (a.view peer).client.contexts.binding firstUncompressedContext = none := by
  change (a.slot.table _ _).binding _ = _
  rw [Slot.binding_uncompressed, h]
  rfl

theorem relay_bound_iff :
    ((a.view peer).relay.contexts.binding compressedContext).isSome = true ↔
      a.relayBound = true := by
  change ((a.relaySlot.table _ _).binding _).isSome = true ↔ _
  rw [Slot.binding_compressed, relaySlot]
  cases a.relayBound <;> simp

theorem client_bound_iff :
    ((a.view peer).client.contexts.binding compressedContext).isSome = true ↔
      a.slot = .active := by
  by_cases hslot : a.slot = .active
  · simp [client_compressed peer hslot, hslot]
  · simp [client_compressed_none peer hslot, hslot]

theorem relay_closed_iff :
    (a.view peer).relay.contexts.binding firstUncompressedContext = none ↔
      a.relayOpen = false := by
  change (a.relaySlot.table _ _).binding _ = none ↔ _
  rw [Slot.binding_uncompressed]
  cases a.relayOpen <;> simp

end Bindings

theorem Inv.both_open (ha : a.Inv) (hslot : a.slot ≠ .active) :
    a.clientOpen = true ∧ a.relayOpen = true := by
  have hopen := ha.not_narrowed (Or.inl hslot)
  simp only [Narrowed, not_or, Bool.not_eq_false] at hopen
  exact ⟨hopen.1, hopen.2.1⟩

theorem compressedContext_fits : compressedContext < 2 ^ 62 := by decide

theorem uncompressedContext_fits : firstUncompressedContext < 2 ^ 62 := by decide

/-- A peer the wire keeps whole is delivered unless the relay alone has a context for it. -/
theorem Inv.delivers_kept_iff (ha : a.Inv) (hpeer : peer.onWire = peer) :
    (a.view peer).Delivers peer ↔ (a.relayBound = true → a.slot = .active) := by
  by_cases hbound : a.relayBound = true
  · have hid := relay_context peer a
    rw [if_pos ⟨hbound, hpeer⟩] at hid
    by_cases hslot : a.slot = .active
    · have hcarried := ContextTable.carried_compressed compressedContext_fits
        (relay_compressed peer hbound) (client_compressed peer hslot) peer
      refine iff_of_true ?_ (fun _ => hslot)
      apply (LockdownSys.delivers_iff_of_context hid hcarried).mpr
      intro payload
      exact ⟨_, rfl⟩
    · refine iff_of_false ?_ (fun h => hslot (h hbound))
      intro hdelivers
      have hlost := ContextTable.not_carried compressedContext_fits
        (relay_compressed peer hbound) (client_compressed_none peer hslot) peer
      obtain ⟨i, hi⟩ := (LockdownSys.delivers_iff_of_context hid hlost).mp hdelivers []
      cases hi
  · have hslot : a.slot ≠ .active := fun h => hbound (ha.bound (Or.inl h))
    obtain ⟨hclient, hrelay⟩ := ha.both_open hslot
    have hid := relay_context peer a
    rw [if_neg (fun h => hbound h.1), if_pos hrelay] at hid
    have hcarried := ContextTable.carried_uncompressed uncompressedContext_fits
      (relay_uncompressed peer hrelay) (client_uncompressed peer hclient) peer
    refine iff_of_true ?_ (fun h => absurd h hbound)
    apply (LockdownSys.delivers_iff_of_context hid hcarried).mpr
    intro payload
    exact ⟨_, by rw [hpeer]⟩

theorem delivers_reduced_iff (hpeer : peer.onWire ≠ peer) :
    (a.view peer).Delivers peer ↔ a.relayOpen = false := by
  have hid := relay_context peer a
  rw [if_neg (fun h => hpeer h.2)] at hid
  cases hrelay : a.relayOpen with
  | false =>
    rw [hrelay] at hid
    refine iff_of_true ?_ rfl
    intro payload body hbody
    rw [encapsulate_of_none hid] at hbody
    cases hbody
  | true =>
    rw [if_pos hrelay] at hid
    refine iff_of_false ?_ (by simp)
    intro hdelivers
    cases hclient : a.clientOpen with
    | true =>
      have hcarried := ContextTable.carried_uncompressed uncompressedContext_fits
        (relay_uncompressed peer hrelay) (client_uncompressed peer hclient) peer
      obtain ⟨i, hi⟩ := (LockdownSys.delivers_iff_of_context hid hcarried).mp hdelivers []
      exact hpeer (BoundDatagram.mk.inj (Except.ok.inj hi)).2.1
    | false =>
      have hlost := ContextTable.not_carried uncompressedContext_fits
        (relay_uncompressed peer hrelay) (client_uncompressed_none peer hclient)
        peer
      obtain ⟨i, hi⟩ := (LockdownSys.delivers_iff_of_context hid hlost).mp hdelivers []
      cases hi

theorem Inv.carries (ha : a.Inv) (streamId : UInt64) (payload : Bytes) :
    (a.view peer).Carries streamId peer peer.onWire payload := by
  have hid := client_context peer a
  by_cases hslot : a.slot = .active
  · rw [if_pos hslot] at hid
    obtain ⟨body, hencode, hdecode⟩ := ContextTable.carried_compressed compressedContext_fits
      (client_compressed peer hslot)
      (relay_compressed peer (ha.bound (Or.inl hslot))) peer payload
    exact LockdownSys.carries_of_context hid hencode hdecode
  · obtain ⟨hclient, hrelay⟩ := ha.both_open hslot
    rw [if_neg hslot, if_pos hclient] at hid
    obtain ⟨body, hencode, hdecode⟩ := ContextTable.carried_uncompressed uncompressedContext_fits
      (client_uncompressed peer hclient) (relay_uncompressed peer hrelay)
      peer payload
    exact LockdownSys.carries_of_context hid hencode hdecode

end Negotiation

namespace LockdownSys

open Negotiation

variable {peer : SocketAddr} {acts : List LockdownAct} {s : LockdownSys}

/-- 198.51.100.7:9000 -/
def testPeer : SocketAddr := .v4 0xc6336407#32 9000

def scopedPeer : SocketAddr := .v6 0xfe800000000000000000000000000001#128 9000 0 3

/-- In every reachable state, during a call of `engage` as elsewhere, the relay's datagrams
of the peer reach the client unless the relay alone has the context proposed for it. -/
theorem delivers_in_run_iff (h : Run (Fires (step peer)) initial acts s) :
    s.Delivers peer ↔
      (peer.onWire = peer ∧ ((s.relay.contexts.binding compressedContext).isSome →
        (s.client.contexts.binding compressedContext).isSome)) ∨
      (peer.onWire ≠ peer ∧ s.relay.contexts.binding firstUncompressedContext = none) := by
  obtain ⟨a, rfl, hrun⟩ := run_view h
  by_cases hpeer : peer.onWire = peer
  · rw [(inv_run hrun).delivers_kept_iff hpeer, relay_bound_iff, client_bound_iff]
    simp [hpeer]
  · rw [delivers_reduced_iff hpeer, relay_closed_iff]
    simp [hpeer]

theorem delivers_acknowledged : ∃ acts s, Run (Fires (step testPeer)) initial acts s ∧
    s.call.negotiating = true ∧ s.Delivers testPeer := by
  have hexec : (exec (step testPeer) initial [.engage, .pumpSend, .relayReceive, .pumpReceive]).map
      (fun s => (s.call.negotiating, (s.client.contexts.binding compressedContext).isSome)) =
        some (true, true) := by
    decide +kernel
  obtain ⟨s, hs, hobs⟩ := Option.map_eq_some_iff.mp hexec
  obtain ⟨hcall, hbound⟩ := Prod.mk.inj hobs
  have hrun := run_of_exec hs
  refine ⟨_, s, hrun, hcall, (delivers_in_run_iff hrun).mpr (Or.inl ⟨by decide, fun _ => hbound⟩)⟩

/-- The relay uses a context from its registration on, the client only from the
acknowledgement on: in between the peer's datagrams are dropped. -/
theorem unacknowledged_not_delivered : ∃ acts s, Run (Fires (step testPeer)) initial acts s ∧
    s.call.negotiating = true ∧ ¬ s.Delivers testPeer := by
  have hexec : (exec (step testPeer) initial [.engage, .pumpSend, .relayReceive]).map
      (fun s => (s.call.negotiating, encapsulate s.relay.contexts testPeer [1],
        s.client.contexts.decodeDatagram [4, 1])) =
          some (true, .ok (some [4, 1]), .error (.unknown 4)) := by
    decide +kernel
  obtain ⟨s, hs, hobs⟩ := Option.map_eq_some_iff.mp hexec
  obtain ⟨hcall, hpair⟩ := Prod.mk.inj hobs
  obtain ⟨hbody, hdecode⟩ := Prod.mk.inj hpair
  refine ⟨_, s, run_of_exec hs, hcall, ?_⟩
  intro hdelivers
  obtain ⟨id, hid⟩ := hdelivers [1] [4, 1] hbody
  rw [hdecode] at hid
  cases hid

/-- After a call that timed out, and once everything under way has arrived, the relay has
the context; so the peer is delivered exactly when the client has it too. -/
theorem delivers_after_timeout_iff (h : Run (Fires (step peer)) initial acts s)
    (htimeout : .abandon ∈ acts) (hquiet : s.Quiet) :
    s.Delivers peer ↔
      (peer.onWire = peer ∧ (s.client.contexts.binding compressedContext).isSome) ∨
      (peer.onWire ≠ peer ∧ s.relay.contexts.binding firstUncompressedContext = none) := by
  obtain ⟨a, rfl, hrun⟩ := run_view h
  have hbound : a.relayBound = true := by
    obtain ⟨hqueued, hupstream, -⟩ := hquiet
    rcases proposed_of_abandon hrun htimeout with hflight | hbound
    · simp_all [view, inFlight]
    · exact hbound
  by_cases hpeer : peer.onWire = peer
  · rw [(inv_run hrun).delivers_kept_iff hpeer, client_bound_iff]
    simp [hpeer, hbound]
  · rw [delivers_reduced_iff hpeer, relay_closed_iff]
    simp [hpeer]

/-- A second call whose proposal is pending when the late acknowledgement of the first
arrives repairs the path. -/
theorem delivers_after_retry : ∃ acts s, Run (Fires (step testPeer)) initial acts s ∧
    .abandon ∈ acts ∧ s.Quiet ∧ s.Delivers testPeer := by
  have hexec : (exec (step testPeer) initial [.engage, .timeout, .abandon, .pumpSend, .relayReceive,
      .engage, .pumpReceive, .pumpSend, .relayReceive]).map
      (fun s => (s.client.capsules, s.upstream, s.relay.sent,
        (s.client.contexts.binding compressedContext).isSome)) = some ([], [], [], true) := by
    decide +kernel
  obtain ⟨s, hs, hobs⟩ := Option.map_eq_some_iff.mp hexec
  simp only [Prod.mk.injEq] at hobs
  obtain ⟨hqueued, hupstream, hsent, hbound⟩ := hobs
  have hrun := run_of_exec hs
  have hquiet : s.Quiet := ⟨hqueued, hupstream, hsent⟩
  refine ⟨_, s, hrun, by decide, hquiet, ?_⟩
  exact (delivers_after_timeout_iff hrun (by decide) hquiet).mpr (Or.inl ⟨by decide, hbound⟩)

/-- The client gives the context up, the relay does not, and prefers it from then on. -/
theorem timeout_not_delivered : ∃ acts s, Run (Fires (step testPeer)) initial acts s ∧
    .abandon ∈ acts ∧ s.Quiet ∧ ¬ s.Delivers testPeer := by
  have hexec : (exec (step testPeer) initial [.engage, .timeout, .abandon, .pumpSend, .relayReceive,
      .pumpReceive]).map
      (fun s => (s.client.capsules ++ s.upstream ++ s.relay.sent,
        encapsulate s.relay.contexts testPeer [1], s.client.contexts.decodeDatagram [4, 1])) =
          some ([], .ok (some [4, 1]), .error (.unknown 4)) := by
    decide +kernel
  obtain ⟨s, hs, hobs⟩ := Option.map_eq_some_iff.mp hexec
  simp only [Prod.mk.injEq, List.append_eq_nil_iff, and_assoc] at hobs
  obtain ⟨hqueued, hupstream, hsent, hbody, hdecode⟩ := hobs
  refine ⟨_, s, run_of_exec hs, by decide, ⟨hqueued, hupstream, hsent⟩, ?_⟩
  intro hdelivers
  obtain ⟨id, hid⟩ := hdelivers [1] [4, 1] hbody
  rw [hdecode] at hid
  cases hid

/-- In every reachable state what the client frames for the peer gets through, with the
peer's IP address and port. -/
theorem carries_in_run (h : Run (Fires (step peer)) initial acts s) (streamId : UInt64)
    (payload : Bytes) : s.Carries streamId peer peer.onWire payload := by
  obtain ⟨a, rfl, hrun⟩ := run_view h
  exact (inv_run hrun).carries streamId payload

theorem carries_after_lockdown : ∃ acts s, Run (Fires (step testPeer)) initial acts s ∧
    s.client.contexts.binding firstUncompressedContext = none ∧ s.Carries 4 testPeer testPeer [1, 2] := by
  have hexec : (exec (step testPeer) initial [.engage, .pumpSend, .relayReceive, .pumpReceive,
      .observe, .sendClose, .closeLocal, .pumpSend, .relayReceive]).map
      (fun s => s.client.contexts.binding firstUncompressedContext) = some none := by
    decide +kernel
  obtain ⟨s, hs, hclosed⟩ := Option.map_eq_some_iff.mp hexec
  have hrun := run_of_exec hs
  exact ⟨_, s, hrun, hclosed, carries_in_run hrun 4 [1, 2]⟩

/-- The scope of a link-local peer is not sent, so the relay sees another address. -/
theorem scoped_not_carried : ∃ acts s, Run (Fires (step scopedPeer)) initial acts s ∧
    ¬ s.Carries 4 scopedPeer scopedPeer [1] := by
  refine ⟨[], initial, .nil initial, ?_⟩
  intro hcarries
  obtain ⟨wire, body, id, hframe, hread, hdecode⟩ := hcarries
  have hsent : frameBind (quarterStreamId 4) initial.client.contexts scopedPeer [1] =
      .ok (some ([1, 2, 6, 0xfe, 0x80, 0, 0, 0, 0, 0, 0, 0, 0, 0, 0, 0, 0, 0, 1, 0x23, 0x28, 1])) := by
    decide +kernel
  obtain rfl := Option.some.inj (Except.ok.inj (hsent.symm.trans hframe))
  obtain ⟨-, rfl⟩ := Prod.mk.inj (Except.ok.inj hread)
  have hgot : (initial.relay.contexts.decodeDatagram
      [2, 6, 0xfe, 0x80, 0, 0, 0, 0, 0, 0, 0, 0, 0, 0, 0, 0, 0, 1, 0x23, 0x28, 1]).map
        BoundDatagram.remote = .ok scopedPeer.onWire := by
    decide +kernel
  have hremote : scopedPeer.onWire = scopedPeer := by
    have hmap := congrArg (Except.map BoundDatagram.remote) hdecode
    exact Except.ok.inj (hgot.symm.trans hmap)
  exact absurd hremote (by decide)

end LockdownSys

end Straw
