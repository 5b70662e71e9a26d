import Straw.P2p.Negotiation

/-!
# A session runs as the protocol does

`Negotiation.view` writes a state of the protocol out as the tables, capsules and call
of a session with one fixed peer. Every step of the session is the image of the same
step of the protocol.
-/

namespace Straw

open Transition
set_option autoImplicit false

def compressedContext : Nat := firstUncompressedContext + 2

/-- A table with the uncompressed context and the one proposed for `remote`. -/
def Slot.table (slot : Slot) (uncompressed : Bool) (remote : SocketAddr) : ContextTable where
  contexts :=
    match slot, uncompressed with
    | .active, true => (AList.singleton firstUncompressedContext .uncompressed).insert
        compressedContext (.compressed remote)
    | .active, false => AList.singleton compressedContext (.compressed remote)
    | _, true => AList.singleton firstUncompressedContext .uncompressed
    | _, false => ∅
  pending :=
    match slot with
    | .pending => AList.singleton compressedContext (.compressed remote)
    | _ => ∅

namespace Slot

variable (slot : Slot) (uncompressed : Bool) (remote : SocketAddr)

theorem entries_table :
    (slot.table uncompressed remote).contexts.entries =
      (if slot = .active then [⟨compressedContext, .compressed remote⟩] else []) ++
        if uncompressed then [⟨firstUncompressedContext, .uncompressed⟩] else [] := by
  cases slot <;> cases uncompressed <;> rfl

theorem register_table :
    (slot.table uncompressed remote).register ⟨compressedContext, .compressed remote⟩ =
      if slot = .absent then .ok (Slot.pending.table uncompressed remote)
      else .error (.duplicate compressedContext) := by
  simp only [ContextTable.register, ← AList.lookup_isSome]
  cases slot <;> cases uncompressed <;> rfl

theorem ack_table :
    (slot.table uncompressed remote).ack compressedContext =
      if slot = .pending then .ok (Slot.active.table uncompressed remote)
      else .error (.unknown compressedContext) := by
  cases slot <;> cases uncompressed <;> rfl

theorem close_compressed :
    (slot.table uncompressed remote).close compressedContext =
      Slot.absent.table uncompressed remote := by
  cases slot <;> cases uncompressed <;> rfl

theorem close_uncompressed :
    (slot.table uncompressed remote).close firstUncompressedContext = slot.table false remote := by
  cases slot <;> cases uncompressed <;> rfl

theorem binding_compressed :
    (slot.table uncompressed remote).binding compressedContext =
      if slot = .active then some (.compressed remote) else none := by
  cases slot <;> cases uncompressed <;> rfl

theorem binding_uncompressed :
    (slot.table uncompressed remote).binding firstUncompressedContext =
      if uncompressed then some .uncompressed else none := by
  cases slot <;> cases uncompressed <;> rfl

theorem compressedContextFor_table (addr : SocketAddr) :
    (slot.table uncompressed remote).compressedContextFor addr =
      if slot = .active ∧ remote = addr then some compressedContext else none := by
  rw [ContextTable.compressedContextFor, entries_table]
  by_cases hremote : remote = addr <;> cases slot <;> cases uncompressed <;> simp [hremote]

theorem uncompressedContext_table :
    (slot.table uncompressed remote).uncompressedContext =
      if uncompressed then some firstUncompressedContext else none := by
  cases slot <;> cases uncompressed <;> rfl

end Slot

def proposal (peer : SocketAddr) : CompressionAssign := ⟨compressedContext, .compressed peer⟩

theorem proposal_fits (peer : SocketAddr) : (proposal peer).contextId < 2 ^ 62 := by
  change compressedContext < 2 ^ 62
  decide

namespace LockdownMessage

def encode (peer : SocketAddr) : LockdownMessage → Outcome ProxyError Bytes
  | .assign => (proposal peer).encode
  | .close => encodeContextCapsule capsuleCompressionClose firstUncompressedContext

def bytes (peer : SocketAddr) (m : LockdownMessage) : Bytes :=
  match m.encode peer with
  | .ok bs => bs
  | .error _ => []

theorem encode_eq (peer : SocketAddr) (m : LockdownMessage) : m.encode peer = .ok (m.bytes peer) := by
  have hok : ∃ bs, m.encode peer = .ok bs := by
    cases m with
    | assign =>
      obtain ⟨bs, hbs, -⟩ := CompressionAssign.encode_ok (proposal_fits peer)
      exact ⟨bs, hbs⟩
    | close => exact ⟨_, rfl⟩
  obtain ⟨bs, hbs⟩ := hok
  rw [bytes, hbs]

end LockdownMessage

def ackBytes : Bytes := [0x12, 1, 4]

def EngageEnding.call (peer : SocketAddr) : EngageEnding → Engage
  | .engaged => .returned (.ok peer)
  | .alreadyClosed => .fails "uncompressed context already closed"
  | .duplicate => .fails (ContextError.duplicate compressedContext).toString
  | .queueFull => .fails "capsule queue: no available capacity"
  | .unacknowledged => .fails "relay did not acknowledge the compressed context"

def EngageStage.call (peer : SocketAddr) : EngageStage → Engage
  | .idle => .idle
  | .waiting => .waiting peer compressedContext firstUncompressedContext
  | .timedOut => .timedOut compressedContext
  | .acknowledged => .acknowledged peer firstUncompressedContext
  | .closing => .closing peer firstUncompressedContext
  | .returned ending => ending.call peer

namespace Negotiation

/-- The proposed context at the relay, which acknowledges what it registers at once. -/
def relaySlot (a : Negotiation) : Slot :=
  match a.relayBound with
  | true => .active
  | false => .absent

def view (peer : SocketAddr) (a : Negotiation) : LockdownSys where
  client := ⟨a.slot.table a.clientOpen peer, a.queued.map (LockdownMessage.bytes peer)⟩
  call := a.stage.call peer
  upstream := a.upstream.map (LockdownMessage.bytes peer)
  relay := ⟨a.relaySlot.table a.relayOpen peer.onWire, List.replicate a.acks ackBytes⟩
  ended := none

variable (peer : SocketAddr) (a : Negotiation)

theorem view_initial : initial.view peer = LockdownSys.initial := rfl

theorem view_send (m : LockdownMessage) (next : EngageStage) :
    ((a.view peer).client.trySend (m.bytes peer) (next.call peer)) =
      (((a.send m next).view peer).client, ((a.send m next).view peer).call) := by
  have hlen : (a.view peer).client.capsules.length = a.queued.length := by simp [view]
  unfold RelayLockdown.trySend send
  rw [hlen]
  split
  · simp [view]
  · simp [view, EngageStage.call, EngageEnding.call]

theorem view_propose :
    (a.view peer).client.propose (some peer) =
      ((a.propose.view peer).client, (a.propose.view peer).call) := by
  have hcontexts : (a.view peer).client.contexts = a.slot.table a.clientOpen peer := rfl
  unfold RelayLockdown.propose propose
  simp only [hcontexts, Slot.compressedContextFor_table, Slot.uncompressedContext_table]
  cases hslot : a.slot with
  | active => simp [view, EngageStage.call, EngageEnding.call, hslot]
  | pending =>
    cases hopen : a.clientOpen with
    | false => simp [view, EngageStage.call, EngageEnding.call, hslot, hopen]
    | true =>
      have hregister : (Slot.pending.table true peer).register
          ⟨firstUncompressedContext + 2, .compressed peer⟩ = .error (.duplicate compressedContext) :=
        Slot.register_table .pending true peer
      simp [hregister, view, EngageStage.call, EngageEnding.call, hslot, hopen]
  | absent =>
    cases hopen : a.clientOpen with
    | false => simp [view, EngageStage.call, EngageEnding.call, hslot, hopen]
    | true =>
      have hregister : (Slot.absent.table true peer).register
          ⟨firstUncompressedContext + 2, .compressed peer⟩ = .ok (Slot.pending.table true peer) :=
        Slot.register_table .absent true peer
      have hencode : CompressionAssign.encode ⟨firstUncompressedContext + 2, .compressed peer⟩ =
          .ok (LockdownMessage.assign.bytes peer) := LockdownMessage.encode_eq peer .assign
      have hsend : (view peer { a with slot := .pending }).client.trySend (LockdownMessage.assign.bytes peer)
          (.waiting peer (firstUncompressedContext + 2) firstUncompressedContext) = _ :=
        view_send peer { a with slot := .pending } .assign .waiting
      simpa [hregister, hencode, view, hslot, hopen] using hsend

theorem view_receive (m : LockdownMessage) :
    (a.view peer).relay.receive (m.bytes peer) = .ok ((a.receive m).view peer).relay := by
  cases m with
  | assign =>
    obtain ⟨bs, hbs, body, hnext, hdecode⟩ :
      ∃ bs, ((proposal peer).encode : Outcome ProxyError Bytes) = .ok bs ∧ _ :=
      CompressionAssign.encode_ok (proposal_fits peer)
    obtain rfl : bs = LockdownMessage.assign.bytes peer :=
      Except.ok.inj (hbs.symm.trans (LockdownMessage.encode_eq peer .assign))
    have hassign : CompressionAssign.decode body = .ok ⟨compressedContext, .compressed peer.onWire⟩ :=
      hdecode
    have hack : (encodeContextCapsule capsuleCompressionAck compressedContext :
        Outcome ProxyError Bytes) = .ok ackBytes := rfl
    simp only [BindStream.receive, hnext, ProxyError.ofDecode, Except.mapError, Outcome.ofExcept,
      bind, Except.bind, BindStream.handleContextCapsule, if_pos, hassign]
    cases hbound : a.relayBound with
    | true =>
      have hregister : (a.view peer).relay.contexts.register
          ⟨compressedContext, .compressed peer.onWire⟩ = .error (.duplicate compressedContext) := by
        simp [view, relaySlot, hbound, Slot.register_table]
      simp only [hregister]
      simp [receive, view, relaySlot, hbound]
    | false =>
      have hregister : (a.view peer).relay.contexts.register
          ⟨compressedContext, .compressed peer.onWire⟩ =
            .ok (Slot.pending.table a.relayOpen peer.onWire) := by
        simp [view, relaySlot, hbound, Slot.register_table]
      have hpromote : (Slot.pending.table a.relayOpen peer.onWire).ack compressedContext =
          .ok (Slot.active.table a.relayOpen peer.onWire) := Slot.ack_table .pending _ _
      simp only [hregister, hpromote, hack]
      simp [receive, view, relaySlot, hbound, List.replicate_succ']
  | close =>
    have hnext : nextCapsule (LockdownMessage.close.bytes peer) =
        (.ok (some (.unknown capsuleCompressionClose [2])), []) := rfl
    have hdecode : decodeContextCapsule [2] = .ok firstUncompressedContext := rfl
    have htype : ¬ capsuleCompressionClose = capsuleCompressionAssign := by decide
    simp only [BindStream.receive, hnext, ProxyError.ofDecode, Except.mapError, Outcome.ofExcept,
      bind, Except.bind, BindStream.handleContextCapsule, if_neg htype, if_pos, hdecode]
    simp [receive, view, relaySlot, Slot.close_uncompressed]

theorem view_pump (acks : Nat) :
    (a.view peer).client.pump ackBytes =
      (view peer { a with acks, slot := if a.slot = .pending then .active else a.slot }).client := by
  have hnext : nextCapsule ackBytes =
      (.ok (some (.unknown capsuleCompressionAck [4])), []) := rfl
  have hdecode : decodeContextCapsule [4] = .ok compressedContext := rfl
  have hcontexts : (a.view peer).client.contexts = a.slot.table a.clientOpen peer := rfl
  simp only [RelayLockdown.pump, hnext, if_pos, hdecode, hcontexts, Slot.ack_table]
  cases hslot : a.slot with
  | pending => simp [view]
  | absent => simp [view, hslot]
  | active => simp [view, hslot]

variable {a}

def SameLink (a b : Negotiation) : Prop :=
  b.upstream = a.upstream ∧ b.relayBound = a.relayBound ∧ b.relayOpen = a.relayOpen ∧
    b.acks = a.acks

theorem SameLink.view_eq {b : Negotiation} (h : SameLink a b) :
    { a.view peer with client := (b.view peer).client, call := (b.view peer).call } =
      b.view peer := by
  obtain ⟨hupstream, hbound, hopen, hacks⟩ := h
  simp [view, relaySlot, hupstream, hbound, hopen, hacks]

theorem sameLink_send (m : LockdownMessage) (next : EngageStage) : SameLink a (a.send m next) := by
  rcases send_cases a m next with hsend | hsend <;> rw [hsend] <;> exact ⟨rfl, rfl, rfl, rfl⟩

theorem sameLink_propose : SameLink a a.propose := by
  rcases propose_cases a with ⟨ending, heq⟩ | ⟨-, heq⟩
  · rw [heq]
    exact ⟨rfl, rfl, rfl, rfl⟩
  · rw [heq]
    exact sameLink_send (a := { a with slot := .pending }) .assign .waiting

variable (a)

theorem step_engage_view :
    LockdownSys.step peer (a.view peer) .engage = (a.step .engage).map (view peer) := by
  have hcall : (a.view peer).call = a.stage.call peer := rfl
  have hnext : { a.view peer with
      client := ((a.view peer).client.propose (some peer)).1
      call := ((a.view peer).client.propose (some peer)).2 } = a.propose.view peer := by
    rw [view_propose]
    exact sameLink_propose.view_eq peer
  simp only [LockdownSys.step, step, hcall]
  cases a.stage with
  | idle => exact congrArg some hnext
  | returned ending => cases ending <;> exact congrArg some hnext
  | waiting | timedOut | acknowledged | closing => rfl

theorem step_sendClose_view :
    LockdownSys.step peer (a.view peer) .sendClose = (a.step .sendClose).map (view peer) := by
  have hcall : (a.view peer).call = a.stage.call peer := rfl
  have hclose : (a.view peer).client.sendClose peer firstUncompressedContext =
      (((a.send .close .closing).view peer).client, ((a.send .close .closing).view peer).call) :=
    view_send peer a .close .closing
  have hnext : { a.view peer with
      client := ((a.view peer).client.sendClose peer firstUncompressedContext).1
      call := ((a.view peer).client.sendClose peer firstUncompressedContext).2 } =
        (a.send .close .closing).view peer := by
    rw [hclose]
    exact (sameLink_send .close .closing).view_eq peer
  simp only [LockdownSys.step, step, hcall]
  cases a.stage with
  | acknowledged => exact congrArg some hnext
  | returned ending => cases ending <;> rfl
  | idle | waiting | timedOut | closing => rfl

/-- Every step of the session is the same step of the protocol. -/
theorem view_step (act : LockdownAct) :
    LockdownSys.step peer (a.view peer) act = (a.step act).map (view peer) := by
  have hcall : (a.view peer).call = a.stage.call peer := rfl
  have hcontexts : (a.view peer).client.contexts = a.slot.table a.clientOpen peer := rfl
  cases act with
  | engage => exact step_engage_view peer a
  | sendClose => exact step_sendClose_view peer a
  | observe =>
    simp only [LockdownSys.step, step, hcall]
    cases a.stage with
    | waiting =>
      simp only [EngageStage.call, hcontexts, Slot.binding_compressed]
      cases hslot : a.slot <;> simp [view, EngageStage.call, relaySlot, hslot]
    | returned ending => cases ending <;> rfl
    | idle | timedOut | acknowledged | closing => rfl
  | timeout =>
    simp only [LockdownSys.step, step, hcall]
    cases a.stage with
    | returned ending => cases ending <;> rfl
    | idle | waiting | timedOut | acknowledged | closing => rfl
  | abandon =>
    simp only [LockdownSys.step, step, hcall]
    cases a.stage with
    | timedOut =>
      simp only [EngageStage.call, hcontexts, Slot.close_compressed]
      rfl
    | returned ending => cases ending <;> rfl
    | idle | waiting | acknowledged | closing => rfl
  | closeLocal =>
    simp only [LockdownSys.step, step, hcall]
    cases a.stage with
    | closing =>
      simp only [EngageStage.call, hcontexts, Slot.close_uncompressed]
      rfl
    | returned ending => cases ending <;> rfl
    | idle | waiting | timedOut | acknowledged => rfl
  | pumpSend =>
    have hcapsules : (a.view peer).client.capsules = a.queued.map (LockdownMessage.bytes peer) := rfl
    simp only [LockdownSys.step, step, hcapsules]
    cases a.queued with
    | nil => rfl
    | cons m rest => simp [view, relaySlot]
  | relayReceive =>
    have hupstream : (a.view peer).upstream = a.upstream.map (LockdownMessage.bytes peer) := rfl
    have hended : (a.view peer).ended = none := rfl
    simp only [LockdownSys.step, step, hended, hupstream]
    cases hqueue : a.upstream with
    | nil => rfl
    | cons m rest =>
      have hreceive := view_receive peer { a with upstream := rest } m
      have hrelay : (view peer { a with upstream := rest }).relay = (a.view peer).relay := rfl
      rw [hrelay] at hreceive
      simp only [List.map_cons, hreceive]
      cases m with
      | assign => simp [view, relaySlot, receive_assign]
      | close => simp [view, relaySlot, receive]
  | pumpReceive =>
    have hsent : (a.view peer).relay.sent = List.replicate a.acks ackBytes := rfl
    simp only [LockdownSys.step, step, hsent]
    cases a.acks with
    | zero => rfl
    | succ acks =>
      simp only [List.replicate_succ, view_pump peer a acks]
      rfl

theorem run_view {peer : SocketAddr} {acts : List LockdownAct} {s : LockdownSys}
    (h : Run (Fires (LockdownSys.step peer)) LockdownSys.initial acts s) :
    ∃ a, s = view peer a ∧ Run (Fires step) initial acts a :=
  run_of_image (fun a act => view_step peer a act) (view_initial peer ▸ h)

end Negotiation

end Straw
