import Straw.UdpBind.Relay
import Straw.UdpBind.Table

/-!
# The relay as a firewall

Once the last uncompressed context is closed, every datagram looked up in the table
belongs to a remote that some compressed context is bound to. A datagram that was looked
up before the close may still be handed on after it.
-/

namespace Straw

open Codec Outcome Transition
set_option autoImplicit false

namespace BindRelay

variable {s t u : BindRelay} {e : BindEvent} {events : List BindEvent}
  {entry : SocketAddr × Bytes}

/-- The event is a datagram of the network that the table turns into the entry, a remote
and what the peer is sent about it. -/
def Inbound (s : BindRelay) (e : BindEvent) (entry : SocketAddr × Bytes) : Prop :=
  ∃ payload, e = .recvFrom entry.1 payload ∧
    encapsulate s.table entry.1 payload = .ok (some entry.2)

/-- The event is a body of the peer that the table reads as the entry, a remote and what it
is sent. -/
def Outbound (s : BindRelay) (e : BindEvent) (entry : SocketAddr × Bytes) : Prop :=
  ∃ body now id, e = .fromPeer body now ∧ s.table.decodeDatagram body = .ok ⟨id, entry.1, entry.2⟩

/-- What the step of an event can do to the table and to the two hand-offs. -/
structure Moves (s : BindRelay) (e : BindEvent) (t : BindRelay) : Prop where
  policy : t.policy = s.policy
  table : t.table = s.table ∨ ∃ typeId data stream,
    s.stream.handleContextCapsule typeId data = .ok stream ∧ t.table = stream.contexts
  poisoned : t.poisoned = s.poisoned ∨
    ∃ remote payload fault, encapsulate s.table remote payload = .error fault
  toPeer : t.toPeer = s.toPeer ∨ (∃ kept, t.toPeer = s.toPeer.pass kept) ∨
    ∃ entry, s.Inbound e entry ∧ t.toPeer = s.toPeer.fill entry
  toNetwork : t.toNetwork = s.toNetwork ∨ (∃ kept, t.toNetwork = s.toNetwork.pass kept) ∨
    ∃ entry, s.Outbound e entry ∧ s.policy.allows entry.1 = true ∧
      t.toNetwork = s.toNetwork.fill entry

theorem moves_refl (h : t.policy = s.policy ∧ t.table = s.table ∧ t.poisoned = s.poisoned ∧
    t.toPeer = s.toPeer ∧ t.toNetwork = s.toNetwork) : s.Moves e t :=
  ⟨h.1, Or.inl h.2.1, Or.inl h.2.2.1, Or.inl h.2.2.2.1, Or.inl h.2.2.2.2⟩

theorem moves_handle (s : BindRelay) (buffer : CapsuleBuffer) (capsule : Capsule) (acked : Bool) :
    s.Moves e (handle { s with buffer := buffer } capsule acked) := by
  cases capsule with
  | unknown typeId data =>
    simp only [handle]
    split
    · exact moves_refl ⟨rfl, rfl, rfl, rfl, rfl⟩
    · rename_i stream hstream
      split
      · exact ⟨rfl, Or.inr ⟨typeId, data, stream, hstream, rfl⟩, Or.inl rfl, Or.inl rfl,
          Or.inl rfl⟩
      · exact ⟨rfl, Or.inr ⟨typeId, data, stream, hstream, rfl⟩, Or.inl rfl, Or.inl rfl,
          Or.inl rfl⟩
  | addressAssign addrs => exact moves_refl ⟨rfl, rfl, rfl, rfl, rfl⟩
  | addressRequest addrs => exact moves_refl ⟨rfl, rfl, rfl, rfl, rfl⟩
  | routeAdvertisement ranges => exact moves_refl ⟨rfl, rfl, rfl, rfl, rfl⟩

theorem moves_lookupRemote (s : BindRelay) (remote : SocketAddr) (payload : Bytes) :
    s.Moves (.recvFrom remote payload) (s.lookupRemote remote payload) := by
  unfold lookupRemote
  split
  · rename_i fault hfault
    exact ⟨rfl, Or.inl rfl, Or.inr ⟨remote, payload, fault, hfault⟩, Or.inl rfl, Or.inl rfl⟩
  · exact moves_refl ⟨rfl, rfl, rfl, rfl, rfl⟩
  · rename_i wire hwire
    exact ⟨rfl, Or.inl rfl, Or.inl rfl,
      Or.inr (Or.inr ⟨(remote, wire), ⟨payload, rfl, hwire⟩, rfl⟩), Or.inl rfl⟩

theorem moves_lookupBody (s : BindRelay) (body : Bytes) (now : Nat) :
    s.Moves (.fromPeer body now) (s.lookupBody body now) := by
  unfold lookupBody
  split
  · exact moves_refl ⟨rfl, rfl, rfl, rfl, rfl⟩
  · rename_i dg hdg
    split
    · exact moves_refl ⟨rfl, rfl, rfl, rfl, rfl⟩
    · rename_i hallowed
      split
      · exact moves_refl ⟨rfl, rfl, rfl, rfl, rfl⟩
      · split
        · exact moves_refl ⟨rfl, rfl, rfl, rfl, rfl⟩
        · exact ⟨rfl, Or.inl rfl, Or.inl rfl, Or.inl rfl,
            Or.inr (Or.inr ⟨(dg.remote, dg.payload), ⟨body, now, dg.contextId, rfl, hdg⟩,
              by simpa using hallowed, rfl⟩)⟩

theorem step_moves (h : s.step e = some t) : s.Moves e t := by
  cases e with
  | chunk bytes =>
    simp only [step] at h
    split at h
    · split at h
      · cases h
      · obtain rfl := Option.some.inj h
        exact moves_refl ⟨rfl, rfl, rfl, rfl, rfl⟩
    · cases h
  | capsule acked =>
    simp only [step] at h
    split at h
    · cases h
    · split at h
      · cases h
      · obtain rfl := Option.some.inj h
        exact moves_refl ⟨rfl, rfl, rfl, rfl, rfl⟩
      · obtain rfl := Option.some.inj h
        exact moves_handle s _ _ acked
  | recvFrom remote payload =>
    simp only [step] at h
    split at h
    · cases h
    · obtain rfl := Option.some.inj h
      exact moves_lookupRemote s remote payload
  | trySend accepted =>
    simp only [step] at h
    split at h
    · obtain rfl := Option.some.inj h
      exact ⟨rfl, Or.inl rfl, Or.inl rfl, Or.inr (Or.inl ⟨accepted, rfl⟩), Or.inl rfl⟩
    · cases h
  | fromPeer body now =>
    simp only [step] at h
    split at h
    · cases h
    · obtain rfl := Option.some.inj h
      exact moves_lookupBody s body now
  | sendTo ok =>
    simp only [step] at h
    split at h
    · obtain rfl := Option.some.inj h
      exact ⟨rfl, Or.inl rfl, Or.inl rfl, Or.inl rfl, Or.inr (Or.inl ⟨ok, rfl⟩)⟩
    · cases h

/-- The table of the relay is the work of calls with ids that fit a varint, and no lookup
has panicked. -/
structure Sound (s : BindRelay) : Prop where
  calls : ∃ ops, s.table = ContextTable.empty.calls ops
  fits : s.table.Fits
  sane : s.poisoned = false

theorem Sound.moves (hs : s.Sound) (h : s.Moves e t) : t.Sound := by
  refine ⟨?_, ?_, ?_⟩
  · rcases h.table with hsame | ⟨typeId, data, stream, hhandle, htable⟩
    · rw [hsame]
      exact hs.calls
    · obtain ⟨ops, hops⟩ := hs.calls
      obtain ⟨more, hmore, -⟩ := BindStream.handleContextCapsule_calls hhandle
      refine ⟨ops ++ more, ?_⟩
      change s.stream.contexts = _ at hops
      rw [htable, hmore, hops, ContextTable.calls, ContextTable.calls, ContextTable.calls,
        List.foldl_append]
  · rcases h.table with hsame | ⟨typeId, data, stream, hhandle, htable⟩
    · rw [hsame]
      exact hs.fits
    · obtain ⟨more, hmore, hids⟩ := BindStream.handleContextCapsule_calls hhandle
      rw [htable, hmore]
      exact hs.fits.calls hids
  · rcases h.poisoned with hsame | ⟨remote, payload, fault, hfault⟩
    · rw [hsame]
      exact hs.sane
    · obtain ⟨out, hout⟩ :=
        ContextTable.encapsulate_ok (fun id b hb => hs.fits.binding hb) remote payload
      rw [hout] at hfault
      cases hfault

theorem sound_start (policy : DestinationPolicy) (limiter : SessionLimiter) :
    (start policy limiter).Sound := by
  refine ⟨⟨[], rfl⟩, ?_, rfl⟩
  intro id hid
  rcases hid with hid | hid
  · exact absurd hid (AList.notMem_empty id)
  · exact absurd hid (AList.notMem_empty id)

theorem sound_of_run {policy : DestinationPolicy} {limiter : SessionLimiter}
    (h : Run (Fires step) (start policy limiter) events s) : s.Sound :=
  h.invariant Sound (fun _ _ _ hs hstep => hs.moves (step_moves hstep)) (sound_start policy limiter)

/-- No uncompressed context is active. -/
def Closed (s : BindRelay) : Prop := ∀ id, s.table.binding id ≠ some .uncompressed

/-- In the run from `s` along the events, one of them takes the entry up, and in the state it
meets a compressed context is bound to the entry's remote. -/
def Registered (takes : BindRelay → BindEvent → SocketAddr × Bytes → Prop) (s : BindRelay)
    (events : List BindEvent) (entry : SocketAddr × Bytes) : Prop :=
  ∃ before e after r id, events = before ++ e :: after ∧ Run (Fires step) s before r ∧
    takes r e entry ∧ r.table.binding id = some (.compressed entry.1)

section Registered

variable {takes : BindRelay → BindEvent → SocketAddr × Bytes → Prop}

theorem Registered.append (h : Registered takes s events entry) (e : BindEvent) :
    Registered takes s (events ++ [e]) entry := by
  obtain ⟨before, first, after, r, id, rfl, hbefore, htakes, hbound⟩ := h
  exact ⟨before, first, after ++ [e], r, id, by simp, hbefore, htakes, hbound⟩

theorem registered_now {id : Nat} (hrun : Run (Fires BindRelay.step) s events t)
    (htakes : takes t e entry) (hbound : t.table.binding id = some (.compressed entry.1)) :
    Registered takes s (events ++ [e]) entry :=
  ⟨events, e, [], t, id, rfl, hrun, htakes, hbound⟩

end Registered

theorem Inbound.bound (h : s.Inbound e entry) (hclosed : s.Closed) :
    ∃ id, s.table.binding id = some (.compressed entry.1) := by
  obtain ⟨payload, -, hwire⟩ := h
  by_contra hnone
  have hdropped : encapsulate s.table entry.1 payload = .ok none :=
    (ContextTable.encapsulate_eq_none hclosed payload).mpr fun id hid => hnone ⟨id, hid⟩
  rw [hdropped] at hwire
  cases hwire

theorem Outbound.bound (h : s.Outbound e entry) (hclosed : s.Closed) :
    ∃ id, s.table.binding id = some (.compressed entry.1) := by
  obtain ⟨body, now, id, -, hdecode⟩ := h
  exact ContextTable.decodeDatagram_registered hclosed hdecode

/-- While no uncompressed context is active, only datagrams of registered remotes are
taken up, in either direction. -/
theorem admits_of_closed (h : Run (Guarded (fun s _ => s.Closed) (Fires step)) s events t) :
    Handoff.Admits (Registered Inbound s events) s.toPeer t.toPeer ∧
      Handoff.Admits (Registered Outbound s events) s.toNetwork t.toNetwork := by
  induction h with
  | nil => exact ⟨Or.inl rfl, Or.inl rfl⟩
  | @snoc t u events e hrun hlast ih =>
    obtain ⟨hclosed, hstep⟩ := hlast
    have hmoves := step_moves hstep
    have hpeer := ih.1.mono fun entry hentry => hentry.append e
    have hnetwork := ih.2.mono fun entry hentry => hentry.append e
    refine ⟨?_, ?_⟩
    · rcases hmoves.toPeer with hsame | ⟨kept, hpass⟩ | ⟨entry, htaken, hfill⟩
      · rwa [hsame]
      · rw [hpass]
        exact hpeer.pass kept
      · obtain ⟨id, hbound⟩ := htaken.bound hclosed
        rw [hfill]
        exact hpeer.fill (registered_now hrun.unguarded htaken hbound)
    · rcases hmoves.toNetwork with hsame | ⟨kept, hpass⟩ | ⟨entry, htaken, -, hfill⟩
      · rwa [hsame]
      · rw [hpass]
        exact hnetwork.pass kept
      · obtain ⟨id, hbound⟩ := htaken.bound hclosed
        rw [hfill]
        exact hnetwork.fill (registered_now hrun.unguarded htaken hbound)

/-- The table as a firewall. Over every sequence of calls the active and pending ids are
disjoint and even and an active binding stays until it is closed. Without an active
uncompressed context a remote is served exactly if a compressed context is bound to it,
provided its id fits a varint, and every body decodes to such a remote. The relay's own
table only has such ids. Whatever is handed on while no uncompressed context is active was
looked up by an event of that time, in a state with a compressed context bound to its
remote; but at most one datagram in each direction was taken up before. -/
theorem contextTable_firewall :
    (∀ ops : List ContextOp,
      let t := ContextTable.empty.calls ops
      (∀ id, id ∈ t.contexts → id ∉ t.pending) ∧
      (∀ id, id ∈ t.contexts ∨ id ∈ t.pending → id % 2 = 0) ∧
      (∀ id b later, t.binding id = some b → ContextOp.close id ∉ later →
        (t.calls later).binding id = some b) ∧
      ((∀ id, t.binding id ≠ some .uncompressed) →
        (∀ remote payload,
          (encapsulate t remote payload = .ok none ↔
            ∀ id, t.binding id ≠ some (.compressed remote)) ∧
          ((∀ id, t.binding id = some (.compressed remote) → id < 2 ^ 62) →
            ((∃ wire, encapsulate t remote payload = .ok (some wire)) ↔
              ∃ id, t.binding id = some (.compressed remote)))) ∧
        ∀ body dg, t.decodeDatagram body = .ok dg →
          ∃ id, t.binding id = some (.compressed dg.remote))) ∧
    (∀ policy limiter events s, Run (Fires step) (start policy limiter) events s →
      (∃ ops, s.table = ContextTable.empty.calls ops) ∧
      (∀ id b, s.table.binding id = some b → id < 2 ^ 62) ∧ s.poisoned = false) ∧
    ∀ (s s' : BindRelay) (events : List BindEvent),
      Run (Guarded (fun s _ => ∀ id, s.table.binding id ≠ some .uncompressed) (Fires step))
        s events s' →
      (∃ early late, s'.toPeer.log = s.toPeer.log ++ (early ++ late) ∧
        early.Sublist s.toPeer.slot.toList ∧ ∀ entry ∈ late, Registered Inbound s events entry) ∧
      ∃ early late, s'.toNetwork.log = s.toNetwork.log ++ (early ++ late) ∧
        early.Sublist s.toNetwork.slot.toList ∧
          ∀ entry ∈ late, Registered Outbound s events entry := by
  refine ⟨?_, ?_, ?_⟩
  · intro ops
    have hinv : (ContextTable.empty.calls ops).Inv := ContextTable.inv_empty.calls ops
    refine ⟨hinv.disjoint, hinv.even, ?_, ?_⟩
    · intro id b later hb hlater
      exact ContextTable.calls_binding hinv hb hlater
    · intro hclosed
      refine ⟨?_, ?_⟩
      · intro remote payload
        exact ⟨ContextTable.encapsulate_eq_none hclosed payload,
          fun hfits => ContextTable.encapsulate_eq_some hclosed hfits payload⟩
      · intro body dg hdecode
        exact ContextTable.decodeDatagram_registered hclosed hdecode
  · intro policy limiter events s hrun
    have hsound := sound_of_run hrun
    exact ⟨hsound.calls, fun id b hb => hsound.fits.binding hb, hsound.sane⟩
  · intro s s' events hrun
    obtain ⟨hpeer, hnetwork⟩ := admits_of_closed hrun
    exact ⟨hpeer.log_split, hnetwork.log_split⟩

def testPolicy : DestinationPolicy := .withDenied []

def testLimiter : SessionLimiter := .new ⟨0, 0⟩ 0

/-- 8.8.8.8:53. -/
def testRemote : SocketAddr := .v4 0x08080808#32 53

/-- The peer binds context 4 to the remote and sends one byte on it. -/
def testBound : List BindEvent :=
  [.chunk [0x11, 8, 4, 4, 8, 8, 8, 8, 0, 53], .capsule true, .fromPeer [4, 7] 0, .sendTo true]

theorem contextTable_firewall_testBound :
    ∃ s', Run (Fires step) (start testPolicy testLimiter) testBound s' ∧
      s'.toNetwork.log = [(testRemote, [7])] ∧
      Registered Outbound (start testPolicy testLimiter) testBound (testRemote, [7]) := by
  have hobserved : (exec (restrict (fun s _ => s.table.uncompressedContext = none) step)
      (start testPolicy testLimiter) testBound).map (fun s => s.toNetwork.log) =
        some [(testRemote, [7])] := by decide +kernel
  obtain ⟨s', hexec, hlog⟩ := Option.map_eq_some_iff.mp hobserved
  have hrun := guarded_run_of_exec hexec
  have hclosed : Run (Guarded (fun s _ => ∀ id, s.table.binding id ≠ some .uncompressed)
      (Fires step)) (start testPolicy testLimiter) testBound s' :=
    hrun.mono fun s _ t h => ⟨ContextTable.uncompressedContext_eq_none.mp h.1, h.2⟩
  obtain ⟨-, early, late, hsplit, hearly, hlate⟩ := contextTable_firewall.2.2 _ _ _ hclosed
  obtain rfl : early = [] := List.sublist_nil.mp hearly
  have hlateEq : late = [(testRemote, [7])] := by
    rw [← hlog, hsplit]
    rfl
  refine ⟨s', hclosed.unguarded, hlog, hlate (testRemote, [7]) ?_⟩
  rw [hlateEq]
  exact List.mem_cons_self

/-- The peer opens an uncompressed context, sends a byte to the remote on it and closes
it again while the datagram is on its way to the socket. -/
def testInFlight : List BindEvent :=
  [.chunk [0x11, 2, 2, 0], .capsule true, .fromPeer [2, 4, 8, 8, 8, 8, 0, 53, 7] 0,
    .chunk [0x13, 1, 2], .capsule true]

/-- An id of `2 ^ 62` makes the lookup panic, and a datagram in flight leaves after the
last uncompressed context is closed. -/
theorem firewall_testInFlight :
    encapsulate (ContextTable.empty.calls
        [.register ⟨2 ^ 62, .compressed testRemote⟩, .ack (2 ^ 62)]) testRemote [] =
      .error .panic ∧
    (exec step (start testPolicy testLimiter) testInFlight).map
        (fun s => (s.table.uncompressedContext, s.table.compressedContextFor testRemote,
          s.toNetwork.log)) = some (none, none, []) ∧
    (exec step (start testPolicy testLimiter) (testInFlight ++ [.sendTo true])).map
        (fun s => (s.table.uncompressedContext, s.table.compressedContextFor testRemote,
          s.toNetwork.log)) = some (none, none, [(testRemote, [7])]) :=
  ⟨rfl, by decide +kernel, by decide +kernel⟩

end BindRelay

end Straw
