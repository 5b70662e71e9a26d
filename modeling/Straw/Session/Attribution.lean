import Straw.Lib.Run
import Straw.Session.Handler

/-!
# Which request a datagram is processed for

Request handlers and the datagram loop of a connection compute session ids on their own,
from the sequence number of the connection and a stream id. Every entry of the two tables
that the loop looks into is marked here with the request whose handler wrote it.
-/

namespace Straw

open Transition Codec
set_option autoImplicit false

/-- The id keeps 24 bits of the connection counter and 40 of the stream id. -/
theorem SessionId.compose_toNat (connSeq streamId : UInt64) :
    (SessionId.compose connSeq streamId).raw.toNat =
      2 ^ 40 * (connSeq.toNat % 2 ^ 24) + streamId.toNat % 2 ^ 40 := by
  have hhigh : (connSeq <<< 40).toNat = 2 ^ 40 * (connSeq.toNat % 2 ^ 24) := by
    rw [UInt64.toNat_shiftLeft, Nat.shiftLeft_eq]
    change connSeq.toNat * 2 ^ 40 % 2 ^ 64 = _
    omega
  have hlow : (streamId &&& (((1 : UInt64) <<< 40) - 1)).toNat = streamId.toNat % 2 ^ 40 := by
    rw [UInt64.toNat_and]
    exact Nat.and_two_pow_sub_one_eq_mod streamId.toNat 40
  rw [SessionId.compose, UInt64.toNat_or, hhigh, hlow]
  exact (Nat.two_pow_add_eq_or_of_lt (Nat.mod_lt _ (by decide)) _).symm

theorem SessionId.compose_eq_iff {connSeq connSeq' streamId streamId' : UInt64} :
    SessionId.compose connSeq streamId = SessionId.compose connSeq' streamId' ↔
      connSeq.toNat % 2 ^ 24 = connSeq'.toNat % 2 ^ 24 ∧
        streamId.toNat % 2 ^ 40 = streamId'.toNat % 2 ^ 40 := by
  have hraw : SessionId.compose connSeq streamId = SessionId.compose connSeq' streamId' ↔
      (SessionId.compose connSeq streamId).raw.toNat =
        (SessionId.compose connSeq' streamId').raw.toNat := by
    rw [UInt64.toNat_inj]
    simp only [SessionId.compose, SessionId.mk.injEq]
  rw [hraw, SessionId.compose_toNat, SessionId.compose_toNat]
  omega

example : SessionId.compose 0 (UInt64.ofNat (2 ^ 38 * 4)) = SessionId.compose 0 0 := by
  decide +kernel

/-- The counter of `run_server` at its `n`-th connection; it wraps around. -/
def connSeq (n : Nat) : UInt64 := UInt64.ofNat n

/-- A client-initiated bidirectional stream. -/
structure RequestStream where
  id : UInt64
  varint : id.toNat < 2 ^ 62
  clientBidi : id.toNat % 4 = 0
deriving DecidableEq

structure Origin where
  connection : Nat
  stream : RequestStream
deriving DecidableEq

def Origin.sessionId (o : Origin) : SessionId := .compose (connSeq o.connection) o.stream.id

structure Snapshot where
  origin : Origin
  assigned : List AssignedAddress
deriving DecidableEq

structure Registry where
  accepted : Nat
  snapshots : Table SessionId Snapshot
  sinks : Table SessionId Origin

inductive RegistryAct where
  | accept
  /-- `insert` and `set_assigned` write the snapshot of a tunnel. -/
  | setAssigned (o : Origin) (assigned : List AssignedAddress)
  | remove (o : Origin)
  | register (o : Origin)
  | unregister (o : Origin)

namespace Registry

def initial : Registry := ⟨0, Table.empty, Table.empty⟩

def step (r : Registry) : RegistryAct → Option Registry
  | .accept => some { r with accepted := r.accepted + 1 }
  | .setAssigned o assigned =>
    if o.connection < r.accepted then
      some { r with snapshots := r.snapshots.insert o.sessionId ⟨o, assigned⟩ }
    else none
  | .remove o => some { r with snapshots := r.snapshots.remove o.sessionId }
  | .register o =>
    if o.connection < r.accepted then
      some { r with sinks := r.sinks.insert o.sessionId o }
    else none
  | .unregister o => some { r with sinks := r.sinks.remove o.sessionId }

/-- What a datagram is handed to, and whose it is. -/
inductive Delivery where
  | sink (origin : Origin) (body : Bytes)
  | forward (origin : Origin) (assigned : List AssignedAddress) (packet : Bytes)
deriving DecidableEq

def Delivery.origin : Delivery → Origin
  | .sink origin _ | .forward origin _ _ => origin

/-- One round of `run_datagram_demux`. -/
def demux (r : Registry) (connection : Nat) (wire : Bytes) : Option Delivery :=
  match readVarint wire with
  | .error _ => none
  | .ok (qsid, body) =>
    match r.sinks (.compose (connSeq connection) (UInt64.ofNat (qsid * 4))) with
    | some o => some (.sink o body)
    | none =>
      match Received.toForward ⟨connSeq connection, wire, false, 0⟩ with
      | none => none
      | some (s, packet) => (r.snapshots s).map fun e => .forward e.origin e.assigned packet

/-- Entries stand under the id of the request that wrote them. -/
structure Sound (r : Registry) : Prop where
  snapshot : ∀ s e, r.snapshots s = some e →
    s = e.origin.sessionId ∧ e.origin.connection < r.accepted
  sink : ∀ s o, r.sinks s = some o → s = o.sessionId ∧ o.connection < r.accepted

section Steps

variable {r r' : Registry}

theorem Sound.insertSnapshot {o : Origin} {assigned : List AssignedAddress} (h : r.Sound)
    (ho : o.connection < r.accepted) :
    Sound { r with snapshots := r.snapshots.insert o.sessionId ⟨o, assigned⟩ } := by
  refine ⟨?_, h.sink⟩
  intro s e he
  simp only [Table.insert_apply] at he
  split at he
  · cases he
    exact ⟨by assumption, ho⟩
  · exact h.snapshot s e he

theorem Sound.insertSink {o : Origin} (h : r.Sound) (ho : o.connection < r.accepted) :
    Sound { r with sinks := r.sinks.insert o.sessionId o } := by
  refine ⟨h.snapshot, ?_⟩
  intro s o' ho'
  simp only [Table.insert_apply] at ho'
  split at ho'
  · cases ho'
    exact ⟨by assumption, ho⟩
  · exact h.sink s o' ho'

theorem Sound.step {act : RegistryAct} (h : r.Sound) (hstep : r.step act = some r') :
    r'.Sound := by
  cases act with
  | accept =>
    cases hstep
    refine ⟨fun s e he => ?_, fun s o ho => ?_⟩
    · obtain ⟨hs, hc⟩ := h.snapshot s e he
      exact ⟨hs, Nat.lt_succ_of_lt hc⟩
    · obtain ⟨hs, hc⟩ := h.sink s o ho
      exact ⟨hs, Nat.lt_succ_of_lt hc⟩
  | setAssigned o assigned =>
    obtain ⟨ho, hr'⟩ := Option.ite_none_right_eq_some.mp hstep
    cases hr'
    exact h.insertSnapshot ho
  | register o =>
    obtain ⟨ho, hr'⟩ := Option.ite_none_right_eq_some.mp hstep
    cases hr'
    exact h.insertSink ho
  | remove o =>
    cases hstep
    refine ⟨fun s e he => ?_, h.sink⟩
    simp only [Table.remove_apply] at he
    exact h.snapshot s e (Option.ite_none_left_eq_some.mp he).2
  | unregister o =>
    cases hstep
    refine ⟨h.snapshot, fun s o' ho' => ?_⟩
    simp only [Table.remove_apply] at ho'
    exact h.sink s o' (Option.ite_none_left_eq_some.mp ho').2

theorem sound_run {acts : List RegistryAct} (h : Run (Fires step) initial acts r) : r.Sound := by
  refine h.invariant Sound (fun _ _ _ hr hstep => hr.step hstep) ⟨?_, ?_⟩
  · intro s e he
    cases he
  · intro s o ho
    cases ho

end Steps

/-- The loop reads the quarter stream id twice and gets the same session id. -/
theorem toForward_session {seq : UInt64} {wire body packet : Bytes} {qsid now : Nat}
    {s : SessionId} (hq : readVarint wire = .ok (qsid, body))
    (h : Received.toForward ⟨seq, wire, false, now⟩ = some (s, packet)) :
    s = .compose seq (UInt64.ofNat (qsid * 4)) := by
  simp only [Received.toForward, Bool.false_eq_true, if_false] at h
  split at h
  · cases h
  · rename_i qsid' datagram hdecode
    obtain ⟨⟨q, rest⟩, hread, hrest⟩ := Outcome.bind_eq_ok.mp hdecode
    obtain ⟨dg, _, hpair⟩ := Outcome.bind_eq_ok.mp hrest
    cases hpair
    cases hq.symm.trans hread
    obtain ⟨_, hs⟩ := Option.ite_none_left_eq_some.mp h
    exact (Prod.mk.inj (Option.some.inj hs)).1.symm

theorem demux_sessionId {r : Registry} (hr : r.Sound) {c qsid : Nat} {wire body : Bytes}
    {d : Delivery} (hq : readVarint wire = .ok (qsid, body)) (hd : r.demux c wire = some d) :
    d.origin.sessionId = .compose (connSeq c) (UInt64.ofNat (qsid * 4)) ∧
      d.origin.connection < r.accepted := by
  simp only [demux, hq] at hd
  split at hd
  · rename_i o ho
    cases hd
    obtain ⟨hs, hc⟩ := hr.sink _ _ ho
    exact ⟨hs.symm, hc⟩
  · split at hd
    · cases hd
    · rename_i s packet hforward
      obtain ⟨e, he, rfl⟩ := Option.map_eq_some_iff.mp hd
      obtain ⟨hs, hc⟩ := hr.snapshot s e he
      exact ⟨hs.symm.trans (toForward_session hq hforward), hc⟩

/-- What is left of the connection and of the stream in a session id. -/
theorem demux_congruent {r : Registry} (hr : r.Sound) {c qsid : Nat} {wire body : Bytes}
    {d : Delivery} (hq : readVarint wire = .ok (qsid, body)) (hd : r.demux c wire = some d) :
    d.origin.connection % 2 ^ 24 = c % 2 ^ 24 ∧
      d.origin.stream.id.toNat % 2 ^ 40 = 4 * qsid % 2 ^ 40 := by
  obtain ⟨hid, _⟩ := demux_sessionId hr hq hd
  obtain ⟨hconn, hstream⟩ := SessionId.compose_eq_iff.mp hid
  simp only [connSeq, UInt64.toNat_ofNat'] at hconn hstream
  omega

/-- Session ids tell requests apart, and datagrams reach the request they name, while the
counter fits 24 bits and the stream ids 40. -/
theorem attributed_to_own_request {acts : List RegistryAct} {r : Registry}
    (hrun : Run (Fires step) initial acts r) (hconns : r.accepted ≤ 2 ^ 24) :
    (∀ o o' : Origin, o.connection < r.accepted → o'.connection < r.accepted →
      o.stream.id.toNat < 2 ^ 40 → o'.stream.id.toNat < 2 ^ 40 →
      o.sessionId = o'.sessionId → o = o') ∧
    ∀ (c qsid : Nat) (wire body : Bytes) (d : Delivery), c < r.accepted →
      readVarint wire = .ok (qsid, body) → qsid < 2 ^ 38 → r.demux c wire = some d →
      d.origin.stream.id.toNat < 2 ^ 40 →
      d.origin.connection = c ∧ d.origin.stream.id.toNat = 4 * qsid := by
  constructor
  · rintro ⟨c, ⟨id, hvar, hbidi⟩⟩ ⟨c', ⟨id', hvar', hbidi'⟩⟩ hc hc' hid hid' heq
    obtain ⟨hconn, hstream⟩ := SessionId.compose_eq_iff.mp heq
    simp only [connSeq, UInt64.toNat_ofNat'] at hc hc' hid hid' hconn hstream
    obtain rfl : c = c' := by omega
    obtain rfl : id = id' := UInt64.toNat_inj.mp (by omega)
    rfl
  · intro c qsid wire body d hc hq hsmall hd hstream
    have hsound := sound_run hrun
    obtain ⟨_, hlive⟩ := demux_sessionId hsound hq hd
    obtain ⟨hconn, hid⟩ := demux_congruent hsound hq hd
    omega

section Example

def firstStream : RequestStream := ⟨0, by decide, by decide⟩

theorem accept_run (n : Nat) :
    Run (Fires step) initial (List.replicate n .accept) { initial with accepted := n } := by
  induction n with
  | zero => exact .nil _
  | succ n ih =>
    rw [List.replicate_succ']
    exact .snoc ih rfl

/-- A tunnel on the second of two connections. -/
theorem attributed_to_own_request_second :
    ∃ r d, Run (Fires step) initial
        [.accept, .accept, .setAssigned ⟨0, firstStream⟩ [], .setAssigned ⟨1, firstStream⟩ []] r ∧
      r.demux 1 [0, 0, 69] = some d ∧ d.origin.connection = 1 ∧ d.origin.stream.id.toNat = 0 := by
  have hexec : (exec step initial [.accept, .accept, .setAssigned ⟨0, firstStream⟩ [],
      .setAssigned ⟨1, firstStream⟩ []]).map (fun r => (r.accepted, r.demux 1 [0, 0, 69])) =
      some (2, some (.forward ⟨1, firstStream⟩ [] [69])) := by decide +kernel
  obtain ⟨r, hr, hobs⟩ := Option.map_eq_some_iff.mp hexec
  obtain ⟨haccepted, hd⟩ := Prod.mk.inj hobs
  have hrun := run_of_exec hr
  obtain ⟨_, hown⟩ := attributed_to_own_request hrun (by rw [haccepted]; decide)
  obtain ⟨hc, hs⟩ := hown 1 0 [0, 0, 69] [0, 69] _ (by rw [haccepted]; decide) rfl (by decide) hd
    (by decide)
  exact ⟨r, _, hrun, hd, hc, hs⟩

theorem setAssigned_run (n : Nat) (assigned : List AssignedAddress) :
    Run (Fires step) initial
      (List.replicate (n + 1) .accept ++ [.setAssigned ⟨0, firstStream⟩ assigned])
      ⟨n + 1, Table.empty.insert (Origin.sessionId ⟨0, firstStream⟩)
        ⟨⟨0, firstStream⟩, assigned⟩, Table.empty⟩ := by
  refine .snoc (accept_run (n + 1)) ?_
  have hlive : (0 : Nat) < n + 1 := Nat.succ_pos n
  simp only [Fires, step, hlive, if_true, initial]

theorem demux_wrapped (assigned : List AssignedAddress) (packet : Bytes) :
    demux ⟨2 ^ 24 + 1, Table.empty.insert (Origin.sessionId ⟨0, firstStream⟩)
        ⟨⟨0, firstStream⟩, assigned⟩, Table.empty⟩ (2 ^ 24) (0 :: 0 :: packet) =
      some (.forward ⟨0, firstStream⟩ assigned packet) := by
  have hid : SessionId.compose (connSeq (2 ^ 24)) (UInt64.ofNat (0 * 4)) =
      Origin.sessionId ⟨0, firstStream⟩ := by decide +kernel
  have hread (rest : Bytes) : readVarint (0 :: rest) = .ok (0, rest) := rfl
  have hforward : Received.toForward ⟨connSeq (2 ^ 24), 0 :: 0 :: packet, false, 0⟩ =
      some (Origin.sessionId ⟨0, firstStream⟩, packet) := by
    rw [← hid]
    rfl
  simp only [demux, hread, hforward, Table.empty_apply, Table.insert_self, Option.map_some]

/-- The connection after 2 ^ 24 others sends a packet that is forwarded for the first
connection's tunnel, with the address assigned to that one. -/
theorem attributed_to_other_connection :
    ∃ r, Run (Fires step) initial
        (List.replicate (2 ^ 24 + 1) .accept ++
          [.setAssigned ⟨0, firstStream⟩ [⟨0, 4, .v4 0x0a640002#32, 32⟩]]) r ∧
      2 ^ 24 < r.accepted ∧
      r.demux (2 ^ 24) [0, 0, 69] =
        some (.forward ⟨0, firstStream⟩ [⟨0, 4, .v4 0x0a640002#32, 32⟩] [69]) :=
  ⟨_, setAssigned_run (2 ^ 24) _, Nat.lt_succ_self _, demux_wrapped _ _⟩

end Example

end Registry

end Straw
