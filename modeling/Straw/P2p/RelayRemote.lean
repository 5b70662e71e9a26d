import Straw.P2p.Calls

/-!
# One relay remote per session

Whatever sources the relay and the direct socket deliver, and however the halves of the
socket and the calls of the lockdown interleave, a session has one relay remote at most
and keeps it.
-/

namespace Straw

open Transition Codec
set_option autoImplicit false

namespace PathMux

variable {s t : PathMux} {remote : SocketAddr} {slot : Slot} {wide : Bool}

section Receive

theorem recvRelay_spec (s : PathMux) (bufs : List Nat) :
    (s.recvRelay bufs).2.2.lockdown = s.lockdown ∧ (s.recvRelay bufs).2.2.calls = s.calls ∧
      (s.recvRelay bufs).2.2.qsid = s.qsid ∧
      ∃ taken, (s.recvRelay bufs).2.2.delivered = s.delivered ++ taken ∧
        (s.recvRelay bufs).2.2.relayRemotes =
          if s.relayRemotes = [] then (taken.head?.map Prod.fst).toList else s.relayRemotes := by
  induction bufs generalizing s with
  | nil =>
    refine ⟨rfl, rfl, rfl, [], by simp [recvRelay], ?_⟩
    split
    · assumption
    · rfl
  | cons buf bufs ih =>
    rw [recvRelay]
    split
    · refine ⟨rfl, rfl, rfl, [], by simp, ?_⟩
      split
      · assumption
      · rfl
    · rename_i src payload rest _
      obtain ⟨hlockdown, hcalls, hqsid, taken, hdelivered, hremotes⟩ := ih { s with
        relayRemotes := learn s.relayRemotes src
        relayRx := rest
        delivered := s.delivered ++ [(src, payload)] }
      refine ⟨hlockdown, hcalls, hqsid, (src, payload) :: taken, ?_, ?_⟩
      · rw [hdelivered, List.append_assoc]
        rfl
      · rw [hremotes]
        by_cases hempty : s.relayRemotes = []
        · simp [learn, hempty]
        · simp [learn, hempty]

theorem pollRecv_spec (s : PathMux) (bufs : List Nat) :
    (s.pollRecv bufs).2.lockdown = s.lockdown ∧ (s.pollRecv bufs).2.calls = s.calls ∧
      (s.pollRecv bufs).2.qsid = s.qsid ∧
      ∃ taken, (s.pollRecv bufs).2.delivered = s.delivered ++ taken ∧
        (s.pollRecv bufs).2.relayRemotes =
          if s.relayRemotes = [] then (taken.head?.map Prod.fst).toList else s.relayRemotes :=
  recvRelay_spec { s with directRx := (recvDirect s.directLocal.ip bufs s.directRx).2.2 }
    (recvDirect s.directLocal.ip bufs s.directRx).2.1

end Receive

/-- The remote is the preset one or the first source the relay has delivered, and the
lockdown works on it alone. -/
structure Inv (preset : Option SocketAddr) (qsid : UInt64) (s : PathMux) : Prop where
  qsid : s.qsid = qsid
  remotes : s.relayRemotes = (preset.or (s.delivered.head?.map Prod.fst)).toList
  unbound : s.relayRemotes = [] → Unbound s
  engaged : ∀ remote, s.relayRemotes = [remote] → ∃ slot wide, Engaged remote slot wide s

section Invariant

variable {preset : Option SocketAddr} {qsid : UInt64}

theorem Inv.eq_of_mem (h : Inv preset qsid s) {remote : SocketAddr}
    (hmem : remote ∈ s.relayRemotes) : s.relayRemotes = [remote] := by
  rw [h.remotes] at hmem ⊢
  rw [Option.mem_toList.mp hmem]
  rfl

theorem inv_muxEndpoint (qsid : UInt64) (localAddr directLocal : SocketAddr)
    (preset : Option SocketAddr) :
    Inv preset qsid (muxEndpoint qsid localAddr directLocal preset) := by
  have hunbound : Unbound (muxEndpoint qsid localAddr directLocal preset) :=
    ⟨rfl, fun _ => rfl, fun _ => rfl⟩
  refine ⟨rfl, ?_, fun _ => hunbound, fun remote _ => ⟨_, _, hunbound.engaged remote⟩⟩
  simp [muxEndpoint]

/-- A step that leaves the table and the calls alone. -/
theorem Inv.quiet (h : Inv preset qsid s) (hqsid : t.qsid = s.qsid)
    (hremotes : t.relayRemotes = s.relayRemotes) (hdelivered : t.delivered = s.delivered)
    (hcontexts : t.lockdown.contexts = s.lockdown.contexts) (hcalls : t.calls = s.calls) :
    Inv preset qsid t := by
  refine ⟨hqsid.trans h.qsid, by rw [hremotes, hdelivered, h.remotes], ?_, ?_⟩
  · intro hempty
    exact (h.unbound (hremotes.symm.trans hempty)).congr hcontexts hcalls
  · intro remote hremote
    obtain ⟨slot, wide, hengaged⟩ := h.engaged remote (hremotes.symm.trans hremote)
    exact ⟨slot, wide, hengaged.congr hcontexts hcalls⟩

theorem Inv.pollRecv (h : Inv preset qsid s) (bufs : List Nat) :
    Inv preset qsid (s.pollRecv bufs).2 := by
  obtain ⟨hlockdown, hcalls, hqsid, taken, hdelivered, hremotes⟩ := pollRecv_spec s bufs
  by_cases hempty : s.relayRemotes = []
  · have hunbound := (h.unbound hempty).congr (congrArg RelayLockdown.contexts hlockdown) hcalls
    have hnone : preset = none ∧ s.delivered = [] := by
      have hremotes := h.remotes
      rw [hempty] at hremotes
      cases preset with
      | some peer => cases hremotes
      | none =>
        refine ⟨rfl, ?_⟩
        cases hdel : s.delivered with
        | nil => rfl
        | cons first rest =>
          rw [hdel] at hremotes
          cases hremotes
    obtain ⟨rfl, hdel⟩ := hnone
    rw [if_pos hempty] at hremotes
    rw [hdel, List.nil_append] at hdelivered
    refine ⟨hqsid.trans h.qsid, ?_, fun _ => hunbound, fun remote _ =>
      ⟨_, _, hunbound.engaged remote⟩⟩
    rw [hremotes, hdelivered, Option.none_or]
  · rw [if_neg hempty] at hremotes
    refine ⟨hqsid.trans h.qsid, ?_, ?_, ?_⟩
    · rw [hremotes, h.remotes, hdelivered]
      cases preset with
      | some peer => rfl
      | none =>
        cases hdel : s.delivered with
        | nil =>
          rw [h.remotes, hdel] at hempty
          exact absurd rfl hempty
        | cons first rest => rfl
    · intro hnow
      exact absurd (hremotes.symm.trans hnow) hempty
    · intro remote hremote
      obtain ⟨slot, wide, hengaged⟩ := h.engaged remote (hremotes.symm.trans hremote)
      exact ⟨slot, wide, hengaged.congr (congrArg RelayLockdown.contexts hlockdown) hcalls⟩

theorem Unbound.setCall (h : Unbound s) {i : Nat} {r : RelayLockdown × Engage}
    (hcontexts : r.1.contexts = s.lockdown.contexts) (hcall : ∃ result, r.2 = .returned result) :
    Unbound (s.setCall i r) := by
  obtain ⟨result, hresult⟩ := hcall
  refine ⟨hcontexts.trans h.contexts, ?_, ?_⟩
  · intro j
    by_cases hj : j = i
    · rw [hj, setCall_self, hresult]
      rfl
    · rw [setCall_of_ne s hj]
      exact h.undecided j
  · intro j
    by_cases hj : j = i
    · rw [hj, setCall_self, hresult]
      rfl
    · rw [setCall_of_ne s hj]
      exact h.narrowing j

/-- A call moves on: it must be one that has found the remote. -/
theorem Inv.setCall (h : Inv preset qsid s) {i : Nat} {r : RelayLockdown × Engage}
    (hbusy : (s.calls i).undecided = true ∨ (s.calls i).narrowing = true)
    (hengaged : ∀ remote slot wide, Engaged remote slot wide s →
      ∃ slot' wide', Engaged remote slot' wide' (s.setCall i r)) :
    Inv preset qsid (s.setCall i r) := by
  refine ⟨h.qsid, h.remotes, ?_, ?_⟩
  · intro hempty
    have hunbound := h.unbound hempty
    rw [hunbound.undecided i, hunbound.narrowing i] at hbusy
    rcases hbusy with hbusy | hbusy
    · cases hbusy
    · cases hbusy
  · intro remote hremote
    obtain ⟨slot, wide, hbound⟩ := h.engaged remote hremote
    exact hengaged remote slot wide hbound

theorem Inv.engage (h : Inv preset qsid s) (i : Nat) :
    Inv preset qsid (s.setCall i (s.offer (s.lockdown.propose s.peer))) := by
  refine ⟨h.qsid, h.remotes, ?_, ?_⟩
  · intro hempty
    have hpeer : s.peer = none := congrArg List.head? (show s.relayRemotes = [] from hempty)
    rw [hpeer]
    apply (h.unbound hempty).setCall
    · rw [offer_contexts]
      rfl
    · rcases offer_call s (s.lockdown.propose none) with hsame | hrefused
      · exact ⟨_, hsame⟩
      · exact hrefused
  · intro remote hremote
    have hpeer : s.peer = some remote :=
      congrArg List.head? (show s.relayRemotes = [remote] from hremote)
    obtain ⟨slot, wide, hengaged⟩ := h.engaged remote hremote
    obtain ⟨slot', hengaged'⟩ := hengaged.engage (i := i)
    rw [hpeer]
    exact ⟨slot', wide, hengaged'⟩

theorem Inv.pumpCapsule (h : Inv preset qsid s) (capsule : Capsule) :
    Inv preset qsid { s with lockdown := { s.lockdown with
      contexts := Client.BindClient.acknowledge s.lockdown.contexts capsule } } := by
  refine ⟨h.qsid, h.remotes, ?_, ?_⟩
  · intro hempty
    have hunbound := h.unbound hempty
    refine ⟨?_, hunbound.undecided, hunbound.narrowing⟩
    obtain ⟨slot', hslot, hcases⟩ := Slot.acknowledge_table .absent true s.localAddr capsule
    rcases hcases with rfl | ⟨hpending, -⟩
    · rw [hunbound.contexts]
      exact hslot
    · cases hpending
  · intro remote hremote
    obtain ⟨slot, wide, hengaged⟩ := h.engaged remote hremote
    obtain ⟨slot', hengaged'⟩ := hengaged.pumpCapsule capsule
    exact ⟨slot', wide, hengaged'⟩

theorem pumpDatagram_relayRx (s : PathMux) (wire : Bytes) :
    ∃ relayRx, s.pumpDatagram wire = { s with relayRx } := by
  unfold PathMux.pumpDatagram
  split
  · exact ⟨s.relayRx, rfl⟩
  · split
    · exact ⟨s.relayRx, rfl⟩
    · split
      · exact ⟨s.relayRx, rfl⟩
      · split
        · exact ⟨_, rfl⟩
        · exact ⟨s.relayRx, rfl⟩

/-- What a step can do: nothing to the table and the calls, a receive, a proposal, a move
of a call under way, or a capsule from the relay. -/
theorem step_cases {act : MuxAct} (h : s.step act = some t) :
    (t.qsid = s.qsid ∧ t.relayRemotes = s.relayRemotes ∧ t.delivered = s.delivered ∧
        t.lockdown.contexts = s.lockdown.contexts ∧ t.calls = s.calls) ∨
      (∃ bufs, t = (s.pollRecv bufs).2) ∨
      (∃ i, t = s.setCall i (s.offer (s.lockdown.propose s.peer))) ∨
      (∃ i r, t = s.setCall i r ∧
        ((s.calls i).undecided = true ∨ (s.calls i).narrowing = true) ∧
        ∀ remote slot wide, Engaged remote slot wide s →
          ∃ slot' wide', Engaged remote slot' wide' (s.setCall i r)) ∨
      ∃ capsule, t = { s with lockdown := { s.lockdown with
        contexts := Client.BindClient.acknowledge s.lockdown.contexts capsule } } := by
  cases act with
  | directReady e =>
    obtain rfl := Option.some.inj h
    exact Or.inl ⟨rfl, rfl, rfl, rfl, rfl⟩
  | pollRecv bufs =>
    obtain rfl := Option.some.inj h
    exact Or.inr (Or.inl ⟨bufs, rfl⟩)
  | pollSend transmit =>
    obtain rfl := Option.some.inj h
    exact Or.inl ⟨rfl, rfl, rfl, rfl, rfl⟩
  | engage i =>
    simp only [step] at h
    split at h
    · exact Or.inr (Or.inr (Or.inl ⟨i, (Option.some.inj h).symm⟩))
    · cases h
  | observe i =>
    simp only [step] at h
    split at h
    · rename_i hcall
      split at h
      · rename_i hactive
        exact Or.inr (Or.inr (Or.inr (Or.inl ⟨i, _, (Option.some.inj h).symm,
          Or.inl (by rw [hcall]; rfl), fun _ slot wide hengaged =>
            ⟨slot, wide, hengaged.observe hcall hactive⟩⟩)))
      · cases h
    · cases h
  | timeout i =>
    simp only [step] at h
    split at h
    · rename_i hcall
      exact Or.inr (Or.inr (Or.inr (Or.inl ⟨i, _, (Option.some.inj h).symm,
        Or.inl (by rw [hcall]; rfl), fun _ slot wide hengaged =>
          ⟨slot, wide, hengaged.timeout hcall⟩⟩)))
    · cases h
  | abandon i =>
    simp only [step] at h
    split at h
    · rename_i hcall
      exact Or.inr (Or.inr (Or.inr (Or.inl ⟨i, _, (Option.some.inj h).symm,
        Or.inl (by rw [hcall]; rfl), fun _ _ wide hengaged =>
          ⟨.absent, wide, hengaged.abandon hcall ⟨_, rfl⟩⟩⟩)))
    · cases h
  | sendClose i =>
    simp only [step] at h
    split at h
    · rename_i hcall
      exact Or.inr (Or.inr (Or.inr (Or.inl ⟨i, _, (Option.some.inj h).symm,
        Or.inr (by rw [hcall]; rfl), fun _ slot wide hengaged =>
          ⟨slot, wide, hengaged.sendClose hcall⟩⟩)))
    · cases h
  | closeLocal i =>
    simp only [step] at h
    split at h
    · rename_i hcall
      exact Or.inr (Or.inr (Or.inr (Or.inl ⟨i, _, (Option.some.inj h).symm,
        Or.inr (by rw [hcall]; rfl), fun _ slot _ hengaged =>
          ⟨slot, false, hengaged.closeLocal hcall ⟨_, rfl⟩⟩⟩)))
    · cases h
  | pumpDatagram wire =>
    simp only [step] at h
    split at h
    · cases h
    · obtain ⟨relayRx, hpump⟩ := pumpDatagram_relayRx s wire
      rw [hpump] at h
      obtain rfl := Option.some.inj h
      exact Or.inl ⟨rfl, rfl, rfl, rfl, rfl⟩
  | pumpCapsule capsule =>
    simp only [step] at h
    split at h
    · cases h
    · exact Or.inr (Or.inr (Or.inr (Or.inr ⟨capsule, (Option.some.inj h).symm⟩)))
  | pumpSend =>
    simp only [step] at h
    split at h
    · obtain rfl := Option.some.inj h
      exact Or.inl ⟨rfl, rfl, rfl, rfl, rfl⟩
    · cases h
  | pumpReturn =>
    obtain rfl := Option.some.inj h
    exact Or.inl ⟨rfl, rfl, rfl, rfl, rfl⟩

theorem inv_step (h : Inv preset qsid s) {act : MuxAct} (hstep : s.step act = some t) :
    Inv preset qsid t := by
  rcases step_cases hstep with ⟨hqsid, hremotes, hdelivered, hcontexts, hcalls⟩ | ⟨bufs, rfl⟩ |
    ⟨i, rfl⟩ | ⟨i, r, rfl, hbusy, hengaged⟩ | ⟨capsule, rfl⟩
  · exact h.quiet hqsid hremotes hdelivered hcontexts hcalls
  · exact h.pollRecv bufs
  · exact h.engage i
  · exact h.setCall hbusy hengaged
  · exact h.pumpCapsule capsule

theorem inv_run {acts : List MuxAct} (h : Inv preset qsid s) (hrun : Run (Fires step) s acts t) :
    Inv preset qsid t :=
  hrun.invariant (Inv preset qsid) (fun _ _ _ hs hstep => inv_step hs hstep) h

theorem step_relayRemotes {act : MuxAct} (h : s.step act = some t) (hbound : s.relayRemotes ≠ []) :
    t.relayRemotes = s.relayRemotes := by
  rcases step_cases h with ⟨-, hremotes, -⟩ | ⟨bufs, rfl⟩ | ⟨i, rfl⟩ | ⟨i, r, rfl, -⟩ |
    ⟨capsule, rfl⟩
  · exact hremotes
  · obtain ⟨-, -, -, taken, -, hremotes⟩ := pollRecv_spec s bufs
    rwa [if_neg hbound] at hremotes
  · rfl
  · rfl
  · rfl

theorem run_relayRemotes {acts : List MuxAct} (h : Run (Fires step) s acts t)
    (hbound : s.relayRemotes ≠ []) : t.relayRemotes = s.relayRemotes := by
  refine h.invariant (fun u => u.relayRemotes = s.relayRemotes) ?_ rfl
  intro u act v hu hstep
  rw [step_relayRemotes hstep (by rwa [hu]), hu]

end Invariant

section Session

variable {streamId : UInt64} {localAddr directLocal : SocketAddr} {preset : Option SocketAddr}
  {acts : List MuxAct}

/-- A compressed context, active or proposed. -/
def Binds (contexts : ContextTable) (remote : SocketAddr) : Prop :=
  ∃ id, contexts.contexts.lookup id = some (.compressed remote) ∨
    contexts.pending.lookup id = some (.compressed remote)

theorem binds_table {slot : Slot} {wide : Bool} {remote bound : SocketAddr}
    (h : Binds (slot.table wide remote) bound) : bound = remote ∧ slot ≠ .absent := by
  obtain ⟨id, hactive | hpending⟩ := h
  · have hmem := AList.mem_lookup_iff.mp hactive
    rw [Slot.entries_table] at hmem
    rcases List.mem_append.mp hmem with hcompressed | huncompressed
    · split at hcompressed
      · rename_i hslot
        have hentry := List.mem_singleton.mp hcompressed
        simp only [Sigma.mk.injEq, heq_eq_eq, Binding.compressed.injEq] at hentry
        exact ⟨hentry.2, by rw [hslot]; decide⟩
      · cases hcompressed
    · split at huncompressed
      · have hentry := List.mem_singleton.mp huncompressed
        simp at hentry
      · cases huncompressed
  · rw [Slot.pending_lookup] at hpending
    split at hpending
    · rename_i hslot
      refine ⟨?_, by rw [hslot.1]; decide⟩
      injection hpending with hbinding
      injection hbinding with hremote
      exact hremote.symm
    · cases hpending

/-- The relay remote is the preset one, or else the first source that the relay has
delivered. It never changes, it is the one destination that is tunnelled, and every
compressed context is bound to it. -/
theorem one_relay_remote
    (h : Run (Fires step) (muxEndpoint (quarterStreamId streamId) localAddr directLocal preset)
      acts s) :
    s.relayRemotes = (preset.or (s.delivered.head?.map Prod.fst)).toList ∧
      (∀ more t, Run (Fires step) s more t → s.relayRemotes ≠ [] →
        t.relayRemotes = s.relayRemotes) ∧
      (∀ transmit : Transmit, if transmit.destination ∈ s.relayRemotes then
          ∃ wire, s.pollSend transmit = .ok (.tunnel wire)
        else s.pollSend transmit = .ok (.direct transmit)) ∧
      ∀ remote, Binds s.lockdown.contexts remote → s.relayRemotes = [remote] := by
  have hinv := inv_run (inv_muxEndpoint _ localAddr directLocal preset) h
  refine ⟨hinv.remotes, fun _ _ hmore hbound => run_relayRemotes hmore hbound, ?_, ?_⟩
  · intro transmit
    split
    · rename_i hmem
      obtain ⟨slot, wide, hengaged⟩ := hinv.engaged _ (hinv.eq_of_mem hmem)
      obtain ⟨wire, hwire⟩ := frameBind_table transmit.destination (quarterStreamId_lt streamId)
        hengaged.closed transmit.contents
      refine ⟨wire, ?_⟩
      rw [pollSend, if_pos hmem, hinv.qsid, hengaged.contexts, hwire]
      rfl
    · rename_i hmem
      exact if_neg hmem
  · intro remote hbinds
    cases hremotes : s.relayRemotes with
    | nil =>
      have hnone : Binds (Slot.absent.table true remote) remote := by
        rw [(hinv.unbound hremotes).contexts] at hbinds
        exact hbinds
      exact absurd rfl (binds_table hnone).2
    | cons bound rest =>
      have hbound := hinv.eq_of_mem (by rw [hremotes]; exact List.mem_cons_self)
      obtain ⟨slot, wide, hengaged⟩ := hinv.engaged bound hbound
      rw [hengaged.contexts] at hbinds
      rw [(binds_table hbinds).1, ← hremotes, hbound]

def firstSource : SocketAddr := .v4 0xC6336407#32 9000

def spoofedSource : SocketAddr := .v4 0xCB007109#32 9001

/-- A datagram from the relay on the uncompressed context. -/
def tunnelled (src : SocketAddr) : MuxAct := .pumpDatagram ([1, 2] ++ putAddr src ++ [0xAA])

/-- An acceptor that hears two sources through the relay and one directly, and engages. -/
def learningActs : List MuxAct :=
  [.directReady (.datagram (.v4 0x0A000001#32 7) [0xBB]), tunnelled firstSource,
    tunnelled spoofedSource, .pollRecv [1500, 1500, 1500], .engage 0, .engage 1, .pumpSend,
    .pumpCapsule (.unknown capsuleCompressionAck [4]), .observe 0, .sendClose 0, .closeLocal 0]

def learningRun : Option PathMux :=
  exec step (muxEndpoint (quarterStreamId 4) firstSource firstSource none) learningActs

theorem one_relay_remote_learned :
    ∃ s, learningRun = some s ∧ s.relayRemotes = [firstSource] ∧
      s.lockdown.contexts.uncompressedContext = none ∧
      ∀ transmit : Transmit, if transmit.destination ∈ s.relayRemotes then
        ∃ wire, s.pollSend transmit = .ok (.tunnel wire)
      else s.pollSend transmit = .ok (.direct transmit) := by
  have hend : learningRun.map (fun s => (s.relayRemotes,
      s.lockdown.contexts.uncompressedContext)) = some ([firstSource], none) := by
    decide +kernel
  obtain ⟨s, hs, hstate⟩ := Option.map_eq_some_iff.mp hend
  obtain ⟨hremotes, hclosed⟩ := Prod.mk.inj hstate
  exact ⟨s, hs, hremotes, hclosed, (one_relay_remote (run_of_exec hs)).2.2.1⟩

end Session

end PathMux

end Straw
