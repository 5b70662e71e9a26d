import Mathlib.Algebra.GroupWithZero.Nat
import Straw.Forwarding.IcmpErrors
import Straw.Forwarding.Ingress

/-!
# What the counters count

The counters of the data plane against the packets it was given and the packets it sent.
The engine may change between two calls, as sessions come and go; the counters are not
reset and no call is forgotten.
-/

namespace Straw

open Outcome Packet Icmp Proc
set_option autoImplicit false

namespace Counter

/-- What a packet sent to a session adds to a counter. -/
def weight (c : Counter) (em : Emission) : Nat :=
  match c with
  | .packetsToClient => if em.target.isSome then 1 else 0
  | .bytesToClient => if em.target.isSome then (em.packet.getD []).length else 0
  | _ => 0

/-- Two counters that a call may change on its way to a refusal. -/
def incidental : Counter → Bool
  | .packetsMtuDropped | .icmpErrorsSent => true
  | _ => false

theorem ne_of_not_incidental {c d : Counter} (hc : c.incidental = false)
    (hd : d.incidental = true) : c ≠ d := by
  rintro rfl
  rw [hc] at hd
  cases hd

end Counter

/-- The counter has grown by the weight of what was sent. -/
def Counts (c : Counter) (t t' : Traffic) : Prop :=
  ∃ sent, t'.emitted = t.emitted ++ sent ∧
    t'.metrics c = t.metrics c + UInt64.ofNat (sent.map c.weight).sum

namespace Counts

variable {c : Counter} {t t' : Traffic}

theorem of_same (hemitted : t'.emitted = t.emitted) (hmetrics : t'.metrics c = t.metrics c) :
    Counts c t t' := ⟨[], by simpa using hemitted, by simpa using hmetrics⟩

instance : Std.Refl (Counts c) := ⟨fun _ => of_same rfl rfl⟩

instance : IsTrans Traffic (Counts c) where
  trans t t' t'' := by
    rintro ⟨sent, hsent, hcount⟩ ⟨more, hmore, hcount'⟩
    refine ⟨sent ++ more, by rw [hmore, hsent, List.append_assoc], ?_⟩
    rw [hcount', hcount, List.map_append, List.sum_append, UInt64.ofNat_add, UInt64.add_assoc]

end Counts

namespace ForwardingEngine

variable {e : ForwardingEngine} {t t' : Traffic} {c : Counter} {origin : SessionId}

/-- Every datagram sink has a quarter stream id that fits a varint. -/
def Framed (e : ForwardingEngine) : Prop :=
  ∀ s conn qsid, e.sessionSinks s = some (.datagram conn qsid) → qsid.toNat < 2 ^ 62

section NoPanic

theorem encodeQuicDatagram_ne_panic {qsid : UInt64} (h : qsid.toNat < 2 ^ 62) (packet : Bytes) :
    (encodeQuicDatagram qsid (.ipPacket packet) : Outcome ForwardingError Bytes) ≠
      .error .panic := by
  obtain ⟨id, hid⟩ := Codec.writeVarint_ok h
  have hexpect : (expect (Codec.writeVarint qsid.toNat) : Outcome ForwardingError Bytes) = .ok id :=
    expect_eq_ok.mpr hid
  rw [encodeQuicDatagram, hexpect]
  exact fun hpanic => by cases hpanic

theorem buildIcmpError_ne_panic (kind : IcmpErrorKind) (source : IcmpSource) (original : Bytes) :
    buildIcmpError kind source original ≠ .error .panic := by
  rw [← Buffer.buildIcmpError_eq, Buffer.buildIcmpError_version]
  split
  · rw [Buffer.buildV4Error, buildV4ErrorWith_eq, writeV4Error_eq]
    split <;> exact fun hpanic => by cases hpanic
  · split
    · split
      · rw [Buffer.buildV6Error, buildV6ErrorWith_eq, writeV6Error_eq]
        split <;> exact fun hpanic => by cases hpanic
      · exact fun hpanic => by cases hpanic
    · exact fun hpanic => by cases hpanic

theorem decrementTtl_ne_panic {packet : Bytes} {info : PacketInfo}
    (h : parsePacket packet = .ok info) : decrementTtl packet ≠ .error .panic := by
  rw [decrementTtl_of_wellFormed (wellFormed_of_parsePacket h)]
  split <;> exact fun hpanic => by cases hpanic

theorem sendWire_noPanic (id : SessionId) (conn : DatagramConn) (wire : Bytes) :
    NoPanic (sendWire id conn wire) := by
  unfold sendWire
  split
  · exact .bind (.modify _) fun _ _ _ _ => .throw _
  · split
    · exact .modify _
    · exact .throw _

theorem deliverToSession_noPanic (he : e.Framed) (id : SessionId) (packet : Bytes) :
    NoPanic (e.deliverToSession id packet) := by
  refine .bind ?_ fun _ _ _ _ => .bind (.modify _) fun _ _ _ _ => .modify _
  unfold handToSink
  split
  · exact .throw _
  · split
    · exact .modify _
    · exact .throw _
  · rename_i conn qsid hsink
    exact .bind (.ofOutcome (encodeQuicDatagram_ne_panic (he id conn qsid hsink) packet))
      fun wire _ _ _ => sendWire_noPanic id conn wire

theorem reject_noPanic {α : Type} (he : e.Framed) (sender : SessionId) (kind : IcmpErrorKind)
    (original : Bytes) (err : ForwardingError) :
    NoPanic (e.reject sender kind original err : ForwardM α) := by
  refine .bind (.bind (.ofOutcome (buildIcmpError_ne_panic _ _ _)) fun built _ _ _ => ?_)
    fun _ _ _ _ => .throw err
  cases built with
  | none => exact .pure ()
  | some icmpPacket =>
    refine .bind (.attempt (deliverToSession_noPanic he sender icmpPacket)) fun sent _ _ _ => ?_
    cases sent with
    | error _ => exact .pure ()
    | ok _ => exact .modify _

theorem route_noPanic (he : e.Framed) (info : PacketInfo) (packet : Bytes) :
    NoPanic (e.route origin info packet) := by
  unfold route
  split
  · split
    · exact reject_noPanic he _ _ _ _
    · split
      · exact .bind (.modify _) fun _ _ _ _ => reject_noPanic he _ _ _ _
      · exact .bind (deliverToSession_noPanic he _ _) fun _ _ _ _ => .pure _
  · split
    · split
      · exact .bind (.modify _) fun _ _ _ _ => .pure _
      · exact .throw _
    · exact reject_noPanic he _ _ _ _

theorem forwardValidated_noPanic (he : e.Framed) (assigned : List AssignedAddress)
    (packet : Bytes) : NoPanic (e.forwardValidated origin assigned packet) := by
  refine .bind (.ofOutcome (parsePacket_ne_panic packet)) fun info s t hparse => ?_
  have hparsed : parsePacket packet = .ok info := (Prod.mk.inj hparse).1
  refine .bind (.ofOutcome ?_) fun _ _ _ _ => ?_
  · unfold validateSource
    simp only
    split <;> exact fun hpanic => by cases hpanic
  split
  · exact reject_noPanic he _ _ _ _
  refine .bind (.ofOutcome ?_) fun _ _ _ _ => ?_
  · have hdrop : ∀ drop : Bool, (if drop then fail .linkLocalDrop else .ok () :
        Outcome ForwardingError Unit) ≠ .error .panic := by
      intro drop
      cases drop <;> exact fun hpanic => by cases hpanic
    exact hdrop _
  split
  · exact reject_noPanic he _ _ _ _
  split
  · exact reject_noPanic he _ _ _ _
  · rename_i fault _ hfault
    refine .ofOutcome fun hpanic => ?_
    obtain rfl := Except.error.inj hpanic
    exact decrementTtl_ne_panic hparsed hfault
  · exact route_noPanic he _ _

/-- The refill of the sender's token bucket is the only place where a client's packet can
panic. -/
theorem forwardFromClient_ne_panic (he : e.Framed) {t : Traffic} {now : Nat}
    (hfits : ∀ limiter, t.limiters origin = some limiter → limiter.refillFits now = true)
    (assigned : List AssignedAddress) (packet : Bytes) :
    ((e.forwardFromClient origin assigned packet now).exec t).1 ≠ .error .panic := by
  rcases hexec : (e.forwardFromClient origin assigned packet now).exec t with ⟨r, t'⟩
  obtain ⟨admission, u, hadmit, hrest⟩ := forwardFromClient_run hexec
  rcases admission with fault | _ | _
  · rcases tryConsume_cases hadmit with ⟨-, hok, -⟩ |
      ⟨limiter, hlimiter, ⟨_, hcall, -, -⟩ | ⟨_, _, -, hok, -⟩⟩
    · cases hok
    · rw [SessionLimiter.tryConsume, hfits limiter hlimiter, Bool.or_true, if_pos rfl] at hcall
      cases hcall
    · cases hok
  · rw [hrest.1]
    exact fun hpanic => by cases hpanic
  · obtain ⟨v, hv, -⟩ := hrest
    have hjudged : NoPanic (e.forwardValidated origin assigned packet) :=
      forwardValidated_noPanic he assigned packet
    have hne := hjudged u
    rwa [hv] at hne

theorem dispatchFromNetwork_noPanic (he : e.Framed) (packet : Bytes) :
    NoPanic (e.dispatchFromNetwork packet) := by
  refine .bind (.ofOutcome (parsePacket_ne_panic packet)) fun info _ _ hparse => ?_
  have hparsed : parsePacket packet = .ok info := (Prod.mk.inj hparse).1
  split
  · exact .throw _
  · unfold dispatchTo
    split
    · exact .throw _
    · split
      · exact .bind (.modify _) fun _ _ _ _ => .throw _
      · exact .bind (.ofOutcome (decrementTtl_ne_panic hparsed)) fun _ _ _ _ =>
          .bind (deliverToSession_noPanic he _ _) fun _ _ _ _ => .pure _

end NoPanic

section Counts

theorem add_counts {d : Counter} (hne : c ≠ d) (n : UInt64) : Relates (Counts c) (add d n) :=
  .modify fun _ => .of_same rfl (Function.update_of_ne hne _ _)

/-- A delivery is counted once, with the packet that it carries. -/
theorem deliverToSession_counts (hc : c.incidental = false) (id : SessionId) (packet : Bytes) :
    Relates (Counts c) (e.deliverToSession id packet) := by
  intro t
  rcases hexec : (e.deliverToSession id packet).exec t with ⟨r, t'⟩
  have hsink := e.handToSink_relates (add_unmoved (Counter.ne_of_not_incidental hc rfl) 1)
    (fun _ => .modify fun _ => rfl) id packet t
  rcases exec_bind_cases hexec with ⟨_, u, hhand, hrest⟩ | ⟨fault, hhand, rfl⟩
  · obtain ⟨-, rfl⟩ := Prod.mk.inj hrest
    rw [hhand] at hsink
    rcases handToSink_cases hhand with ⟨-, em, hem, hsent⟩ | ⟨⟨fault, hfault⟩, -⟩
    · refine ⟨[em], hsent, ?_⟩
      have hsame : u.metrics c = t.metrics c := hsink
      cases c <;> simp [Counter.weight, Function.update, hem.target, hem.packet, hsame]
    · cases hfault
  · rw [hhand] at hsink
    rcases handToSink_cases hhand with ⟨hok, -⟩ | ⟨-, hquiet⟩
    · cases hok
    · exact .of_same hquiet hsink

theorem handled_counts (hc : c.incidental = false) : Handled e (Counts c) where
  tooBig := add_counts (Counter.ne_of_not_incidental hc rfl) 1
  error := add_counts (Counter.ne_of_not_incidental hc rfl) 1
  deliver := deliverToSession_counts hc
  tun packet := by
    -- a packet for the device has no weight
    refine .modify fun t => ⟨[.tun packet], rfl, ?_⟩
    cases c <;> simp [Counter.weight, Emission.target]

end Counts

section Reports

/-- A forwarded packet is the one thing sent and no error; what is sent about a refused one
are ICMP errors to a session, each of them counted. -/
def Judged (t : Traffic) (r : Outcome ForwardingError Forwarded) (t' : Traffic) : Prop :=
  (∃ f em, r = .ok f ∧ t'.emitted = t.emitted ++ [em] ∧ em.target.isSome = (f != .tun) ∧
    t'.metrics .icmpErrorsSent = t.metrics .icmpErrorsSent) ∨
  ((∃ fault, r = .error fault) ∧ ∃ sent, t'.emitted = t.emitted ++ sent ∧
    (∀ em ∈ sent, em.target.isSome) ∧
    t'.metrics .icmpErrorsSent = t.metrics .icmpErrorsSent + UInt64.ofNat sent.length)

theorem forwardValidated_judged {assigned : List AssignedAddress} {packet : Bytes}
    {r : Outcome ForwardingError Forwarded}
    (h : (e.forwardValidated origin assigned packet).exec t = (r, t')) : Judged t r t' := by
  rcases forwardValidated_cases h with ⟨info, out, f, em, -, -, rfl, hrouted, hsent, hsame⟩ |
    ⟨hfault, ⟨hquiet, hsame⟩ | ⟨em, kind, original, icmp, -, -, hem, hsent, hcounted⟩⟩
  · refine Or.inl ⟨f, em, rfl, hsent, ?_, hsame⟩
    rcases hrouted with ⟨target, -, rfl, hem, -, -⟩ | ⟨-, rfl, hem⟩
    · rw [hem.target]
      rfl
    · rw [hem.target]
      rfl
  · exact Or.inr ⟨hfault, [], by simpa using hquiet, by simp, hsame.trans (UInt64.add_zero _).symm⟩
  · exact Or.inr ⟨hfault, [em], hsent, by simp [hem.target], hcounted⟩

end Reports

end ForwardingEngine

section Calls

variable {c : Counter} {t t' t'' u : Traffic} {sent : List Emission}

theorem Counts.eval (h : Counts c t t') (hsent : t'.emitted = t.emitted ++ sent) :
    t'.metrics c = t.metrics c + UInt64.ofNat (sent.map c.weight).sum := by
  obtain ⟨more, hmore, hcount⟩ := h
  obtain rfl := List.append_cancel_left (hsent.symm.trans hmore)
  exact hcount

theorem Counts.unmoved (h : Counts c t t') (hweight : c.weight = fun _ => 0) :
    t'.metrics c = t.metrics c := by
  obtain ⟨sent, -, hsum⟩ := h
  rw [hweight] at hsum
  simpa using hsum

theorem sum_weight_packetsToClient (sent : List Emission) :
    (sent.map (Counter.weight .packetsToClient)).sum = sent.countP fun em => em.target.isSome := by
  induction sent with
  | nil => rfl
  | cons em sent ih =>
    rw [List.map_cons, List.sum_cons, ih, List.countP_cons, Nat.add_comm]
    rfl

/-- What `clients` packets of `bytes` bytes from clients and `delivered` packets from the
network add to the counters. -/
structure Entry (clients bytes delivered : Nat) (t t' : Traffic) : Prop where
  toClient : Counts .packetsToClient t t'
  bytesToClient : Counts .bytesToClient t t'
  bytesFromClient : t'.metrics .bytesFromClient = t.metrics .bytesFromClient + UInt64.ofNat bytes
  outcomes : t'.metrics .packetsHairpin + t'.metrics .packetsTunOut + t'.metrics .packetsDropped +
      t'.metrics .packetsRateLimited =
    t.metrics .packetsHairpin + t.metrics .packetsTunOut + t.metrics .packetsDropped +
      t.metrics .packetsRateLimited + UInt64.ofNat clients
  tunOut : ∃ sent, t'.emitted = t.emitted ++ sent ∧
    t'.metrics .packetsTunOut =
      t.metrics .packetsTunOut + UInt64.ofNat (sent.countP fun em => em.target.isNone)
  shares : t'.metrics .packetsToClient + t.metrics .packetsHairpin + t.metrics .icmpErrorsSent =
    t.metrics .packetsToClient + t'.metrics .packetsHairpin + t'.metrics .icmpErrorsSent +
      UInt64.ofNat delivered

namespace Entry

variable {m n b d m' n' b' d' : Nat}

theorem of_same (hemitted : t'.emitted = t.emitted) (hmetrics : t'.metrics = t.metrics) :
    Entry 0 0 0 t t' where
  toClient := .of_same hemitted (by rw [hmetrics])
  bytesToClient := .of_same hemitted (by rw [hmetrics])
  bytesFromClient := by simp [hmetrics]
  outcomes := by simp [hmetrics]
  tunOut := ⟨[], by simpa using hemitted, by simp [hmetrics]⟩
  shares := by simp [hmetrics]

theorem trans (h : Entry n b d t t') (h' : Entry n' b' d' t' t'') :
    Entry (n + n') (b + b') (d + d') t t'' where
  toClient := IsTrans.trans _ _ _ h.toClient h'.toClient
  bytesToClient := IsTrans.trans _ _ _ h.bytesToClient h'.bytesToClient
  bytesFromClient := by
    rw [h'.bytesFromClient, h.bytesFromClient, UInt64.ofNat_add, UInt64.add_assoc]
  outcomes := by rw [h'.outcomes, h.outcomes, UInt64.ofNat_add, UInt64.add_assoc]
  tunOut := by
    obtain ⟨sent, hsent, hcount⟩ := h.tunOut
    obtain ⟨more, hmore, hcount'⟩ := h'.tunOut
    refine ⟨sent ++ more, by rw [hmore, hsent, List.append_assoc], ?_⟩
    rw [hcount', hcount, List.countP_append, UInt64.ofNat_add, UInt64.add_assoc]
  shares := by
    have hfirst := h.shares
    have hsecond := h'.shares
    rw [UInt64.ofNat_add]
    grind

end Entry

namespace ForwardingEngine

variable {e : ForwardingEngine} {origin : SessionId} {assigned : List AssignedAddress}
  {packet : Bytes} {now : Nat}

def verdict : Except ForwardingError Forwarded → Counter
  | .ok (.hairpin _) => .packetsHairpin
  | .ok .tun => .packetsTunOut
  | .error _ => .packetsDropped

theorem tally_eq (result : Except ForwardingError Forwarded) :
    tally result = incr (verdict result) := by
  cases result with
  | error err => rfl
  | ok f => cases f <;> rfl

theorem verdict_cases (result : Except ForwardingError Forwarded) :
    verdict result = .packetsHairpin ∨ verdict result = .packetsTunOut ∨
      verdict result = .packetsDropped := by
  cases result with
  | error err => exact Or.inr (Or.inr rfl)
  | ok f =>
    cases f with
    | hairpin s => exact Or.inl rfl
    | tun => exact Or.inr (Or.inl rfl)

/-- What was sent went to the device if that is the verdict; otherwise it is the packet
itself, to a session, or errors about it. -/
theorem Judged.shares {result : Except ForwardingError Forwarded}
    (h : Judged t (ofExcept result) t') :
    ∃ sent, t'.emitted = t.emitted ++ sent ∧
      (sent.countP fun em => em.target.isNone) =
        (if verdict result = .packetsTunOut then 1 else 0) ∧
      t'.metrics .icmpErrorsSent + (if verdict result = .packetsHairpin then 1 else 0) =
        t.metrics .icmpErrorsSent + UInt64.ofNat (sent.countP fun em => em.target.isSome) := by
  rcases h with ⟨f, em, hok, hsent, htarget, hI⟩ | ⟨⟨fault, hfault⟩, sent, hsent, hsome, hI⟩
  · refine ⟨[em], hsent, ?_⟩
    rw [List.countP_singleton, List.countP_singleton, hI, htarget, ← Option.not_isSome, htarget]
    cases result with
    | error err => cases hok
    | ok f' =>
      obtain rfl := Except.ok.inj hok
      cases f' with
      | hairpin s => exact ⟨rfl, rfl⟩
      | tun => exact ⟨rfl, rfl⟩
  · cases result with
    | ok f => cases hfault
    | error err =>
      have hall : sent.countP (fun em => em.target.isSome) = sent.length :=
        List.countP_eq_length.mpr hsome
      have hnone : sent.countP (fun em => em.target.isNone) = 0 := by
        rw [List.countP_eq_zero]
        intro em hem
        simp [Option.isSome_iff_ne_none.mp (hsome em hem)]
      refine ⟨sent, hsent, hnone, ?_⟩
      rw [hall, hI]
      exact UInt64.add_zero _

/-- Once judged and counted, the packet stands in one of the outcomes. -/
theorem tally_entry {result : Except ForwardingError Forwarded} {v : Traffic}
    (hv : (e.forwardValidated origin assigned packet).exec u = (ofExcept result, v))
    (htally : (tally result).exec v = (.ok (), t')) : Entry 1 0 0 u t' := by
  have hcount : ∀ c : Counter, c.incidental = false → Counts c u v := by
    intro c hc
    have hrel : Relates (Counts c) (e.forwardValidated origin assigned packet) :=
      (handled_counts hc).forwardValidated assigned packet
    have hu := hrel u
    rw [hv] at hu
    exact hu
  have hH := (hcount .packetsHairpin rfl).unmoved rfl
  have hU := (hcount .packetsTunOut rfl).unmoved rfl
  have hD := (hcount .packetsDropped rfl).unmoved rfl
  have hR := (hcount .packetsRateLimited rfl).unmoved rfl
  have hF := (hcount .bytesFromClient rfl).unmoved rfl
  obtain ⟨sent, hsent, hnone, hshares⟩ := (forwardValidated_judged hv).shares
  have hC := (hcount .packetsToClient rfl).eval hsent
  have hB := (hcount .bytesToClient rfl).eval hsent
  rw [tally_eq] at htally
  obtain ⟨-, rfl⟩ := Prod.mk.inj htally
  have hother : ∀ c : Counter, c ≠ .packetsHairpin → c ≠ .packetsTunOut → c ≠ .packetsDropped →
      Function.update v.metrics (verdict result) (v.metrics (verdict result) + 1) c =
        v.metrics c := by
    intro c hcH hcU hcD
    refine Function.update_of_ne ?_ _ _
    rcases verdict_cases result with hr | hr | hr <;> rw [hr] <;> assumption
  refine ⟨⟨sent, hsent, ?_⟩, ⟨sent, hsent, ?_⟩, ?_, ?_, ⟨sent, hsent, ?_⟩, ?_⟩
  · exact (hother _ (by decide) (by decide) (by decide)).trans hC
  · exact (hother _ (by decide) (by decide) (by decide)).trans hB
  · exact (hother _ (by decide) (by decide) (by decide)).trans (hF.trans (UInt64.add_zero _).symm)
  · simp only [hother .packetsRateLimited (by decide) (by decide) (by decide)]
    rcases verdict_cases result with hr | hr | hr <;> simp only [hr, Function.update] <;> grind
  · simp only [hnone]
    rcases verdict_cases result with hr | hr | hr <;> simp [hr, hU]
  · simp only [hother .packetsToClient (by decide) (by decide) (by decide),
      hother .icmpErrorsSent (by decide) (by decide) (by decide), hC,
      sum_weight_packetsToClient]
    rcases verdict_cases result with hr | hr | hr <;> rw [hr] at hshares <;>
      simp only [hr, Function.update] <;> grind

/-- The bytes of a packet are counted before anything is decided about it. -/
theorem tryConsume_entry {admission : Outcome ForwardingError Bool}
    (h : (tryConsume origin (UInt64.ofNat packet.length) now).exec
      ((add .bytesFromClient (UInt64.ofNat packet.length)).exec t).2 = (admission, u)) :
    Entry 0 packet.length 0 t u := by
  have hemitted : u.emitted = t.emitted := (tryConsume_emitted h).1
  have hmetrics : u.metrics = Function.update t.metrics .bytesFromClient
      (t.metrics .bytesFromClient + UInt64.ofNat packet.length) := (tryConsume_emitted h).2
  have hsame : ∀ c : Counter, c ≠ .bytesFromClient → u.metrics c = t.metrics c := by
    intro c hc
    rw [hmetrics, Function.update_of_ne hc]
  have hbytes : u.metrics .bytesFromClient =
      t.metrics .bytesFromClient + UInt64.ofNat packet.length := by
    rw [hmetrics, Function.update_self]
  refine ⟨.of_same hemitted (hsame _ (by decide)), .of_same hemitted (hsame _ (by decide)), hbytes,
    ?_, ⟨[], by simpa using hemitted, ?_⟩, ?_⟩
  · simp only [hsame .packetsHairpin (by decide), hsame .packetsTunOut (by decide),
      hsame .packetsDropped (by decide), hsame .packetsRateLimited (by decide)]
    exact (UInt64.add_zero _).symm
  · exact (hsame _ (by decide)).trans (UInt64.add_zero _).symm
  · simp only [hsame .packetsToClient (by decide), hsame .packetsHairpin (by decide),
      hsame .icmpErrorsSent (by decide)]
    exact (UInt64.add_zero _).symm

theorem forwardFromClient_entry {r : Outcome ForwardingError Forwarded}
    (h : (e.forwardFromClient origin assigned packet now).exec t = (r, t'))
    (hr : r ≠ .error .panic) : Entry 1 packet.length 0 t t' := by
  obtain ⟨admission, u, hadmit, hrest⟩ := forwardFromClient_run h
  have hsecond : Entry 1 0 0 u t' := by
    rcases admission with fault | _ | _
    · rcases tryConsume_cases hadmit with ⟨-, hok, -⟩ |
        ⟨limiter, -, ⟨_, -, hpanic, -⟩ | ⟨_, _, -, hok, -⟩⟩
      · cases hok
      · obtain rfl := Except.error.inj hpanic
        exact absurd hrest.1 hr
      · cases hok
    · obtain ⟨-, rfl⟩ := Prod.mk.inj hrest.2
      refine ⟨.of_same rfl rfl, .of_same rfl rfl, (UInt64.add_zero _).symm, ?_,
        ⟨[], by simp, (UInt64.add_zero _).symm⟩, (UInt64.add_zero _).symm⟩
      simp only [Function.update]
      grind
    · obtain ⟨v, hv, ⟨hpanic, -⟩ | ⟨result, rfl, htally⟩⟩ := hrest
      · exact absurd hpanic hr
      · exact tally_entry hv htally
  simpa using (tryConsume_entry hadmit).trans hsecond

/-- A packet from the network is counted when it is delivered. -/
theorem dispatchFromNetwork_entry {r : Outcome ForwardingError SessionId}
    (h : (e.dispatchFromNetwork packet).exec t = (r, t')) :
    Entry 0 0 r.isOk.toNat t t' := by
  have hcount : ∀ c : Counter, c.incidental = false → Counts c t t' := by
    intro c hc
    have hrel := dispatchFromNetwork_relates (add_counts (Counter.ne_of_not_incidental hc rfl) 1)
      (deliverToSession_counts (e := e) hc) packet t
    rw [h] at hrel
    exact hrel
  have hzero : ∀ c : Counter, c.incidental = false → (c.weight = fun _ => 0) →
      t'.metrics c = t.metrics c := fun c hc hw => (hcount c hc).unmoved hw
  have hI : t'.metrics .icmpErrorsSent = t.metrics .icmpErrorsSent := by
    have hrel := dispatchFromNetwork_relates (add_unmoved (by decide) 1)
      e.deliverToSession_unmoved packet t
    rw [h] at hrel
    exact hrel
  obtain ⟨sent, hsent, hnone, hsome⟩ : ∃ sent, t'.emitted = t.emitted ++ sent ∧
      (sent.countP fun em => em.target.isNone) = 0 ∧
      (sent.countP fun em => em.target.isSome) = r.isOk.toNat := by
    rcases dispatchFromNetwork_cases h with ⟨info, target, out, em, -, -, -, rfl, hem, hsent⟩ |
      ⟨⟨fault, rfl⟩, hquiet⟩
    · refine ⟨[em], hsent, ?_, ?_⟩
      · simp [hem.target]
      · simp [hem.target, Except.isOk, Except.toBool]
    · exact ⟨[], by simpa using hquiet, rfl, rfl⟩
  have hC := (hcount .packetsToClient rfl).eval hsent
  rw [sum_weight_packetsToClient, hsome] at hC
  refine ⟨hcount _ rfl, hcount _ rfl, ?_, ?_, ⟨sent, hsent, ?_⟩, ?_⟩
  · exact (hzero _ rfl rfl).trans (UInt64.add_zero _).symm
  · simp only [hzero .packetsHairpin rfl rfl, hzero .packetsTunOut rfl rfl,
      hzero .packetsDropped rfl rfl, hzero .packetsRateLimited rfl rfl]
    exact (UInt64.add_zero _).symm
  · rw [hnone]
    exact (hzero _ rfl rfl).trans (UInt64.add_zero _).symm
  · rw [hC, hI, hzero .packetsHairpin rfl rfl]
    grind

end ForwardingEngine

/-- A call of the data plane on the engine as it is then. Opening and closing sessions
exchanges the token buckets in between. -/
inductive PacketCall where
  | fromClient (e : ForwardingEngine) (origin : SessionId) (assigned : List AssignedAddress)
      (packet : Bytes) (now : Nat)
  | fromNetwork (e : ForwardingEngine) (packet : Bytes)
  | limiters (limiters : Table SessionId SessionLimiter)

namespace PacketCall

def isFromClient : PacketCall → Bool
  | fromClient _ _ _ _ _ => true
  | _ => false

/-- The bytes a client's packet brings. -/
def received : PacketCall → Nat
  | fromClient _ _ _ packet _ => packet.length
  | _ => 0

/-- The traffic after the call, and whether a packet from the network was delivered. -/
def exec : PacketCall → Traffic → Bool × Traffic
  | fromClient e origin assigned packet now, t =>
    (false, ((e.forwardFromClient origin assigned packet now).exec t).2)
  | fromNetwork e packet, t =>
    let r := (e.dispatchFromNetwork packet).exec t
    (r.1.isOk, r.2)
  | limiters table, t => (false, { t with limiters := table })

/-- The calls in turn, with the number of packets from the network that were delivered. -/
def execAll : List PacketCall → Traffic → Nat × Traffic
  | [], t => (0, t)
  | call :: calls, t =>
    let (delivered, u) := call.exec t
    let (n, v) := execAll calls u
    (delivered.toNat + n, v)

/-- A client's packet is handled without a panic, as it is where the quarter stream ids of the
sinks fit a varint and the sums of the limiter fit (`forwardFromClient_ne_panic`). -/
def Returns : PacketCall → Traffic → Prop
  | fromClient e origin assigned packet now, t =>
    ((e.forwardFromClient origin assigned packet now).exec t).1 ≠ .error .panic
  | _, _ => True

def AllReturn : List PacketCall → Traffic → Prop
  | [], _ => True
  | call :: calls, t => call.Returns t ∧ AllReturn calls (call.exec t).2

theorem entry_exec {call : PacketCall} {t : Traffic} (h : call.Returns t) :
    Entry call.isFromClient.toNat call.received (call.exec t).1.toNat t (call.exec t).2 := by
  cases call with
  | fromClient e origin assigned packet now =>
    exact ForwardingEngine.forwardFromClient_entry rfl h
  | fromNetwork e packet => exact ForwardingEngine.dispatchFromNetwork_entry rfl
  | limiters table => exact .of_same rfl rfl

theorem entry_execAll {calls : List PacketCall} {t : Traffic} (h : AllReturn calls t) :
    Entry (calls.countP isFromClient) (calls.map received).sum (execAll calls t).1 t
      (execAll calls t).2 := by
  induction calls generalizing t with
  | nil => exact .of_same rfl rfl
  | cons call calls ih =>
    have hboth := (entry_exec h.1).trans (ih h.2)
    have hbool : (if call.isFromClient then 1 else 0) = call.isFromClient.toNat := by
      cases call.isFromClient <;> rfl
    rw [List.countP_cons, hbool, Nat.add_comm, List.map_cons, List.sum_cons]
    exact hboth

/-- Whatever packets come, in whatever order and however the sessions change in between, as
long as no client's packet panics: every client packet stands in exactly one of the four
outcomes, the device's counter counts what the device was given, the clients' counters count
what the sessions were given, and that is the hairpinned packets, the ICMP errors and the
packets from the network. -/
theorem counters_balance (calls : List PacketCall) (limiters : Table SessionId SessionLimiter)
    (hreturns : AllReturn calls ⟨limiters, fun _ => 0, []⟩) :
    let delivered := (execAll calls ⟨limiters, fun _ => 0, []⟩).1
    let t := (execAll calls ⟨limiters, fun _ => 0, []⟩).2
    t.metrics .packetsHairpin + t.metrics .packetsTunOut + t.metrics .packetsDropped +
        t.metrics .packetsRateLimited = UInt64.ofNat (calls.countP isFromClient) ∧
      t.metrics .bytesFromClient = UInt64.ofNat (calls.map received).sum ∧
      t.metrics .packetsTunOut = UInt64.ofNat (t.emitted.countP fun em => em.target.isNone) ∧
      t.metrics .packetsToClient = UInt64.ofNat (t.emitted.countP fun em => em.target.isSome) ∧
      t.metrics .bytesToClient =
        UInt64.ofNat (t.emitted.map (Counter.weight .bytesToClient)).sum ∧
      t.metrics .packetsToClient =
        t.metrics .packetsHairpin + t.metrics .icmpErrorsSent + UInt64.ofNat delivered := by
  intro delivered t
  have hentry := entry_execAll hreturns
  have hnil : t.emitted = [] ++ t.emitted := rfl
  have hC := hentry.toClient.eval hnil
  have hB := hentry.bytesToClient.eval hnil
  obtain ⟨sent, hsent, hU⟩ := hentry.tunOut
  obtain rfl : t.emitted = sent := hsent
  have hshares := hentry.shares
  rw [sum_weight_packetsToClient] at hC
  refine ⟨?_, ?_, ?_, ?_, ?_, ?_⟩
  · simpa using hentry.outcomes
  · simpa using hentry.bytesFromClient
  · simpa using hU
  · simpa using hC
  · simpa using hB
  · simpa using hshares

/-- The same packet from a client and from the device, and one too short to be a packet. -/
def testCalls : List PacketCall :=
  [.fromClient ForwardingEngine.pairEngine ⟨0⟩ [⟨0, 4, .v4 0x0a640002#32, 32⟩]
      ForwardingEngine.barePacket 0,
    .fromNetwork ForwardingEngine.pairEngine ForwardingEngine.barePacket,
    .fromClient ForwardingEngine.pairEngine ⟨0⟩ [] [0x45] 1]

theorem counters_balance_pair :
    let t := (execAll testCalls ⟨Table.empty, fun _ => 0, []⟩).2
    AllReturn testCalls ⟨Table.empty, fun _ => 0, []⟩ ∧ t.metrics .packetsHairpin = 1 ∧
      t.metrics .packetsDropped = 1 ∧ t.metrics .packetsToClient = 2 ∧
      t.metrics .packetsToClient =
        t.metrics .packetsHairpin + t.metrics .icmpErrorsSent + UInt64.ofNat 1 := by
  intro t
  have hreturns : AllReturn testCalls ⟨Table.empty, fun _ => 0, []⟩ := by
    simp only [testCalls, AllReturn, Returns]
    decide +kernel
  have hdelivered : (execAll testCalls ⟨Table.empty, fun _ => 0, []⟩).1 = 1 := by decide +kernel
  have hbalance := (counters_balance testCalls Table.empty hreturns).2.2.2.2.2
  rw [hdelivered] at hbalance
  exact ⟨hreturns, by decide +kernel, by decide +kernel, by decide +kernel, hbalance⟩

end PacketCall

end Calls

end Straw
