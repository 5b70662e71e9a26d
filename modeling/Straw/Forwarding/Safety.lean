import Straw.Forwarding.Engine

/-!
# Forwarding safety

What handling one client packet can send: the packet itself, one hop older, to the one
place the route table gives, once every test has passed; otherwise at most one ICMP
error to the session the packet came from.
-/

namespace Straw

open Outcome Packet Icmp Proc
set_option autoImplicit false

structure Carries (em : Emission) (target : Option SessionId) (packet : Bytes) : Prop where
  target : em.target = target
  packet : em.packet = some packet

namespace ForwardingEngine

variable {e : ForwardingEngine} {t t' : Traffic} {origin : SessionId}

section Relates

variable {R : Traffic → Traffic → Prop} [Std.Refl R] [IsTrans Traffic R] (e)

theorem handToSink_relates (htooBig : Relates R (incr .packetsMtuDropped))
    (hemit : ∀ em, Relates R (emit em)) (id : SessionId) (packet : Bytes) :
    Relates R (e.handToSink id packet) := by
  unfold handToSink
  split
  · exact .ofOutcome _
  · split
    · exact hemit _
    · exact .ofOutcome _
  · refine .bind (.ofOutcome _) fun wire => ?_
    unfold sendWire
    split
    · exact .bind htooBig fun _ => .ofOutcome _
    · split
      · exact hemit _
      · exact .ofOutcome _

theorem deliverToSession_relates
    (hadd : ∀ c n, c ≠ .icmpErrorsSent → Relates R (add c n)) (hemit : ∀ em, Relates R (emit em))
    (id : SessionId) (packet : Bytes) : Relates R (e.deliverToSession id packet) :=
  .bind (e.handToSink_relates (hadd _ _ (by decide)) hemit id packet) fun _ =>
    .bind (hadd _ _ (by decide)) fun _ => hadd _ _ (by decide)

variable (R) in
/-- The relation allows all that is done on the way of a packet that has been admitted. -/
structure Handled : Prop where
  tooBig : Relates R (incr .packetsMtuDropped)
  error : Relates R (incr .icmpErrorsSent)
  deliver : ∀ id packet, Relates R (e.deliverToSession id packet)
  tun : ∀ packet, Relates R (emit (.tun packet))

namespace Handled

variable {e}

theorem reject {α : Type} (h : Handled e R) (sender : SessionId) (kind : IcmpErrorKind)
    (original : Bytes) (err : ForwardingError) :
    Relates R (e.reject sender kind original err : ForwardM α) := by
  refine .bind (.bind (.ofOutcome _) fun built => ?_) fun _ => .ofOutcome _
  cases built with
  | none => exact .ofOutcome _
  | some icmpPacket =>
    refine .bind (.attempt (h.deliver sender icmpPacket)) fun sent => ?_
    cases sent with
    | error _ => exact .ofOutcome _
    | ok _ => exact h.error

theorem route (h : Handled e R) (info : PacketInfo) (packet : Bytes) :
    Relates R (e.route origin info packet) := by
  unfold ForwardingEngine.route
  split
  · split
    · exact h.reject _ _ _ _
    · split
      · exact .bind h.tooBig fun _ => h.reject _ _ _ _
      · exact .bind (h.deliver _ _) fun _ => .ofOutcome _
  · split
    · split
      · exact .bind (h.tun packet) fun _ => .ofOutcome _
      · exact .ofOutcome _
    · exact h.reject _ _ _ _

theorem forwardValidated (h : Handled e R) (assigned : List AssignedAddress) (packet : Bytes) :
    Relates R (e.forwardValidated origin assigned packet) := by
  refine .bind (.ofOutcome _) fun info => .bind (.ofOutcome _) fun _ => ?_
  split
  · exact h.reject _ _ _ _
  refine .bind (.ofOutcome _) fun _ => ?_
  split
  · exact h.reject _ _ _ _
  split
  · exact h.reject _ _ _ _
  · exact .ofOutcome _
  · exact h.route _ _

end Handled

/-- The counter has not changed. -/
def Unmoved (c : Counter) (t t' : Traffic) : Prop := t'.metrics c = t.metrics c

instance {c : Counter} : Std.Refl (Unmoved c) := ⟨fun _ => rfl⟩

instance {c : Counter} : IsTrans Traffic (Unmoved c) := ⟨fun _ _ _ h h' => h'.trans h⟩

theorem add_unmoved {c d : Counter} (hne : c ≠ d) (n : UInt64) : Relates (Unmoved c) (add d n) :=
  .modify fun _ => Function.update_of_ne hne _ _

theorem deliverToSession_unmoved (id : SessionId) (packet : Bytes) :
    Relates (Unmoved .icmpErrorsSent) (e.deliverToSession id packet) :=
  e.deliverToSession_relates (fun _ n hne => add_unmoved hne.symm n)
    (fun _ => .modify fun _ => rfl) id packet

end Relates

/-- Nothing was sent, or one ICMP error about one of `originals` went to the sender and was
counted. -/
def Reported (e : ForwardingEngine) (sender : SessionId) (originals : Bytes → Prop)
    (t t' : Traffic) : Prop :=
  (t'.emitted = t.emitted ∧ Unmoved .icmpErrorsSent t t') ∨
    ∃ em kind original icmp, originals original ∧
      buildIcmpError kind e.icmpSource original = .ok (some icmp) ∧
      Carries em (some sender) icmp ∧ t'.emitted = t.emitted ++ [em] ∧
      t'.metrics .icmpErrorsSent = t.metrics .icmpErrorsSent + 1

theorem sendWire_cases {id : SessionId} {conn : DatagramConn} {wire : Bytes}
    {r : Outcome ForwardingError Unit} (h : (sendWire id conn wire).exec t = (r, t')) :
    (r = .ok () ∧ t'.emitted = t.emitted ++ [.datagram id wire]) ∨
      ((∃ fault, r = .error fault) ∧ t'.emitted = t.emitted) := by
  unfold sendWire at h
  split at h
  · obtain ⟨rfl, rfl⟩ := Prod.mk.inj h
    exact Or.inr ⟨⟨_, rfl⟩, rfl⟩
  · split at h
    · obtain ⟨rfl, rfl⟩ := Prod.mk.inj h
      exact Or.inl ⟨rfl, rfl⟩
    · obtain ⟨rfl, rfl⟩ := Prod.mk.inj h
      exact Or.inr ⟨⟨_, rfl⟩, rfl⟩

theorem handToSink_cases {id : SessionId} {packet : Bytes} {r : Outcome ForwardingError Unit}
    (h : (e.handToSink id packet).exec t = (r, t')) :
    (r = .ok () ∧ ∃ em, Carries em (some id) packet ∧ t'.emitted = t.emitted ++ [em]) ∨
      ((∃ fault, r = .error fault) ∧ t'.emitted = t.emitted) := by
  unfold handToSink at h
  split at h
  · obtain ⟨rfl, rfl⟩ := Prod.mk.inj h
    exact Or.inr ⟨⟨_, rfl⟩, rfl⟩
  · split at h
    · obtain ⟨rfl, rfl⟩ := Prod.mk.inj h
      exact Or.inl ⟨rfl, _, ⟨rfl, rfl⟩, rfl⟩
    · obtain ⟨rfl, rfl⟩ := Prod.mk.inj h
      exact Or.inr ⟨⟨_, rfl⟩, rfl⟩
  · rename_i conn qsid _
    rcases exec_ofOutcome_bind_cases h with ⟨wire, hwire, hsend⟩ | ⟨fault, -, rfl, rfl⟩
    · -- the datagram decodes to context 0 with the packet as payload
      have hpacket : (Emission.datagram id wire).packet = some packet := by
        simp only [Emission.packet, decodeQuicDatagram_of_encode hwire]
        rfl
      rcases sendWire_cases hsend with ⟨rfl, hsent⟩ | hfail
      · exact Or.inl ⟨rfl, _, ⟨rfl, hpacket⟩, hsent⟩
      · exact Or.inr hfail
    · exact Or.inr ⟨⟨_, rfl⟩, rfl⟩

theorem deliverToSession_cases {id : SessionId} {packet : Bytes}
    {r : Outcome ForwardingError Unit} (h : (e.deliverToSession id packet).exec t = (r, t')) :
    Unmoved .icmpErrorsSent t t' ∧
      ((r = .ok () ∧ ∃ em, Carries em (some id) packet ∧ t'.emitted = t.emitted ++ [em]) ∨
        ((∃ fault, r = .error fault) ∧ t'.emitted = t.emitted)) := by
  have hsame := e.deliverToSession_unmoved id packet t
  rw [h] at hsame
  refine ⟨hsame, ?_⟩
  rcases exec_bind_cases h with ⟨_, u, hsink, hrest⟩ | ⟨fault, hsink, rfl⟩
  · obtain ⟨rfl, rfl⟩ := Prod.mk.inj hrest
    rcases handToSink_cases hsink with ⟨-, em, hem, hsent⟩ | ⟨⟨fault, hfault⟩, -⟩
    · exact Or.inl ⟨rfl, em, hem, hsent⟩
    · cases hfault
  · rcases handToSink_cases hsink with ⟨hok, -⟩ | hfail
    · cases hok
    · exact Or.inr hfail

theorem sendIcmpError_reported {sender : SessionId} {kind : IcmpErrorKind} {original : Bytes}
    {r : Outcome ForwardingError Unit}
    (h : (e.sendIcmpError sender kind original).exec t = (r, t')) :
    Reported e sender (· = original) t t' := by
  rcases exec_ofOutcome_bind_cases h with ⟨built, hbuilt, hrest⟩ | ⟨fault, -, -, rfl⟩
  · cases built with
    | none =>
      obtain ⟨-, rfl⟩ := Prod.mk.inj hrest
      exact Or.inl ⟨rfl, rfl⟩
    | some icmp =>
      -- an error that is not delivered is not counted
      have hfailed : ∀ {fault : Fault ForwardingError} {u : Traffic},
          (e.deliverToSession sender icmp).exec t = (.error fault, u) →
          Reported e sender (· = original) t u := by
        intro fault u hd
        obtain ⟨hsame, ⟨hok, -⟩ | ⟨-, hquiet⟩⟩ := deliverToSession_cases hd
        · cases hok
        · exact Or.inl ⟨hquiet, hsame⟩
      rcases exec_bind_cases hrest with ⟨result, u, htry, hcount⟩ | ⟨fault, htry, -⟩
      · rcases exec_attempt_cases htry with ⟨a, hd, hr⟩ | ⟨err, hd, hr⟩ | ⟨-, hr⟩
        · obtain rfl := Except.ok.inj hr
          obtain ⟨-, rfl⟩ := Prod.mk.inj hcount
          obtain ⟨hsame, ⟨-, em, hem, hsent⟩ | ⟨⟨fault, hfault⟩, -⟩⟩ := deliverToSession_cases hd
          · refine Or.inr ⟨em, kind, original, icmp, rfl, hbuilt, hem, hsent, ?_⟩
            exact congrArg (· + 1) hsame
          · cases hfault
        · obtain rfl := Except.ok.inj hr
          obtain ⟨-, rfl⟩ := Prod.mk.inj hcount
          exact hfailed hd
        · cases hr
      · rcases exec_attempt_cases htry with ⟨a, -, hr⟩ | ⟨err, -, hr⟩ | ⟨hd, -⟩
        · cases hr
        · cases hr
        · exact hfailed hd
  · exact Or.inl ⟨rfl, rfl⟩

theorem Reported.weaken {sender : SessionId} {P Q : Bytes → Prop} (h : Reported e sender P t t')
    (himp : ∀ bs, P bs → Q bs) : Reported e sender Q t t' := by
  rcases h with hquiet | ⟨em, kind, original, icmp, horig, hrest⟩
  · exact Or.inl hquiet
  · exact Or.inr ⟨em, kind, original, icmp, himp original horig, hrest⟩

theorem reject_cases {α : Type} {sender : SessionId} {kind : IcmpErrorKind} {original : Bytes}
    {err : ForwardingError} {r : Outcome ForwardingError α}
    (h : (e.reject sender kind original err).exec t = (r, t')) :
    (∃ fault, r = .error fault) ∧ Reported e sender (· = original) t t' := by
  rcases exec_bind_cases h with ⟨_, u, hsend, hthrow⟩ | ⟨fault, hsend, rfl⟩
  · obtain ⟨rfl, rfl⟩ := Prod.mk.inj hthrow
    exact ⟨⟨_, rfl⟩, sendIcmpError_reported hsend⟩
  · exact ⟨⟨_, rfl⟩, sendIcmpError_reported hsend⟩

/-- The packet went where the route table says: to a session that accepts it and whose
tunnel it fits, or to the TUN device when there is no session. -/
def Routed (e : ForwardingEngine) (info : PacketInfo) (packet : Bytes) (f : Forwarded)
    (em : Emission) : Prop :=
  (∃ target, e.routeTable.lookup info.dst info.protocol = some target ∧ f = .hairpin target ∧
    Carries em (some target) packet ∧ e.allows target info.src info.protocol = true ∧
    packet.length ≤ e.sessionMtu target) ∨
  (e.routeTable.lookup info.dst info.protocol = none ∧ f = .tun ∧ Carries em none packet)

theorem route_cases {info : PacketInfo} {packet : Bytes} {r : Outcome ForwardingError Forwarded}
    (h : (e.route origin info packet).exec t = (r, t')) :
    (∃ f em, r = .ok f ∧ Routed e info packet f em ∧ t'.emitted = t.emitted ++ [em] ∧
        Unmoved .icmpErrorsSent t t') ∨
      ((∃ fault, r = .error fault) ∧ Reported e origin (· = packet) t t') := by
  unfold route at h
  split at h
  · rename_i target hlookup
    split at h
    · exact Or.inr (reject_cases h)
    · rename_i haccepts
      split at h
      · rcases exec_bind_cases h with ⟨_, u, hincr, hreject⟩ | ⟨fault, hincr, -⟩
        · obtain ⟨-, rfl⟩ := Prod.mk.inj hincr
          obtain ⟨hfault, hreported⟩ := reject_cases hreject
          exact Or.inr ⟨hfault, hreported⟩
        · cases (Prod.mk.inj hincr).1
      · rename_i hfits
        rcases exec_bind_cases h with ⟨_, u, hdeliver, hpure⟩ | ⟨fault, hdeliver, rfl⟩
        · obtain ⟨rfl, rfl⟩ := Prod.mk.inj hpure
          obtain ⟨hsame, ⟨-, em, hem, hsent⟩ | ⟨⟨fault, hfault⟩, -⟩⟩ :=
            deliverToSession_cases hdeliver
          · refine Or.inl ⟨_, em, rfl, Or.inl ⟨target, hlookup, rfl, hem, ?_, ?_⟩, hsent, hsame⟩
            · simpa [sessionAccepts] using haccepts
            · exact Nat.not_lt.mp hfits
          · cases hfault
        · obtain ⟨hsame, ⟨hok, -⟩ | ⟨-, hquiet⟩⟩ := deliverToSession_cases hdeliver
          · cases hok
          · exact Or.inr ⟨⟨_, rfl⟩, Or.inl ⟨hquiet, hsame⟩⟩
  · rename_i hlookup
    split at h
    · split at h
      · obtain ⟨rfl, rfl⟩ := Prod.mk.inj h
        exact Or.inl ⟨_, _, rfl, Or.inr ⟨hlookup, rfl, rfl, rfl⟩, rfl, rfl⟩
      · obtain ⟨rfl, rfl⟩ := Prod.mk.inj h
        exact Or.inr ⟨⟨_, rfl⟩, Or.inl ⟨rfl, rfl⟩⟩
    · exact Or.inr (reject_cases h)

structure Cleared (e : ForwardingEngine) (origin : SessionId) (assigned : List AssignedAddress)
    (packet : Bytes) (info : PacketInfo) : Prop where
  parsed : parsePacket packet = .ok info
  source : ∃ a ∈ assigned, ∃ net, IpNet.new a.ipAddress a.prefixLength = some net ∧
    net.contains info.src = true
  destination : validateDestination info.dst = .ok ()
  policy : e.allows origin info.dst info.protocol = true
  fits : packet.length ≤ e.mtu

theorem forwardValidated_cases {assigned : List AssignedAddress} {packet : Bytes}
    {r : Outcome ForwardingError Forwarded}
    (h : (e.forwardValidated origin assigned packet).exec t = (r, t')) :
    (∃ info out f em, Cleared e origin assigned packet info ∧ decrementTtl packet = .ok out ∧
      r = .ok f ∧ Routed e info out f em ∧ t'.emitted = t.emitted ++ [em] ∧
      Unmoved .icmpErrorsSent t t') ∨
    ((∃ fault, r = .error fault) ∧
      Reported e origin (fun o => o = packet ∨ decrementTtl packet = .ok o) t t') := by
  have hself : ∀ {r : Outcome ForwardingError Forwarded},
      (∃ fault, r = .error fault) ∧ Reported e origin (· = packet) t t' →
      (∃ fault, r = .error fault) ∧
        Reported e origin (fun o => o = packet ∨ decrementTtl packet = .ok o) t t' :=
    fun h => ⟨h.1, h.2.weaken fun _ => Or.inl⟩
  rcases exec_ofOutcome_bind_cases h with ⟨info, hparse, h⟩ | ⟨fault, -, rfl, rfl⟩
  · rcases exec_ofOutcome_bind_cases h with ⟨_, hsource, h⟩ | ⟨fault, -, rfl, rfl⟩
    · split at h
      · exact Or.inr (hself (reject_cases h))
      · rename_i hfits
        rcases exec_ofOutcome_bind_cases h with ⟨_, hdest, h⟩ | ⟨fault, -, rfl, rfl⟩
        · split at h
          · exact Or.inr (hself (reject_cases h))
          · rename_i hpolicy
            split at h
            · exact Or.inr (hself (reject_cases h))
            · obtain ⟨rfl, rfl⟩ := Prod.mk.inj h
              exact Or.inr ⟨⟨_, rfl⟩, Or.inl ⟨rfl, rfl⟩⟩
            · rename_i out hout
              rcases route_cases h with ⟨f, em, rfl, hrouted, hsent⟩ | ⟨hfault, hreported⟩
              · have hcleared : Cleared e origin assigned packet info :=
                  ⟨hparse, validateSource_ok hsource, hdest, by simpa using hpolicy,
                    Nat.not_lt.mp hfits⟩
                exact Or.inl ⟨info, out, f, em, hcleared, hout, rfl, hrouted, hsent⟩
              · exact Or.inr ⟨hfault, hreported.weaken fun o ho => Or.inr (ho ▸ hout)⟩
        · exact Or.inr ⟨⟨_, rfl⟩, Or.inl ⟨rfl, rfl⟩⟩
    · exact Or.inr ⟨⟨_, rfl⟩, Or.inl ⟨rfl, rfl⟩⟩
  · exact Or.inr ⟨⟨_, rfl⟩, Or.inl ⟨rfl, rfl⟩⟩

theorem tryConsume_cases {id : SessionId} {bytes : UInt64} {now : Nat}
    {r : Outcome ForwardingError Bool} (h : (tryConsume id bytes now).exec t = (r, t')) :
    (t.limiters id = none ∧ r = .ok true ∧ t' = t) ∨
      ∃ limiter, t.limiters id = some limiter ∧
        ((∃ fault, limiter.tryConsume bytes now = .error fault ∧ r = .error .panic ∧ t' = t) ∨
          ∃ admitted after, limiter.tryConsume bytes now = .ok (admitted, after) ∧
            r = .ok admitted ∧ t' = { t with limiters := t.limiters.insert id after }) := by
  unfold exec tryConsume at h
  cases hlimiter : t.limiters id with
  | none =>
    rw [hlimiter] at h
    obtain ⟨rfl, rfl⟩ := Prod.mk.inj h
    exact Or.inl ⟨rfl, rfl, rfl⟩
  | some limiter =>
    rw [hlimiter] at h
    refine Or.inr ⟨limiter, rfl, ?_⟩
    cases hcall : limiter.tryConsume bytes now with
    | error fault =>
      simp only [hcall] at h
      obtain ⟨rfl, rfl⟩ := Prod.mk.inj h
      exact Or.inl ⟨fault, rfl, rfl, rfl⟩
    | ok answer =>
      simp only [hcall] at h
      obtain ⟨rfl, rfl⟩ := Prod.mk.inj h
      exact Or.inr ⟨answer.1, answer.2, rfl, rfl, rfl⟩

theorem tryConsume_emitted {id : SessionId} {bytes : UInt64} {now : Nat}
    {r : Outcome ForwardingError Bool} (h : (tryConsume id bytes now).exec t = (r, t')) :
    t'.emitted = t.emitted ∧ t'.metrics = t.metrics := by
  rcases tryConsume_cases h with ⟨-, -, rfl⟩ |
    ⟨limiter, -, ⟨fault, -, -, rfl⟩ | ⟨admitted, after, -, -, rfl⟩⟩
  · exact ⟨rfl, rfl⟩
  · exact ⟨rfl, rfl⟩
  · exact ⟨rfl, rfl⟩

theorem tally_emitted {result : Except ForwardingError Forwarded} {r : Outcome ForwardingError Unit}
    (h : (tally result).exec t = (r, t')) : t'.emitted = t.emitted := by
  rcases result with err | _ | _ <;> obtain ⟨-, rfl⟩ := Prod.mk.inj h <;> rfl

/-- The bytes are counted first; then the packet is over its rate, or it is judged and the
result is counted. -/
theorem forwardFromClient_run {assigned : List AssignedAddress} {packet : Bytes} {now : Nat}
    {r : Outcome ForwardingError Forwarded}
    (h : (e.forwardFromClient origin assigned packet now).exec t = (r, t')) :
    ∃ admission u, (tryConsume origin (UInt64.ofNat packet.length) now).exec
        ((add .bytesFromClient (UInt64.ofNat packet.length)).exec t).2 = (admission, u) ∧
      match admission with
      | .error fault => r = .error fault ∧ t' = u
      | .ok false => r = fail .rateLimited ∧ (incr .packetsRateLimited).exec u = (.ok (), t')
      | .ok true => ∃ v, (e.forwardValidated origin assigned packet).exec u = (r, v) ∧
          (r = .error .panic ∧ t' = v ∨
            ∃ result, r = ofExcept result ∧ (tally result).exec v = (.ok (), t')) := by
  rcases hadmit : (tryConsume origin (UInt64.ofNat packet.length) now).exec
    ((add .bytesFromClient (UInt64.ofNat packet.length)).exec t).2 with ⟨admission, u⟩
  refine ⟨admission, u, rfl, ?_⟩
  rw [forwardFromClient, exec_bind] at h
  change Proc.exec (tryConsume _ _ _ >>= fun admitted => _)
    ((add .bytesFromClient (UInt64.ofNat packet.length)).exec t).2 = _ at h
  rw [exec_bind, hadmit] at h
  rcases admission with fault | admitted
  · obtain ⟨rfl, rfl⟩ := Prod.mk.inj h
    exact ⟨rfl, rfl⟩
  cases admitted with
  | false =>
    obtain ⟨rfl, rfl⟩ := Prod.mk.inj h
    exact ⟨rfl, rfl⟩
  | true =>
    rcases hv : (e.forwardValidated origin assigned packet).exec u with ⟨r', v⟩
    change Proc.exec (attempt _ >>= fun result => _) u = _ at h
    rw [exec_bind, exec_attempt, hv] at h
    -- the result is counted and returned as it is
    rcases r' with (err | _) | (target | _)
    · obtain ⟨rfl, rfl⟩ := Prod.mk.inj h
      exact ⟨v, rfl, Or.inr ⟨.error err, rfl, rfl⟩⟩
    · obtain ⟨rfl, rfl⟩ := Prod.mk.inj h
      exact ⟨v, rfl, Or.inl ⟨rfl, rfl⟩⟩
    · obtain ⟨rfl, rfl⟩ := Prod.mk.inj h
      exact ⟨v, rfl, Or.inr ⟨.ok (.hairpin target), rfl, rfl⟩⟩
    · obtain ⟨rfl, rfl⟩ := Prod.mk.inj h
      exact ⟨v, rfl, Or.inr ⟨.ok .tun, rfl, rfl⟩⟩

theorem forwardFromClient_cases {assigned : List AssignedAddress} {packet : Bytes} {now : Nat}
    {r : Outcome ForwardingError Forwarded}
    (h : (e.forwardFromClient origin assigned packet now).exec t = (r, t')) :
    ((∃ fault, r = .error fault) ∧ t'.emitted = t.emitted) ∨
      ∃ u u', (e.forwardValidated origin assigned packet).exec u = (r, u') ∧
        u.emitted = t.emitted ∧ t'.emitted = u'.emitted := by
  obtain ⟨admission, u, hadmit, hrest⟩ := forwardFromClient_run h
  have hquiet : u.emitted = t.emitted := (tryConsume_emitted hadmit).1
  rcases admission with fault | _ | _
  · obtain ⟨rfl, rfl⟩ := hrest
    exact Or.inl ⟨⟨_, rfl⟩, hquiet⟩
  · obtain ⟨rfl, hlimited⟩ := hrest
    obtain ⟨-, rfl⟩ := Prod.mk.inj hlimited
    exact Or.inl ⟨⟨_, rfl⟩, hquiet⟩
  · obtain ⟨v, hv, ⟨-, rfl⟩ | ⟨result, -, htally⟩⟩ := hrest
    · exact Or.inr ⟨u, t', hv, hquiet, rfl⟩
    · exact Or.inr ⟨u, v, hv, hquiet, tally_emitted htally⟩

/-- A forwarded packet passed every test and went, one hop older, to exactly the place the
route table gives; a refused one is answered by at most one ICMP error to its sender. -/
theorem forwardFromClient_safe (e : ForwardingEngine) (origin : SessionId)
    (assigned : List AssignedAddress) (packet : Bytes) (now : Nat) (t t' : Traffic)
    (r : Outcome ForwardingError Forwarded)
    (h : (e.forwardFromClient origin assigned packet now).exec t = (r, t')) :
    (∀ f, r = .ok f → ∃ info out em, Cleared e origin assigned packet info ∧
      decrementTtl packet = .ok out ∧ t'.emitted = t.emitted ++ [em] ∧ em.packet = some out ∧
      (∀ target, f = .hairpin target ↔
        e.routeTable.lookup info.dst info.protocol = some target) ∧
      (∀ target, f = .hairpin target → em.target = some target ∧
        e.allows target info.src info.protocol = true ∧
        packet.length ≤ e.sessionMtu target) ∧
      (f = .tun → em.target = none)) ∧
    (∀ err, r = .error (.err err) → t'.emitted = t.emitted ∨
      ∃ em kind original icmp, (original = packet ∨ decrementTtl packet = .ok original) ∧
        buildIcmpError kind e.icmpSource original = .ok (some icmp) ∧
        em.target = some origin ∧ em.packet = some icmp ∧ t'.emitted = t.emitted ++ [em]) := by
  rcases forwardFromClient_cases h with ⟨⟨fault, rfl⟩, hquiet⟩ | ⟨u, u', hv, hu, hu'⟩
  · exact ⟨fun f hf => (by cases hf), fun err _ => Or.inl hquiet⟩
  · rcases forwardValidated_cases hv with
      ⟨info, out, f, em, hcleared, hout, rfl, hrouted, hsent, -⟩ | ⟨⟨fault, rfl⟩, hreported⟩
    · refine ⟨?_, fun err herr => (by cases herr)⟩
      intro f' hf'
      obtain rfl := Except.ok.inj hf'
      have hemitted : t'.emitted = t.emitted ++ [em] := by rw [hu', hsent, hu]
      have hlen := length_decrementTtl hout
      rcases hrouted with ⟨target, hlookup, rfl, hem, hallows, hfits⟩ | ⟨hlookup, rfl, hem⟩
      · refine ⟨info, out, em, hcleared, hout, hemitted, hem.packet, ?_, ?_, by simp⟩
        · intro s
          rw [hlookup, Forwarded.hairpin.injEq, Option.some.injEq]
        · intro s hs
          obtain rfl := Forwarded.hairpin.inj hs
          exact ⟨hem.target, hallows, hlen ▸ hfits⟩
      · refine ⟨info, out, em, hcleared, hout, hemitted, hem.packet, ?_, by simp,
          fun _ => hem.target⟩
        intro s
        simp [hlookup]
    · refine ⟨fun f hf => (by cases hf), ?_⟩
      intro err _
      rcases hreported with ⟨hquiet, -⟩ | ⟨em, kind, original, icmp, horig, hbuilt, hem, hsent, -⟩
      · exact Or.inl (by rw [hu', hquiet, hu])
      · exact Or.inr ⟨em, kind, original, icmp, horig, hbuilt, hem.target, hem.packet,
          by rw [hu', hsent, hu]⟩

section Limiters

variable {P : Table SessionId SessionLimiter → Prop}

/-- A call that returns keeps what holds of the token buckets. -/
def KeptByCalls (P : Table SessionId SessionLimiter → Prop) : Prop :=
  ∀ table id limiter bytes now admitted after, P table → table id = some limiter →
    limiter.tryConsume bytes now = .ok (admitted, after) → P (table.insert id after)

/-- A call makes no bucket for a session without one. -/
theorem keptByCalls_absent (s : SessionId) : KeptByCalls fun table => table s = none := by
  intro table id limiter bytes now admitted after habsent hlimiter _
  have hne : s ≠ id := by
    rintro rfl
    simp [hlimiter] at habsent
  exact (Table.insert_of_ne _ _ hne).trans habsent

theorem tryConsume_limiters (hP : KeptByCalls P) (id : SessionId) (bytes : UInt64) (now : Nat) :
    Maintains (fun t => P t.limiters) (tryConsume id bytes now) := by
  intro t h
  rcases hexec : (tryConsume id bytes now).exec t with ⟨r, t'⟩
  rcases tryConsume_cases hexec with
    ⟨-, -, rfl⟩ | ⟨limiter, hlimiter, ⟨-, -, -, rfl⟩ | ⟨admitted, after, hcall, -, rfl⟩⟩
  · exact h
  · exact h
  · exact hP _ _ _ _ _ _ _ h hlimiter hcall

theorem forwardFromClient_limiters (hP : KeptByCalls P) (e : ForwardingEngine)
    (assigned : List AssignedAddress) (packet : Bytes) (now : Nat) :
    Maintains (fun t => P t.limiters) (e.forwardFromClient origin assigned packet now) := by
  have hadd (c : Counter) (n : UInt64) : Maintains (fun t => P t.limiters) (add c n) :=
    .modify fun _ h => h
  have hemit (em : Emission) : Maintains (fun t => P t.limiters) (emit em) := .modify fun _ h => h
  have hhandled : Handled e (Persists fun t => P t.limiters) :=
    { tooBig := hadd _ _
      error := hadd _ _
      deliver := e.deliverToSession_relates (fun c n _ => hadd c n) hemit
      tun := fun _ => hemit _ }
  refine .bind (hadd _ _) fun _ => .bind (tryConsume_limiters hP _ _ _) fun admitted => ?_
  split
  · exact .bind (hadd _ _) fun _ => .ofOutcome _
  · refine .bind (.attempt (hhandled.forwardValidated assigned packet)) fun result => ?_
    refine .bind ?_ fun _ => .ofOutcome _
    cases result with
    | error err => exact hadd _ _
    | ok f => cases f <;> exact hadd _ _

end Limiters

section Example

/-- Two sessions on one `/24`, the second reachable at `10.100.0.3` through a channel. -/
def pairEngine : ForwardingEngine where
  routeTable := RouteTable.new.insertClientAddr (.v4 0x0a640003#32) ⟨4⟩
  sessionSinks := Table.empty.insert ⟨4⟩ (.channel fun _ => true)
  policies := fun _ => some ⟨[⟨4, .v4 0x0a640000#32, .v4 0x0a6400ff#32, 0⟩]⟩
  sessionMtus := Table.empty
  tunTx := none
  mtu := 1400
  icmpSource := ⟨0x0a640001#32, none⟩
  limits := ⟨0, 0⟩

def barePacket : Bytes := [0x45, 0, 0, 20, 0, 0, 0, 0, 64, 17, 0, 0, 10, 100, 0, 2, 10, 100, 0, 3]

theorem forwardFromClient_safe_pair :
    ∃ t' out em,
      (pairEngine.forwardFromClient ⟨0⟩ [⟨0, 4, .v4 0x0a640002#32, 32⟩] barePacket 0).exec
        ⟨Table.empty, fun _ => 0, []⟩ = (.ok (.hairpin ⟨4⟩), t') ∧
      decrementTtl barePacket = .ok out ∧ t'.emitted = [em] ∧ em.packet = some out ∧
      em.target = some ⟨4⟩ := by
  let call := (pairEngine.forwardFromClient ⟨0⟩ [⟨0, 4, .v4 0x0a640002#32, 32⟩] barePacket 0).exec
    ⟨Table.empty, fun _ => 0, []⟩
  have hok : call.1 = .ok (.hairpin ⟨4⟩) := by decide +kernel
  have hcall : call = (.ok (.hairpin ⟨4⟩), call.2) := Prod.ext hok rfl
  obtain ⟨info, out, em, -, hout, hsent, hpacket, -, htarget, -⟩ :=
    (forwardFromClient_safe _ _ _ _ _ _ _ _ hcall).1 _ rfl
  exact ⟨call.2, out, em, hcall, hout, hsent, hpacket, (htarget _ rfl).1⟩

end Example

end ForwardingEngine

end Straw
