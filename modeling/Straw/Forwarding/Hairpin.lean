import Straw.Forwarding.Ingress

/-!
# Packets from one client to another

When exactly `forward_from_client` hands a client's packet to another session. Together
with what is known of a refused packet this settles every call whose destination is a
client.
-/

namespace Straw

open Outcome Packet Proc
set_option autoImplicit false

/-- The answer of the session's token bucket; none admits everything. -/
def Traffic.admits (t : Traffic) (id : SessionId) (bytes : UInt64) (now : Nat) : Bool :=
  match t.limiters id with
  | none => true
  | some limiter =>
    match limiter.tryConsume bytes now with
    | .ok (admitted, _) => admitted
    | .error _ => false

namespace ForwardingEngine

variable {e : ForwardingEngine} {t : Traffic} {origin target : SessionId}
  {assigned : List AssignedAddress} {packet out : Bytes} {info : PacketInfo} {now : Nat}

/-- What the packet of `origin` has to meet to be handed to `target`. -/
structure Crosses (e : ForwardingEngine) (origin target : SessionId)
    (assigned : List AssignedAddress) (packet : Bytes) (info : PacketInfo) : Prop where
  cleared : Cleared e origin assigned packet info
  admits : e.Admits target packet info

theorem tryConsume_admits {id : SessionId} {bytes : UInt64} {r : Outcome ForwardingError Bool}
    {u : Traffic} (h : (tryConsume id bytes now).exec t = (r, u)) :
    r = .ok (t.admits id bytes now) ∨ t.admits id bytes now = false ∧ r = .error .panic := by
  unfold Traffic.admits
  rcases tryConsume_cases h with ⟨hnone, hr, -⟩ |
    ⟨limiter, hsome, ⟨fault, hcall, hr, -⟩ | ⟨admitted, after, hcall, hr, -⟩⟩
  · rw [hnone]
    exact Or.inl hr
  · simp only [hsome, hcall]
    exact Or.inr ⟨trivial, hr⟩
  · simp only [hsome, hcall]
    exact Or.inl hr

/-- A packet within its rate is judged; counting changes nothing about the answer. -/
theorem forwardFromClient_fst (e : ForwardingEngine) (origin : SessionId)
    (assigned : List AssignedAddress) (packet : Bytes) (now : Nat) (t : Traffic) :
    ∃ u, u.emitted = t.emitted ∧
      ((t.admits origin (UInt64.ofNat packet.length) now = false ∧
        ∃ fault, ((e.forwardFromClient origin assigned packet now).exec t).1 = .error fault) ∨
      (t.admits origin (UInt64.ofNat packet.length) now = true ∧
        ((e.forwardFromClient origin assigned packet now).exec t).1 =
          ((e.forwardValidated origin assigned packet).exec u).1 ∧
        ((e.forwardFromClient origin assigned packet now).exec t).2.emitted =
          ((e.forwardValidated origin assigned packet).exec u).2.emitted)) := by
  rcases hexec : (e.forwardFromClient origin assigned packet now).exec t with ⟨r, t'⟩
  obtain ⟨admission, u, hadmit, hrest⟩ := forwardFromClient_run hexec
  have hanswer := tryConsume_admits hadmit
  have hsame : Traffic.admits ((add .bytesFromClient (UInt64.ofNat packet.length)).exec t).2 origin
      (UInt64.ofNat packet.length) now = t.admits origin (UInt64.ofNat packet.length) now := rfl
  rw [hsame] at hanswer
  refine ⟨u, (tryConsume_emitted hadmit).1, ?_⟩
  rcases hanswer with rfl | ⟨hdenied, rfl⟩
  · cases hadmits : t.admits origin (UInt64.ofNat packet.length) now with
    | false =>
      rw [hadmits] at hrest
      exact Or.inl ⟨rfl, _, hrest.1⟩
    | true =>
      rw [hadmits] at hrest
      obtain ⟨v, hv, ⟨-, rfl⟩ | ⟨result, -, htally⟩⟩ := hrest
      · rw [hv]
        exact Or.inr ⟨rfl, rfl, rfl⟩
      · rw [hv]
        exact Or.inr ⟨rfl, rfl, tally_emitted htally⟩
  · exact Or.inl ⟨hdenied, _, hrest.1⟩

theorem validateSource_of_exists (h : ∃ a ∈ assigned, ∃ net,
    IpNet.new a.ipAddress a.prefixLength = some net ∧ net.contains info.src = true) :
    validateSource info assigned = .ok () := by
  obtain ⟨a, ha, net, hnet, hcontains⟩ := h
  unfold validateSource
  rw [if_pos]
  refine List.any_eq_true.mpr ⟨a, ha, ?_⟩
  rw [hnet]
  exact hcontains

theorem forwardValidated_of_crosses (h : e.Crosses origin target assigned packet info)
    (hout : decrementTtl packet = .ok out) (t : Traffic) :
    (e.forwardValidated origin assigned packet).exec t =
      (e.deliverToSession target out >>= fun _ => pure (.hairpin target)).exec t := by
  have hlen := length_decrementTtl hout
  have hsource := validateSource_of_exists h.cleared.source
  have hroute : (e.route origin info out).exec t =
      (e.deliverToSession target out >>= fun _ => pure (.hairpin target)).exec t := by
    rw [route, h.admits.route]
    simp only [sessionAccepts, h.admits.policy]
    rw [if_neg (by simp), if_neg (by rw [hlen]; exact Nat.not_lt.mpr h.admits.fits)]
  rw [forwardValidated, h.cleared.parsed]
  change ((Proc.ofOutcome (validateSource info assigned) >>= fun _ => _).exec t) = _
  rw [hsource]
  change (Proc.exec (if e.mtu < packet.length then _ else _) t) = _
  rw [if_neg (Nat.not_lt.mpr h.cleared.fits), h.cleared.destination]
  change (Proc.exec (if (!e.allows origin info.dst info.protocol) = true then _ else _) t) = _
  rw [h.cleared.policy, if_neg (by simp), hout]
  exact hroute

theorem Crosses.of_forwarded
    (h : ((e.forwardValidated origin assigned packet).exec t).1 = .ok (.hairpin target)) :
    ∃ info out, e.Crosses origin target assigned packet info ∧ decrementTtl packet = .ok out := by
  rcases hv : (e.forwardValidated origin assigned packet).exec t with ⟨r, t'⟩
  rw [hv] at h
  have hr : r = .ok (.hairpin target) := h
  rcases forwardValidated_cases hv with ⟨info, out, f, em, hcleared, hout, rfl, hrouted, -⟩ |
    ⟨⟨fault, rfl⟩, -⟩
  · obtain rfl := Except.ok.inj hr
    rcases hrouted with ⟨s, hlookup, hs, -, hallows, hfits⟩ | ⟨-, htun, -⟩
    · obtain rfl := Forwarded.hairpin.inj hs
      rw [length_decrementTtl hout] at hfits
      exact ⟨info, out, ⟨hcleared, hlookup, hallows, hfits⟩, hout⟩
    · cases htun
  · cases hr

/-- A packet is hairpinned to `target` exactly when it is within its rate, passes every
test on both sides, has a hop left, and the session takes it. -/
theorem forwardFromClient_hairpin {takes : Bytes → Prop}
    (htakes : ∀ out u, ((e.deliverToSession target out).exec u).1 = .ok () ↔ takes out) :
    ((e.forwardFromClient origin assigned packet now).exec t).1 = .ok (.hairpin target) ↔
      t.admits origin (UInt64.ofNat packet.length) now = true ∧ 1 < ttl packet ∧
        takes (afterHop packet) ∧ ∃ info, e.Crosses origin target assigned packet info := by
  obtain ⟨u, -, hcase⟩ := e.forwardFromClient_fst origin assigned packet now t
  have hdelivered : ∀ out, ((e.deliverToSession target out >>= fun _ =>
      pure (Forwarded.hairpin target)).exec u).1 = .ok (.hairpin target) ↔ takes out := by
    intro out
    rw [← htakes out u, exec_bind]
    rcases (e.deliverToSession target out).exec u with ⟨r, v⟩
    cases r with
    | ok _ => exact ⟨fun _ => rfl, fun _ => rfl⟩
    | error fault => exact ⟨fun h => (by cases h), fun h => (by cases h)⟩
  rcases hcase with ⟨hdenied, fault, hrefused⟩ | ⟨hadmitted, hsame, -⟩
  · rw [hrefused, hdenied]
    exact ⟨fun h => (by cases h), fun h => (by cases h.1)⟩
  · rw [hsame, hadmitted]
    constructor
    · intro hok
      obtain ⟨info, out, hcrosses, hout⟩ := Crosses.of_forwarded hok
      have hwf := wellFormed_of_parsePacket hcrosses.cleared.parsed
      rw [forwardValidated_of_crosses hcrosses hout, hdelivered] at hok
      rw [decrementTtl_of_wellFormed hwf] at hout
      split at hout
      · cases hout
      · rename_i httl
        obtain rfl := Except.ok.inj hout
        exact ⟨rfl, UInt8.not_le.mp httl, hok, info, hcrosses⟩
    · rintro ⟨-, httl, htaken, info, hcrosses⟩
      have hwf := wellFormed_of_parsePacket hcrosses.cleared.parsed
      have hout : decrementTtl packet = .ok (afterHop packet) := by
        rw [decrementTtl_of_wellFormed hwf, if_neg (UInt8.not_le.mpr httl)]
      rw [forwardValidated_of_crosses hcrosses hout, hdelivered]
      exact htaken

/-- What leaves for a session with a datagram sink is one datagram for its stream. -/
theorem deliverToSession_wire {conn : DatagramConn} {qsid : UInt64} {t' : Traffic}
    (hsink : e.sessionSinks target = some (.datagram conn qsid))
    (h : (e.deliverToSession target packet).exec t = (.ok (), t')) :
    ∃ wire, (encodeQuicDatagram qsid (.ipPacket packet) : Outcome ForwardingError Bytes) =
      .ok wire ∧ t'.emitted = t.emitted ++ [.datagram target wire] := by
  rcases exec_bind_cases h with ⟨_, u, hhand, hrest⟩ | ⟨fault, -, hfault⟩
  · obtain ⟨-, rfl⟩ := Prod.mk.inj hrest
    unfold handToSink at hhand
    rw [hsink] at hhand
    rcases exec_ofOutcome_bind_cases hhand with ⟨wire, hwire, hsend⟩ | ⟨fault, -, hfault, -⟩
    · rcases sendWire_cases hsend with ⟨-, hsent⟩ | ⟨⟨fault, hfault⟩, -⟩
      · exact ⟨wire, hwire, hsent⟩
      · cases hfault
    · cases hfault
  · cases hfault

theorem forwardFromClient_wire {conn : DatagramConn} {qsid : UInt64} {t' : Traffic}
    (hsink : e.sessionSinks target = some (.datagram conn qsid))
    (h : (e.forwardFromClient origin assigned packet now).exec t = (.ok (.hairpin target), t')) :
    ∃ wire, (encodeQuicDatagram qsid (.ipPacket (afterHop packet)) :
        Outcome ForwardingError Bytes) = .ok wire ∧
      t'.emitted = t.emitted ++ [.datagram target wire] := by
  obtain ⟨u, hu, hcase⟩ := e.forwardFromClient_fst origin assigned packet now t
  rw [h] at hcase
  rcases hcase with ⟨-, fault, hrefused⟩ | ⟨-, hok, hemitted⟩
  · cases hrefused
  · obtain ⟨info, out, hcrosses, hout⟩ := Crosses.of_forwarded hok.symm
    have hwf := wellFormed_of_parsePacket hcrosses.cleared.parsed
    rw [forwardValidated_of_crosses hcrosses hout] at hok hemitted
    rw [decrementTtl_of_wellFormed hwf] at hout
    split at hout
    · cases hout
    · obtain rfl := Except.ok.inj hout
      rcases hd : (e.deliverToSession target (afterHop packet)).exec u with ⟨r, v⟩
      rw [exec_bind, hd] at hok hemitted
      cases r with
      | ok _ =>
        obtain ⟨wire, hwire, hsent⟩ := deliverToSession_wire hsink hd
        refine ⟨wire, hwire, ?_⟩
        rw [← hu, ← hsent]
        exact hemitted
      | error fault => cases hok

end ForwardingEngine

end Straw
