import Straw.Forwarding.Safety
import Straw.Forwarding.Ttl

/-!
# Packets from the network

`dispatch_from_network` takes a packet from the TUN device to the session that the route
table names. Unlike a client's packet it is never answered: a packet that is refused
leaves nothing but a count.
-/

namespace Straw

open Outcome Packet Proc
set_option autoImplicit false

namespace ForwardingEngine

variable (e : ForwardingEngine)

/-- The part of `dispatch_from_network` after the route lookup. -/
def dispatchTo (target : SessionId) (info : PacketInfo) (packet : Bytes) : ForwardM SessionId :=
  if !e.sessionAccepts target info then Proc.throw (.notAllowed info.src)
  -- the tunnel may be narrower than the device for a while
  else if e.sessionMtu target < packet.length then do
    incr .packetsMtuDropped
    Proc.throw .mtuExceeded
  else do
    let packet ← Proc.ofOutcome (decrementTtl packet)
    e.deliverToSession target packet
    pure target

def dispatchFromNetwork (packet : Bytes) : ForwardM SessionId := do
  let info ← Proc.ofOutcome (parsePacket packet)
  match e.routeTable.lookup info.dst info.protocol with
  | none => Proc.throw .noRoute
  | some target => e.dispatchTo target info packet

/-- What a packet has to meet to be handed to `target`. -/
structure Admits (target : SessionId) (packet : Bytes) (info : PacketInfo) : Prop where
  route : e.routeTable.lookup info.dst info.protocol = some target
  policy : e.allows target info.src info.protocol = true
  fits : packet.length ≤ e.sessionMtu target

variable {e} {t t' : Traffic} {target : SessionId} {packet : Bytes} {info : PacketInfo}
  {r : Outcome ForwardingError SessionId}

theorem dispatchTo_cases (h : (e.dispatchTo target info packet).exec t = (r, t')) :
    (∃ out em, e.allows target info.src info.protocol = true ∧
      packet.length ≤ e.sessionMtu target ∧ decrementTtl packet = .ok out ∧ r = .ok target ∧
      Carries em (some target) out ∧ t'.emitted = t.emitted ++ [em]) ∨
      ((∃ fault, r = .error fault) ∧ t'.emitted = t.emitted) := by
  unfold dispatchTo at h
  split at h
  · obtain ⟨rfl, rfl⟩ := Prod.mk.inj h
    exact Or.inr ⟨⟨_, rfl⟩, rfl⟩
  · rename_i haccepts
    split at h
    · obtain ⟨rfl, rfl⟩ := Prod.mk.inj h
      exact Or.inr ⟨⟨_, rfl⟩, rfl⟩
    · rename_i hfits
      rcases exec_ofOutcome_bind_cases h with ⟨out, hout, h⟩ | ⟨fault, -, rfl, rfl⟩
      · rcases exec_bind_cases h with ⟨_, u, hdeliver, hpure⟩ | ⟨fault, hdeliver, rfl⟩
        · obtain ⟨rfl, rfl⟩ := Prod.mk.inj hpure
          obtain ⟨-, ⟨-, em, hem, hsent⟩ | ⟨⟨fault, hfault⟩, -⟩⟩ := deliverToSession_cases hdeliver
          · refine Or.inl ⟨out, em, ?_, Nat.not_lt.mp hfits, hout, rfl, hem, hsent⟩
            simpa [sessionAccepts] using haccepts
          · cases hfault
        · obtain ⟨-, ⟨hok, -⟩ | ⟨-, hquiet⟩⟩ := deliverToSession_cases hdeliver
          · cases hok
          · exact Or.inr ⟨⟨_, rfl⟩, hquiet⟩
      · exact Or.inr ⟨⟨_, rfl⟩, rfl⟩

/-- A packet is handed to one session, which admits it, or nothing is sent at all. -/
theorem dispatchFromNetwork_cases (h : (e.dispatchFromNetwork packet).exec t = (r, t')) :
    (∃ info target out em, parsePacket packet = .ok info ∧ e.Admits target packet info ∧
      decrementTtl packet = .ok out ∧ r = .ok target ∧ Carries em (some target) out ∧
      t'.emitted = t.emitted ++ [em]) ∨
      ((∃ fault, r = .error fault) ∧ t'.emitted = t.emitted) := by
  rcases exec_ofOutcome_bind_cases h with ⟨info, hparse, h⟩ | ⟨fault, -, rfl, rfl⟩
  · split at h
    · obtain ⟨rfl, rfl⟩ := Prod.mk.inj h
      exact Or.inr ⟨⟨_, rfl⟩, rfl⟩
    · rename_i target hroute
      rcases dispatchTo_cases h with ⟨out, em, hpolicy, hfits, hout, rfl, hem, hsent⟩ | hquiet
      · exact Or.inl ⟨info, target, out, em, hparse, ⟨hroute, hpolicy, hfits⟩, hout, rfl, hem,
          hsent⟩
      · exact Or.inr hquiet
  · exact Or.inr ⟨⟨_, rfl⟩, rfl⟩

/-- A packet that is admitted and has a hop left is delivered if the session takes it. -/
theorem dispatchFromNetwork_of_admits {out : Bytes} (hparse : parsePacket packet = .ok info)
    (h : e.Admits target packet info) (hout : decrementTtl packet = .ok out) :
    (e.dispatchFromNetwork packet).exec t =
      (e.deliverToSession target out >>= fun _ => pure target).exec t := by
  have hto : (e.dispatchFromNetwork packet).exec t = (e.dispatchTo target info packet).exec t := by
    rw [dispatchFromNetwork, hparse]
    change Proc.exec (match e.routeTable.lookup info.dst info.protocol with
      | none => _
      | some target => _) t = _
    rw [h.route]
  rw [hto, dispatchTo, sessionAccepts, h.policy, if_neg (by simp),
    if_neg (Nat.not_lt.mpr h.fits), hout]
  rfl

/-- A packet from the network is delivered, counted as too big or dropped. -/
theorem dispatchFromNetwork_relates {R : Traffic → Traffic → Prop} [Std.Refl R] [IsTrans Traffic R]
    (htooBig : Relates R (incr .packetsMtuDropped))
    (hdeliver : ∀ id packet, Relates R (e.deliverToSession id packet)) (packet : Bytes) :
    Relates R (e.dispatchFromNetwork packet) := by
  refine .bind (.ofOutcome _) fun info => ?_
  split
  · exact .ofOutcome _
  · unfold dispatchTo
    split
    · exact .ofOutcome _
    · split
      · exact .bind htooBig fun _ => .ofOutcome _
      · exact .bind (.ofOutcome _) fun _ => .bind (hdeliver _ _) fun _ => .ofOutcome _

theorem dispatchFromNetwork_limiters {P : Table SessionId SessionLimiter → Prop}
    (e : ForwardingEngine) (packet : Bytes) :
    Maintains (fun t => P t.limiters) (e.dispatchFromNetwork packet) :=
  dispatchFromNetwork_relates (.modify fun _ h => h)
    (e.deliverToSession_relates (fun _ _ _ => .modify fun _ h => h) fun _ => .modify fun _ h => h)
    packet

end ForwardingEngine

end Straw
