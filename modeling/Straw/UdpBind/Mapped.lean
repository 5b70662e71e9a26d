import Straw.P2p.Frames
import Straw.UdpBind.Firewall

/-!
# IPv4 destinations written as IPv6

The relay sends exactly what its policy allows. The policy judges an address by the family
it is written in, so a peer that writes an IPv4 destination as `::ffff:a.b.c.d` is held
back by nothing but the port and the IPv6 prefixes the operator denied.
-/

namespace Straw

open Codec Outcome Transition
set_option autoImplicit false

namespace BindRelay

variable {s : BindRelay} {policy : DestinationPolicy} {limiter : SessionLimiter}
  {events : List BindEvent}

/-- Everything that was sent to the network had passed the policy. -/
theorem sent_allowed (h : Run (Fires step) (start policy limiter) events s) :
    ∀ entry ∈ s.toNetwork.log, policy.allows entry.1 = true := by
  have hadmits : s.policy = policy ∧
      Handoff.Admits (fun entry => policy.allows entry.1 = true) .empty s.toNetwork := by
    refine h.invariant (fun s => s.policy = policy ∧
      Handoff.Admits (fun entry => policy.allows entry.1 = true) .empty s.toNetwork) ?_
      ⟨rfl, Or.inl rfl⟩
    rintro s e t ⟨hpolicy, hadmits⟩ hstep
    have hmoves := step_moves hstep
    refine ⟨hmoves.policy.trans hpolicy, ?_⟩
    rcases hmoves.toNetwork with hsame | ⟨kept, hpass⟩ | ⟨entry, -, hallows, hfill⟩
    · rwa [hsame]
    · rw [hpass]
      exact hadmits.pass kept
    · rw [hfill]
      rw [hpolicy] at hallows
      exact hadmits.fill hallows
  exact hadmits.2.forall_log

/-- The relay once the peer has opened the uncompressed context 2. -/
def opened (policy : DestinationPolicy) (limiter : SessionLimiter) : BindRelay :=
  { start policy limiter with
    stream := ⟨ContextTable.empty.calls [.register ⟨2, .uncompressed⟩, .ack 2], [[0x12, 1, 2]]⟩ }

theorem run_opened (policy : DestinationPolicy) (limiter : SessionLimiter) :
    Run (Fires step) (start policy limiter) [.chunk [0x11, 2, 2, 0], .capsule true]
      (opened policy limiter) :=
  run_of_exec rfl

/-- Whatever the policy allows, an unlimited peer can have sent. -/
theorem sends_allowed {remote : SocketAddr} (hplain : remote.Plain)
    (hallows : policy.allows remote = true) (hlimiter : limiter.limits.isUnlimited = true)
    (payload : Bytes) :
    ∃ events s, Run (Fires step) (start policy limiter) events s ∧
      (remote, payload) ∈ s.toNetwork.log := by
  have hbound : (opened policy limiter).table.binding 2 = some .uncompressed := rfl
  obtain ⟨body, -, hdecode⟩ :=
    ContextTable.carried_uncompressed (by decide) hbound hbound remote payload
  rw [hplain.onWire_eq] at hdecode
  have hconsume : limiter.tryConsume (UInt64.ofNat payload.length) 0 = .ok (true, limiter) := by
    rw [SessionLimiter.tryConsume, SessionLimiter.tryConsumeAt, hlimiter]
    rfl
  let taken : BindRelay :=
    { opened policy limiter with toNetwork := (Handoff.empty).fill (remote, payload) }
  have htake : (opened policy limiter).step (.fromPeer body 0) = some taken := by
    have hlookup : (opened policy limiter).lookupBody body 0 = taken := by
      have hpolicy : (opened policy limiter).policy.allows remote = true := hallows
      have hlim : (opened policy limiter).limiter.tryConsume
          (UInt64.ofNat payload.length) 0 = .ok (true, limiter) := hconsume
      simp only [lookupBody, hdecode, hpolicy, hlim, Bool.not_true, Bool.false_eq_true, if_false]
      rfl
    rw [← hlookup]
    rfl
  refine ⟨_, _, ((run_opened policy limiter).snoc htake).snoc
    (show taken.step (.sendTo true) = some { taken with toNetwork := ⟨none, [(remote, payload)]⟩ }
      from rfl), ?_⟩
  exact List.mem_cons_self

/-- Writing an IPv4 destination as IPv6 gains the peer nothing, at the policy and at the
socket, exactly if the port is zero, the IPv6 form is denied or allowed by a prefix, or
the IPv4 form is neither denied nor local without an explicit allow. -/
theorem mapped_destination_iff (h : policy.Configured) (a : Ipv4Addr) (port : UInt16) :
    ((policy.allows (.v6 a.toIpv6Mapped port 0 0) = true →
        policy.allows (.v4 a port) = true ∨
          ∃ net ∈ policy.allowed, net.contains (.v6 a.toIpv6Mapped) = true) ↔
      (port = 0 ∨ (∃ net ∈ policy.denied, net.contains (.v6 a.toIpv6Mapped) = true) ∨
        (∃ net ∈ policy.allowed, net.contains (.v6 a.toIpv6Mapped) = true) ∨
        ((∀ net ∈ policy.denied, net.contains (.v4 a) = false) ∧
          ((∃ net ∈ policy.allowed, net.contains (.v4 a) = true) ∨
            (IpAddr.v4 a).isLocal = false)))) ∧
    ((∀ limiter events s payload, Run (Fires step) (start policy limiter) events s →
        (.v6 a.toIpv6Mapped port 0 0, payload) ∈ s.toNetwork.log →
        policy.allows (.v4 a port) = true ∨
          ∃ net ∈ policy.allowed, net.contains (.v6 a.toIpv6Mapped) = true) ↔
      (port = 0 ∨ (∃ net ∈ policy.denied, net.contains (.v6 a.toIpv6Mapped) = true) ∨
        (∃ net ∈ policy.allowed, net.contains (.v6 a.toIpv6Mapped) = true) ∨
        ((∀ net ∈ policy.denied, net.contains (.v4 a) = false) ∧
          ((∃ net ∈ policy.allowed, net.contains (.v4 a) = true) ∨
            (IpAddr.v4 a).isLocal = false)))) := by
  have hiff := DestinationPolicy.spelled_iff h a port
  refine ⟨hiff, ?_⟩
  rw [← DestinationPolicy.Spelled, ← hiff]
  constructor
  · intro hsafe hallows
    have hplain : (SocketAddr.v6 a.toIpv6Mapped port 0 0).Plain := ⟨rfl, rfl⟩
    have hunlimited : testLimiter.limits.isUnlimited = true := rfl
    obtain ⟨events, s, hrun, hsent⟩ := sends_allowed hplain hallows hunlimited []
    exact hsafe testLimiter events s [] hrun hsent
  · intro himp limiter events s payload hrun hsent
    exact himp (sent_allowed hrun _ hsent)

/-- `[::ffff:8.8.8.8]:53`. -/
def testPublic : SocketAddr := .v6 (Ipv4Addr.toIpv6Mapped 0x08080808#32) 53 0 0

/-- `[::ffff:127.0.0.1]:80`. -/
def testLoopback : SocketAddr := .v6 (Ipv4Addr.toIpv6Mapped 0x7f000001#32) 80 0 0

theorem mapped_destination_testPublic :
    testPolicy.Configured ∧ testPolicy.allows testPublic = true ∧
      (testPolicy.allows (.v4 0x08080808#32 53) = true ∨
        ∃ net ∈ testPolicy.allowed, net.contains testPublic.ip = true) := by
  have hconfigured : testPolicy.Configured := Or.inl ⟨[], rfl⟩
  have hallows : testPolicy.allows testPublic = true := by decide +kernel
  refine ⟨hconfigured, hallows,
    (mapped_destination_iff hconfigured 0x08080808#32 53).1.mpr ?_ hallows⟩
  exact Or.inr (Or.inr (Or.inr ⟨by decide +kernel, Or.inr (by decide +kernel)⟩))

/-- One byte for the mapped loopback address on the uncompressed context. -/
def testMapped : List BindEvent :=
  [.chunk [0x11, 2, 2, 0], .capsule true,
    .fromPeer [2, 6, 0, 0, 0, 0, 0, 0, 0, 0, 0, 0, 255, 255, 127, 0, 0, 1, 0, 80, 7] 0,
    .sendTo true]

theorem mapped_loopback_sent :
    testPolicy.allows testLoopback = true ∧
    testPolicy.allows (.v4 0x7f000001#32 80) = false ∧ testPolicy.allowed = [] ∧
    (exec step (start testPolicy testLimiter) testMapped).map (fun s => s.toNetwork.log) =
      some [(testLoopback, [7])] :=
  ⟨by decide +kernel, by decide +kernel, rfl, by decide +kernel⟩

end BindRelay

end Straw
