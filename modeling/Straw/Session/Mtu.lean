import Straw.Session.Ownership

/-!
# The MTU of a session and the size of a datagram

The MTU is sampled from what the connection says one datagram can hold, less the framing.
A connection whose datagrams cannot hold the framing is treated like one that says nothing:
the configured MTU stands.
-/

namespace Straw

open Outcome Codec Proc Transition
set_option autoImplicit false

section Framing

variable {ε : Type} {qsid : UInt64}

theorem varintLen_of_lt {val : Nat} (h : val < 2 ^ 62) : varintLen val =
    .ok (if val < 64 then 1 else if val < 16384 then 2 else if val < 2 ^ 30 then 4 else 8) := by
  unfold varintLen varintMax
  by_cases hone : val < 64
  · rw [if_pos (by omega), if_pos hone]
  rw [if_neg (by omega), if_neg hone]
  by_cases htwo : val < 16384
  · rw [if_pos (by omega), if_pos htwo]
  rw [if_neg (by omega), if_neg htwo]
  by_cases hfour : val < 2 ^ 30
  · rw [if_pos (by omega), if_pos hfour]
  · rw [if_neg (by omega), if_neg hfour, if_pos (by omega)]

theorem datagramOverhead_of_lt (h : qsid.toNat < 2 ^ 62) : datagramOverhead qsid =
    (if qsid.toNat < 64 then 1 else if qsid.toNat < 16384 then 2
      else if qsid.toNat < 2 ^ 30 then 4 else 8) + 1 := by
  rw [datagramOverhead, varintLen_of_lt h]
  rfl

/-- The encoder adds exactly the framing that the MTU allows for. -/
theorem encodeQuicDatagram_length (h : qsid.toNat < 2 ^ 62) (packet : Bytes) :
    ∃ wire, (encodeQuicDatagram qsid (.ipPacket packet) : Outcome ε Bytes) = .ok wire ∧
      wire.length = datagramOverhead qsid + packet.length := by
  obtain ⟨id, hid⟩ := writeVarint_ok h
  have hlen : datagramOverhead qsid = id.length + 1 := by
    rw [datagramOverhead, varintLen_writeVarint hid]
    rfl
  refine ⟨id ++ (0 :: packet), ?_, ?_⟩
  · have hexpect : (expect (writeVarint qsid.toNat) : Outcome ε Bytes) = .ok id :=
      expect_eq_ok.mpr hid
    rw [encodeQuicDatagram, hexpect]
    rfl
  · rw [List.length_append, List.length_cons, hlen]
    omega

end Framing

namespace ForwardingEngine

theorem handToSink_of_wire {e : ForwardingEngine} {id : SessionId} {conn : DatagramConn}
    {qsid : UInt64} {packet wire : Bytes} (hsink : e.sessionSinks id = some (.datagram conn qsid))
    (hwire : (encodeQuicDatagram qsid (.ipPacket packet) : Outcome ForwardingError Bytes) =
      .ok wire) (t : Traffic) :
    (e.handToSink id packet).exec t = (sendWire id conn wire).exec t := by
  rw [handToSink, hsink]
  change ((ofOutcome (encodeQuicDatagram qsid (.ipPacket packet)) : ForwardM Bytes) >>=
    sendWire id conn).exec t = _
  rw [hwire]
  rfl

/-- A datagram within the connection's limit is sent, or it meets a full queue. -/
theorem deliverToSession_of_fits {e : ForwardingEngine} {id : SessionId} {conn : DatagramConn}
    {qsid : UInt64} {packet wire : Bytes} (hsink : e.sessionSinks id = some (.datagram conn qsid))
    (hwire : (encodeQuicDatagram qsid (.ipPacket packet) : Outcome ForwardingError Bytes) =
      .ok wire)
    (hfits : conn.maxDatagramSize.any (· < wire.length) = false) (t : Traffic) :
    ((e.deliverToSession id packet).exec t).1 =
      if conn.sendDatagram wire then .ok () else .error (.err .congested) := by
  rw [deliverToSession, exec_bind, handToSink_of_wire hsink hwire, sendWire,
    if_neg (by rw [hfits]; exact Bool.false_ne_true)]
  by_cases hsend : conn.sendDatagram wire = true
  · rw [if_pos hsend, if_pos hsend]
    rfl
  · rw [if_neg hsend, if_neg hsend]
    rfl

end ForwardingEngine

namespace Server

theorem effectiveMtu_of_le {srv : Server} {m : Nat} {qsid : UInt64}
    (h : datagramOverhead qsid ≤ m) :
    srv.effectiveMtu (some m) qsid = min (m - datagramOverhead qsid) srv.config.mtu := by
  rw [effectiveMtu, Option.bind_some, maxIpPacketSize, if_pos h]

/-- Every packet within the MTU sampled for a limit of `m` makes a datagram within `m`, and
while the limit is still `m` it is not dropped as oversize. -/
def MtuFits (srv : Server) (m : Nat) (qsid : UInt64) : Prop :=
  ∀ packet : Bytes, packet.length ≤ srv.effectiveMtu (some m) qsid →
    (∃ wire, (encodeQuicDatagram qsid (.ipPacket packet) : Outcome ForwardingError Bytes) =
      .ok wire ∧ wire.length ≤ m) ∧
    ∀ (e : ForwardingEngine) (id : SessionId) (conn : DatagramConn) (t : Traffic),
      e.sessionSinks id = some (.datagram conn qsid) → conn.maxDatagramSize = some m →
      ((e.deliverToSession id packet).exec t).1 ≠ .error (.err .mtuExceeded)

/-- The sampled MTU fits exactly when the limit holds the framing: a context id of one byte
and the quarter stream id. -/
theorem mtuFits_iff (srv : Server) (m : Nat) (qsid : UInt64) (h : qsid.toNat < 2 ^ 62) :
    srv.MtuFits m qsid ↔ 2 ≤ m ∧ (64 ≤ qsid.toNat → 3 ≤ m) ∧ (16384 ≤ qsid.toNat → 5 ≤ m) ∧
      (2 ^ 30 ≤ qsid.toNat → 9 ≤ m) := by
  have hcond : (2 ≤ m ∧ (64 ≤ qsid.toNat → 3 ≤ m) ∧ (16384 ≤ qsid.toNat → 5 ≤ m) ∧
      (2 ^ 30 ≤ qsid.toNat → 9 ≤ m)) ↔ datagramOverhead qsid ≤ m := by
    rw [datagramOverhead_of_lt h]
    split
    · omega
    · split
      · omega
      · split
        · omega
        · omega
  rw [hcond]
  constructor
  · intro hfits
    -- otherwise even the empty packet passes the configured MTU and does not fit
    obtain ⟨⟨wire, hwire, hlen⟩, -⟩ := hfits [] (Nat.zero_le _)
    obtain ⟨wire', hwire', hlen'⟩ := encodeQuicDatagram_length (ε := ForwardingError) h []
    obtain rfl := Except.ok.inj (hwire.symm.trans hwire')
    rw [hlen', List.length_nil] at hlen
    exact hlen
  · intro hle packet hpacket
    rw [effectiveMtu_of_le hle] at hpacket
    obtain ⟨wire, hwire, hlen⟩ := encodeQuicDatagram_length (ε := ForwardingError) h packet
    have hwithin : wire.length ≤ m := by omega
    refine ⟨⟨wire, hwire, hwithin⟩, ?_⟩
    intro e id conn t hsink hlimit
    have hfits : conn.maxDatagramSize.any (· < wire.length) = false := by
      rw [hlimit]
      exact decide_eq_false (by omega)
    rw [ForwardingEngine.deliverToSession_of_fits hsink hwire hfits]
    split
    · exact fun heq => by cases heq
    · exact fun heq => by cases heq

theorem mtuFits_initial_packet_size :
    testServer.shared.MtuFits 1200 16384 ∧ testServer.shared.effectiveMtu (some 1200) 16384 = 1195 :=
  ⟨(mtuFits_iff testServer.shared 1200 16384 (by decide)).mpr (by decide), by decide +kernel⟩

/-- A client that takes datagrams of one byte. -/
def narrowTunnel : List ServerLabel :=
  .task ⟨0⟩ (.start 0 0 ⟨some 1, fun _ => true⟩ [⟨4, .v4 0#32, .v4 0xffffffff#32, 0⟩] 0) ::
    List.replicate 9 (.task ⟨0⟩ (.tick true 0))

/-- The session has the configured MTU, and a packet of 20 bytes that passes it is dropped as
oversize although the limit has not changed. -/
theorem narrow_tunnel_drops :
    (exec serverStep testServer narrowTunnel).map (fun σ =>
      (σ.shared.engine.sessionMtu ⟨0⟩, ForwardingEngine.barePacket.length,
        ((σ.shared.engine.deliverToSession ⟨0⟩ ForwardingEngine.barePacket).exec
          σ.shared.traffic).1)) =
      some (1400, 20, .error (.err .mtuExceeded)) := by decide +kernel

end Server

end Straw
