import Straw.Forwarding.Hairpin
import Straw.Session.Attribution
import Straw.Session.Delivery

/-!
# A packet from one client to another

The data path end to end: `send_packet` of the sending client, the datagram loop of its
connection at the server, the engine, and `dispatch_client_datagram` of the receiving
client. What comes out at the far end is the packet that went in, one hop older, in the
queue of the tunnel that has the address.
-/

namespace Straw

open Outcome Packet Proc Transition AddressPool
set_option autoImplicit false

namespace Client

inductive SendError where
  | forwarding (e : ForwardingError)
  /-- The connection does not take the datagram. -/
  | quic
deriving DecidableEq

structure PacketSender where
  conn : DatagramConn
  qsid : UInt64

/-- The datagram that `send_packet` hands to the connection. -/
def PacketSender.sendPacket (s : PacketSender) (packet : Bytes) : Outcome SendError Bytes := do
  let wire ← encodeQuicDatagram s.qsid (.ipPacket packet)
  if s.conn.maxDatagramSize.any (· < wire.length) then fail (.forwarding .mtuExceeded)
  else if s.conn.sendDatagram wire then .ok wire
  else fail .quic

/-- The bounded queue between the datagram loop and the reader of a tunnel. -/
structure Channel where
  depth : Nat
  items : List Bytes
  /-- The receiver has not been dropped. -/
  receiving : Bool

def Channel.trySend (c : Channel) (packet : Bytes) : Option Channel :=
  if c.receiving && decide (c.items.length < c.depth) then
    some { c with items := c.items ++ [packet] }
  else none

/-- Someone reads the queue and it is not full. -/
def Channel.HasRoom (c : Channel) : Prop := c.receiving = true ∧ c.items.length < c.depth

instance (c : Channel) : Decidable c.HasRoom := inferInstanceAs (Decidable (_ ∧ _))

theorem Channel.trySend_of_room (c : Channel) {packet : Bytes} (h : c.HasRoom) :
    c.trySend packet = some { c with items := c.items ++ [packet] } := by
  simp only [trySend, h.1, h.2, decide_true, Bool.and_self, if_true]

theorem Channel.trySend_of_full (c : Channel) {packet : Bytes} (h : ¬ c.HasRoom) :
    c.trySend packet = none := by
  rw [trySend, if_neg]
  simpa [HasRoom] using h

/-- The demultiplexer of a connection; several tunnels may share a sink. -/
structure Connection where
  demux : Table UInt64 Nat
  channels : Nat → Channel

namespace Connection

/-- The queue of a tunnel gets a packet, or has no room for it. -/
def deliver (c : Connection) (qsid : UInt64) (packet : Bytes) : Connection :=
  match c.demux qsid with
  | none => c
  | some id =>
    match (c.channels id).trySend packet with
    | none => c
    | some channel => { c with channels := Function.update c.channels id channel }

def dispatchClientDatagram (c : Connection) (wire : Bytes) : Connection :=
  match decodeQuicDatagram wire with
  | .error _ => c
  | .ok (qsid, datagram) =>
    if datagram.contextId = contextIdIpPacket then c.deliver (UInt64.ofNat qsid) datagram.payload
    else c

theorem dispatch_of_encode {ε : Type} {qsid : UInt64} {packet wire : Bytes}
    (h : (encodeQuicDatagram qsid (.ipPacket packet) : Outcome ε Bytes) = .ok wire)
    (c : Connection) : c.dispatchClientDatagram wire = c.deliver qsid packet := by
  rw [dispatchClientDatagram, decodeQuicDatagram_of_encode h]
  change c.deliver (UInt64.ofNat qsid.toNat) packet = _
  rw [UInt64.ofNat_toNat]

theorem deliver_demux (c : Connection) (qsid : UInt64) (packet : Bytes) :
    (c.deliver qsid packet).demux = c.demux := by
  unfold deliver
  split
  · rfl
  · split <;> rfl

/-- The packet is behind the others in the queue of its tunnel, if that has room, and in no
other queue. -/
theorem deliver_channels (c : Connection) (qsid : UInt64) (packet : Bytes) (id : Nat) :
    (c.deliver qsid packet).channels id =
      if c.demux qsid = some id ∧ (c.channels id).HasRoom then
        { c.channels id with items := (c.channels id).items ++ [packet] }
      else c.channels id := by
  unfold deliver
  cases hdemux : c.demux qsid with
  | none => rw [if_neg (by simp)]
  | some sink =>
    by_cases hroom : (c.channels sink).HasRoom
    · simp only [(c.channels sink).trySend_of_room hroom, Option.some.injEq, Function.update_apply]
      by_cases hid : id = sink
      · subst hid
        rw [if_pos rfl, if_pos ⟨rfl, hroom⟩]
      · rw [if_neg hid, if_neg fun h => hid h.1.symm]
    · simp only [(c.channels sink).trySend_of_full hroom, Option.some.injEq]
      rw [if_neg]
      rintro ⟨rfl, hroom'⟩
      exact hroom hroom'

end Connection

theorem PacketSender.sendPacket_wire {s : PacketSender} {packet wire : Bytes}
    (h : s.sendPacket packet = .ok wire) :
    (encodeQuicDatagram s.qsid (.ipPacket packet) : Outcome SendError Bytes) = .ok wire := by
  obtain ⟨bytes, hbytes, hrest⟩ := bind_eq_ok.mp h
  split at hrest
  · cases hrest
  · split at hrest
    · rw [hbytes, ← Except.ok.inj hrest]
    · cases hrest

end Client

namespace RequestStream

theorem ofNat_quarter (r : RequestStream) :
    UInt64.ofNat ((quarterStreamId r.id).toNat * 4) = r.id := by
  have hbidi := r.clientBidi
  rw [quarterStreamId, UInt64.toNat_div]
  change UInt64.ofNat (r.id.toNat / 4 * 4) = r.id
  rw [Nat.div_mul_cancel (Nat.dvd_of_mod_eq_zero hbidi), UInt64.ofNat_toNat]

end RequestStream

/-- The server attributes what a client sends on a stream to the session of that stream. -/
theorem toForward_sent {sender : Client.PacketSender} {stream : RequestStream}
    (hqsid : sender.qsid = quarterStreamId stream.id) {packet wire : Bytes}
    (hsend : sender.sendPacket packet = .ok wire) (connSeq : UInt64) (now : Nat) :
    Received.toForward ⟨connSeq, wire, false, now⟩ =
      some (SessionId.compose connSeq stream.id, packet) := by
  have hdecode := decodeQuicDatagram_of_encode (Client.PacketSender.sendPacket_wire hsend)
  simp only [Received.toForward, Bool.false_eq_true, if_false, hdecode, hqsid]
  rw [if_neg (by simp [IpProxyingDatagram.ipPacket]), stream.ofNat_quarter]
  rfl

/-- What a packet from tunnel `tA` to tunnel `tB` has to meet. -/
structure Passage (srv : Server) (sA : SessionId) (tA : Tunnel) (assignedA : List AssignedAddress)
    (sB : SessionId) (tB : Tunnel) (assignedB : List AssignedAddress) (packet : Bytes)
    (info : PacketInfo) (now : Nat) : Prop where
  /-- Neither session has been closed by the reaper. -/
  registered : (srv.engine.policies sA).isSome ∧ (srv.engine.policies sB).isSome
  admitted : srv.traffic.admits sA (UInt64.ofNat packet.length) now = true
  source : ∃ a ∈ assignedA, ∃ net, IpNet.new a.ipAddress a.prefixLength = some net ∧
    net.contains info.src = true
  destination : validateDestination info.dst = .ok ()
  allowed : ∃ r ∈ tA.routes, r.contains info.dst info.protocol = true
  holder : info.dst ∈ assignedB.map (·.ipAddress)
  accepted : ∃ r ∈ tB.routes, r.contains info.src info.protocol = true
  fits : packet.length ≤ srv.engine.mtu ∧ packet.length ≤ srv.engine.sessionMtu sB
  hop : 1 < ttl packet
  taken : tB.Takes (afterHop packet)

section Runs

variable {config : ProxyConfig} {ipv4 : Ipv4Net} {ipv6 : Option Ipv6Net}
  {tunTx : Option (Bytes → Bool)} {icmpSource : IcmpSource} {limits : RateLimits}
  {maxSessions : Nat} {labels : List NetworkLabel} {σ : ServerSys}

/-- The answer of the server to a packet of session `sA` for an address of the pool. -/
theorem forward_hairpin_iff
    (h : Run (Fires networkStep)
      (Server.initial config ipv4 ipv6 tunTx icmpSource limits maxSessions) labels σ)
    {sA sB : SessionId} {tA tB : Tunnel} {assignedA assignedB : List AssignedAddress}
    (hA : σ.task sA = .loop tA assignedA) (hB : σ.task sB = .loop tB assignedB)
    {net : IpNet} (hnet : net ∈ (AddressPool.new ipv4 ipv6).poolNets) {packet : Bytes}
    {info : PacketInfo} (hparse : parsePacket packet = .ok info)
    (hdst : net.contains info.dst = true) (now : Nat) :
    (σ.shared.forward sA packet now).map Prod.fst = some (.ok (.hairpin sB)) ↔
      Passage σ.shared sA tA assignedA sB tB assignedB packet info now := by
  have hstandA := standing_run h sA
  have hstandB := standing_run h sB
  rw [hA] at hstandA
  rw [hB] at hstandB
  have hallowsA := hstandA.allows_iff info.dst info.protocol
  have hallowsB := hstandB.allows_iff info.src info.protocol
  have hroute : σ.shared.engine.routeTable.lookup info.dst info.protocol = some sB ↔
      info.dst ∈ assignedB.map (·.ipAddress) :=
    (lookup_network h hnet hdst).trans (hstandB.clientAddrs_iff info.dst)
  have hsnapshot : σ.shared.sessions.assignedSnapshot sA = some assignedA :=
    (hstandA.ledger.published rfl).1
  rw [Server.forward, hsnapshot, Option.map_some, Option.map_some, Option.some.injEq]
  constructor
  · intro hok
    rcases hstandB.served tB rfl rfl with hserves | ⟨hnone, -⟩
    · obtain ⟨hadmitted, httl, htaken, info', hcrosses⟩ :=
        (ForwardingEngine.forwardFromClient_hairpin
          (hserves.deliver_iff (hstandB.framed tB rfl))).mp hok
      obtain rfl := Except.ok.inj (hparse.symm.trans hcrosses.cleared.parsed)
      obtain ⟨hregA, hrangeA⟩ := hallowsA.mp hcrosses.cleared.policy
      obtain ⟨hregB, hrangeB⟩ := hallowsB.mp hcrosses.admits.policy
      exact
        { registered := ⟨hregA, hregB⟩
          admitted := hadmitted
          source := hcrosses.cleared.source
          destination := hcrosses.cleared.destination
          allowed := hrangeA
          holder := hroute.mp hcrosses.admits.route
          accepted := hrangeB
          fits := ⟨hcrosses.cleared.fits, hcrosses.admits.fits⟩
          hop := httl
          taken := htaken }
    · -- a session that the reaper has closed has no sink
      have hnever : ∀ out u, ((σ.shared.engine.deliverToSession sB out).exec u).1 = .ok () ↔
          False := by
        intro out u
        rw [ForwardingEngine.deliverToSession, ForwardingEngine.handToSink, hnone]
        exact ⟨fun hok => (by cases hok), False.elim⟩
      exact ((ForwardingEngine.forwardFromClient_hairpin hnever).mp hok).2.2.1.elim
  · intro hpass
    have hserves : σ.shared.engine.Serves sB tB := by
      rcases hstandB.served tB rfl rfl with hserves | ⟨-, hnone⟩
      · exact hserves
      · have hreg := hpass.registered.2
        rw [hnone] at hreg
        cases hreg
    refine (ForwardingEngine.forwardFromClient_hairpin
      (hserves.deliver_iff (hstandB.framed tB rfl))).mpr
      ⟨hpass.admitted, hpass.hop, hpass.taken, info, ?_⟩
    exact
      { cleared := ⟨hparse, hpass.source, hpass.destination,
          hallowsA.mpr ⟨hpass.registered.1, hpass.allowed⟩, hpass.fits.1⟩
        admits := ⟨hroute.mpr hpass.holder,
          hallowsB.mpr ⟨hpass.registered.2, hpass.accepted⟩, hpass.fits.2⟩ }

/-- A packet that one client sends for the address of another is forwarded to it exactly
when it meets what both tunnels ask. Then one datagram leaves for the other client, which
puts the packet, one hop older, at the end of the queue of that tunnel. A full queue stays
as it is, and so does every other queue. -/
theorem packet_reaches_peer
    (h : Run (Fires networkStep)
      (Server.initial config ipv4 ipv6 tunTx icmpSource limits maxSessions) labels σ)
    {connSeq : UInt64} {stream : RequestStream} {tA : Tunnel} {assignedA : List AssignedAddress}
    (hA : σ.task (SessionId.compose connSeq stream.id) = .loop tA assignedA)
    {sB : SessionId} {tB : Tunnel} {assignedB : List AssignedAddress}
    (hB : σ.task sB = .loop tB assignedB)
    {net : IpNet} (hnet : net ∈ (AddressPool.new ipv4 ipv6).poolNets)
    {sender : Client.PacketSender} (hqsid : sender.qsid = quarterStreamId stream.id)
    {packet wire : Bytes} (hsend : sender.sendPacket packet = .ok wire)
    {info : PacketInfo} (hparse : parsePacket packet = .ok info)
    (hdst : net.contains info.dst = true) (now : Nat) :
    let sA := SessionId.compose connSeq stream.id
    let received : Received := ⟨connSeq, wire, false, now⟩
    received.toForward = some (sA, packet) ∧
      ((σ.shared.forward sA packet now).map Prod.fst = some (.ok (.hairpin sB)) ↔
        Passage σ.shared sA tA assignedA sB tB assignedB packet info now) ∧
      (Passage σ.shared sA tA assignedA sB tB assignedB packet info now →
        HopOf packet (afterHop packet) ∧
        ∃ out, (σ.shared.demux received).traffic.emitted =
            σ.shared.traffic.emitted ++ [.datagram sB out] ∧
          ∀ peer : Client.Connection, (peer.dispatchClientDatagram out).demux = peer.demux ∧
            ∀ id, (peer.dispatchClientDatagram out).channels id =
              if peer.demux tB.qsid = some id ∧ (peer.channels id).HasRoom then
                { peer.channels id with items := (peer.channels id).items ++ [afterHop packet] }
              else peer.channels id) := by
  intro sA received
  have hto : received.toForward = some (sA, packet) := toForward_sent hqsid hsend connSeq now
  have hiff := forward_hairpin_iff h hA hB hnet hparse hdst now
  refine ⟨hto, hiff, ?_⟩
  intro hpass
  have hstandB := standing_run h sB
  rw [hB] at hstandB
  have hsink : σ.shared.engine.sessionSinks sB = some (.datagram tB.conn tB.qsid) := by
    rcases hstandB.served tB rfl rfl with hserves | ⟨-, hnone⟩
    · exact hserves.1
    · have hreg := hpass.registered.2
      rw [hnone] at hreg
      cases hreg
  refine ⟨hopOf_afterHop (wellFormed_of_parsePacket hparse) hpass.hop, ?_⟩
  obtain ⟨⟨r, traffic⟩, hforward, hr⟩ := Option.map_eq_some_iff.mp (hiff.mpr hpass)
  obtain rfl : r = .ok (.hairpin sB) := hr
  obtain ⟨assigned, -, hexec⟩ := Option.map_eq_some_iff.mp hforward
  obtain ⟨out, hout, hsent⟩ := ForwardingEngine.forwardFromClient_wire hsink hexec
  have hdemux : (σ.shared.demux received).traffic = traffic := by
    rw [Server.demux, hto]
    simp only
    rw [hforward]
  refine ⟨out, hdemux ▸ hsent, ?_⟩
  intro peer
  rw [Client.Connection.dispatch_of_encode hout]
  exact ⟨peer.deliver_demux _ _, peer.deliver_channels _ _⟩

/-- The first of two clients sends a packet to the second. -/
theorem packet_reaches_peer_second :
    ∃ (σ : ServerSys) (tB : Tunnel) (out : Bytes),
      Run (Fires networkStep) testServer testNetwork σ ∧
      (σ.shared.demux ⟨0, 0 :: 0 :: ForwardingEngine.barePacket, false, 0⟩).traffic.emitted =
        σ.shared.traffic.emitted ++ [.datagram ⟨4⟩ out] ∧
      ∀ (peer : Client.Connection) (id : Nat), peer.demux tB.qsid = some id →
        (peer.channels id).HasRoom → ((peer.dispatchClientDatagram out).channels id).items =
          (peer.channels id).items ++ [afterHop ForwardingEngine.barePacket] := by
  have hexec : (exec networkStep testServer testNetwork).map (fun σ =>
      ((σ.task ⟨0⟩).isLoop, (σ.task ⟨4⟩).isLoop,
        (σ.shared.forward ⟨0⟩ ForwardingEngine.barePacket 0).map Prod.fst)) =
      some (true, true, some (.ok (.hairpin ⟨4⟩))) := by decide +kernel
  obtain ⟨σ, hσ, hview⟩ := Option.map_eq_some_iff.mp hexec
  simp only [Prod.mk.injEq] at hview
  obtain ⟨hloopA, hloopB, hforward⟩ := hview
  obtain ⟨tA, assignedA, hA⟩ := Stage.isLoop_iff.mp hloopA
  obtain ⟨tB, assignedB, hB⟩ := Stage.isLoop_iff.mp hloopB
  let sender : Client.PacketSender := ⟨⟨none, fun _ => true⟩, 0⟩
  have hsend : sender.sendPacket ForwardingEngine.barePacket =
      .ok (0 :: 0 :: ForwardingEngine.barePacket) := by decide +kernel
  have hqsid : sender.qsid = quarterStreamId Registry.firstStream.id := rfl
  have hA' : σ.task (SessionId.compose 0 Registry.firstStream.id) = .loop tA assignedA := hA
  obtain ⟨-, hiff, hreaches⟩ := packet_reaches_peer (run_of_exec hσ) hA' hB testNet_mem hqsid
    hsend parsePacket_barePacket (by decide) 0
  obtain ⟨-, out, hsent, hqueue⟩ := hreaches (hiff.mp hforward)
  refine ⟨σ, tB, out, run_of_exec hσ, hsent, ?_⟩
  intro peer id hid hroom
  rw [(hqueue peer).2 id, if_pos ⟨hid, hroom⟩]

end Runs

end Straw
