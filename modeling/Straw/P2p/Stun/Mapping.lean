import Straw.Lib.Exchange
import Straw.P2p.Stun.Response

/-!
# Classifying a NAT by three binding tests

The probe asks the primary address, the alternate one and the primary address on the
alternate port for its own external address and compares the answers. The server listens
on all four combinations of two addresses and two ports and names, in every answer, the
combination diagonally opposite.
-/

namespace Straw.Stun

open Outcome Proc DatagramSocket
set_option autoImplicit false

/-- In milliseconds. -/
def attemptTimeout : Nat := 300
def attempts : Nat := 3

inductive NatMapping where
  | open_
  | endpointIndependent
  | addressDependent
  | addressAndPortDependent
deriving DecidableEq

/-- A binding request to a server: `encode_binding_request` of the transaction id. -/
structure Query where
  server : SocketAddr
  txid : Txid

abbrev ProbeSocket := DatagramSocket Query Bytes

def Query.parse (q : Query) (datagram : Bytes) :
    Outcome ProxyError (SocketAddr × Option SocketAddr) :=
  parseBindingResponse (datagram.take 1500) q.txid

/-- One transaction: the first datagram that comes is taken for the response. -/
def binding (server : SocketAddr) (txid : Txid) :
    Proc ProbeSocket ProxyError (SocketAddr × Option SocketAddr) := do
  match ← exchange attempts attemptTimeout ⟨server, txid⟩ with
  | some datagram => ofOutcome (Query.parse ⟨server, txid⟩ datagram)
  | none => throw (.quic "STUN server did not respond")

/-- Test III asks the primary address on the alternate port. -/
def thirdTest (primary other : SocketAddr) (ma1 : SocketAddr) (txid : Txid) :
    Proc ProbeSocket ProxyError NatMapping := do
  let (ma3, _) ← binding (SocketAddr.new primary.ip other.port) txid
  if ma1 = ma3 then pure .addressDependent else pure .addressAndPortDependent

def secondTest (primary other : SocketAddr) (ma1 : SocketAddr) (txid₂ txid₃ : Txid) :
    Proc ProbeSocket ProxyError NatMapping := do
  let (ma2, _) ← binding other txid₂
  if ma1 = ma2 then pure .endpointIndependent else thirdTest primary other ma1 txid₃

/-- The socket reports `localAddr` as its own address; every transaction draws an id. -/
def detectMapping (localAddr primary : SocketAddr) (txid₁ txid₂ txid₃ : Txid) :
    Proc ProbeSocket ProxyError NatMapping := do
  let (ma1, other) ← binding primary txid₁
  if ma1 = localAddr then pure .open_
  else
    match other with
    | none => throw (.quic "STUN server does not support RFC 5780 (no OTHER-ADDRESS)")
    | some other => secondTest primary other ma1 txid₂ txid₃

section Server

def parseBindingRequest (buf : Bytes) : Option Txid :=
  if h : buf.length < 20 then none
  else if u16At buf 0 ≠ bindingRequest ∨
      u32At buf 4 ≠ magicCookie.toNat then none
  else some ⟨field buf 8 12, length_field (by omega)⟩

/-- The answer to a datagram that comes in from `source`. -/
def serveSocket (other : SocketAddr) (datagram : Bytes) (source : SocketAddr) : Option Bytes :=
  (parseBindingRequest (datagram.take 1500)).map fun txid =>
    encodeBindingResponse txid source (some other)

/-- The addresses the server listens on, each with the one it names as the other. -/
def combos (primary alternate : SocketAddr) : List (SocketAddr × SocketAddr) :=
  let ipa := primary.ip
  let pa := primary.port
  let ipb := alternate.ip
  let pb := alternate.port
  [(.new ipa pa, .new ipb pb), (.new ipa pb, .new ipb pa), (.new ipb pa, .new ipa pb),
    (.new ipb pb, .new ipa pa)]

def serve (primary alternate listen : SocketAddr) (datagram : Bytes) (source : SocketAddr) :
    Option Bytes :=
  ((combos primary alternate).lookup listen).bind fun other => serveSocket other datagram source

theorem parseBindingRequest_encode (txid : Txid) :
    parseBindingRequest ((encodeBindingRequest txid).take 1500) = some txid := by
  have hlen : (encodeBindingRequest txid).length = 20 := by
    simp [encodeBindingRequest, txid.length_eq]
  have htype : u16At (encodeBindingRequest txid) 0 = bindingRequest :=
    u16At_ofNat [] _ rfl (by decide)
  have hcookie : u32At (encodeBindingRequest txid) 4 = magicCookie.toNat := by
    rw [encodeBindingRequest, ← List.append_assoc]
    exact u32At_ofNat _ _ (by simp) (by decide)
  have hid : field (encodeBindingRequest txid) 8 12 = txid.bytes := by
    rw [encodeBindingRequest, ← List.append_assoc, ← List.append_assoc]
    exact field_end (by simp) txid.length_eq
  have hheader : ¬ (u16At (encodeBindingRequest txid) 0 ≠ bindingRequest ∨
      u32At (encodeBindingRequest txid) 4 ≠ magicCookie.toNat) := by
    simp [htype, hcookie]
  rw [List.take_of_length_le (by omega), parseBindingRequest, dif_neg (by omega), if_neg hheader]
  simp only [hid]

end Server

section Transactions

/-- The result of a transaction, from its record. -/
def transactionResult (e : Exchange Query Bytes) : Outcome ProxyError (SocketAddr × Option SocketAddr) :=
  match e.got with
  | some datagram => e.request.parse datagram
  | none => fail (.quic "STUN server did not respond")

theorem binding_exec (server : SocketAddr) (txid : Txid) (s : ProbeSocket) :
    ∃ t, (binding server txid).exec s =
        (transactionResult (record attempts attemptTimeout ⟨server, txid⟩ s), t) ∧
      t.exchanges = s.exchanges ++ [record attempts attemptTimeout ⟨server, txid⟩ s] ∧
      t.arrivals <:+ s.arrivals := by
  obtain ⟨t, hexec, hexchanges, harrivals⟩ := exchange_exec (ε := ProxyError)
    (show 0 < attempts by decide) attemptTimeout (Query.mk server txid) s
  refine ⟨t, ?_, hexchanges, harrivals⟩
  rw [binding, exec_bind, hexec]
  simp only [transactionResult]
  cases (record attempts attemptTimeout ⟨server, txid⟩ s).got with
  | none => rfl
  | some d => rfl

/-- Every exchange with this id keeps the invariant. -/
def ExchangesKeep (I : ProbeSocket → Prop) (txid : Txid) : Prop :=
  ∀ server, Maintains I (DatagramSocket.exchange attempts attemptTimeout ⟨server, txid⟩ :
    Proc ProbeSocket ProxyError (Option Bytes))

section Maintains
variable {I : ProbeSocket → Prop} {txid₁ txid₂ txid₃ : Txid}

theorem binding_maintains (h : ExchangesKeep I txid₁) (server : SocketAddr) :
    Maintains I (binding server txid₁) := by
  apply Relates.bind (h server)
  intro received
  cases received with
  | some datagram => exact Relates.ofOutcome _
  | none => exact Relates.ofOutcome _

theorem thirdTest_maintains (h : ExchangesKeep I txid₃) (primary other ma1 : SocketAddr) :
    Maintains I (thirdTest primary other ma1 txid₃) := by
  apply Relates.bind (binding_maintains h _)
  rintro ⟨ma3, -⟩
  dsimp only
  split
  · exact Relates.ofOutcome _
  · exact Relates.ofOutcome _

theorem secondTest_maintains (h₂ : ExchangesKeep I txid₂) (h₃ : ExchangesKeep I txid₃)
    (primary other ma1 : SocketAddr) :
    Maintains I (secondTest primary other ma1 txid₂ txid₃) := by
  apply Relates.bind (binding_maintains h₂ _)
  rintro ⟨ma2, -⟩
  dsimp only
  split
  · exact Relates.ofOutcome _
  · exact thirdTest_maintains h₃ primary other ma1

theorem detectMapping_maintains (h₁ : ExchangesKeep I txid₁) (h₂ : ExchangesKeep I txid₂)
    (h₃ : ExchangesKeep I txid₃) (localAddr primary : SocketAddr) :
    Maintains I (detectMapping localAddr primary txid₁ txid₂ txid₃) := by
  apply Relates.bind (binding_maintains h₁ _)
  rintro ⟨ma1, other⟩
  dsimp only
  split
  · exact Relates.ofOutcome _
  · cases other with
    | none => exact Relates.ofOutcome _
    | some other => exact secondTest_maintains h₂ h₃ primary other ma1

theorem exchangesKeep_follows (s : ProbeSocket) (txid : Txid) : ExchangesKeep (Follows s) txid :=
  fun server => exchange_follows (by decide) attemptTimeout ⟨server, txid⟩ s

end Maintains

theorem thirdTest_exec (primary other ma1 : SocketAddr) (txid : Txid) (s : ProbeSocket) :
    ∃ t, t.exchanges = s.exchanges ++
        [record attempts attemptTimeout ⟨SocketAddr.new primary.ip other.port, txid⟩ s] ∧
      t.arrivals <:+ s.arrivals ∧
      (thirdTest primary other ma1 txid).exec s =
        ((transactionResult (record attempts attemptTimeout
          ⟨SocketAddr.new primary.ip other.port, txid⟩ s)).map fun r =>
            if ma1 = r.1 then .addressDependent else .addressAndPortDependent, t) := by
  obtain ⟨t, hexec, hexchanges, harrivals⟩ :=
    binding_exec (SocketAddr.new primary.ip other.port) txid s
  refine ⟨t, hexchanges, harrivals, ?_⟩
  rw [thirdTest, exec_bind, hexec]
  cases transactionResult (record attempts attemptTimeout ⟨_, txid⟩ s) with
  | error f => rfl
  | ok r =>
    obtain ⟨ma3, other3⟩ := r
    simp only [Except.map]
    by_cases hsame : ma1 = ma3
    · rw [if_pos hsame, if_pos hsame]
      rfl
    · rw [if_neg hsame, if_neg hsame]
      rfl

theorem secondTest_exec (primary other ma1 : SocketAddr) (txid₂ txid₃ : Txid) (s : ProbeSocket) :
    ∃ t, t.exchanges = s.exchanges ++ [record attempts attemptTimeout ⟨other, txid₂⟩ s] ∧
      t.arrivals <:+ s.arrivals ∧
      ((secondTest primary other ma1 txid₂ txid₃).exec s =
        match transactionResult (record attempts attemptTimeout ⟨other, txid₂⟩ s) with
        | .error f => (.error f, t)
        | .ok r => if ma1 = r.1 then (.ok .endpointIndependent, t)
          else (thirdTest primary other ma1 txid₃).exec t) ∧
      Follows t ((secondTest primary other ma1 txid₂ txid₃).exec s).2 := by
  obtain ⟨t, hexec, hexchanges, harrivals⟩ := binding_exec other txid₂ s
  refine ⟨t, hexchanges, harrivals, ?_⟩
  rw [secondTest, exec_bind, hexec]
  cases transactionResult (record attempts attemptTimeout ⟨other, txid₂⟩ s) with
  | error f => exact ⟨rfl, Follows.refl t⟩
  | ok r =>
    obtain ⟨ma2, other2⟩ := r
    by_cases hsame : ma1 = ma2
    · simp only [if_pos hsame]
      exact ⟨rfl, Follows.refl t⟩
    · simp only [if_neg hsame, true_and]
      exact thirdTest_maintains (exchangesKeep_follows t txid₃) primary other ma1 t (Follows.refl t)

theorem detectMapping_exec (localAddr primary : SocketAddr) (txid₁ txid₂ txid₃ : Txid)
    (s : ProbeSocket) :
    ∃ t, t.exchanges = s.exchanges ++ [record attempts attemptTimeout ⟨primary, txid₁⟩ s] ∧
      t.arrivals <:+ s.arrivals ∧
      ((detectMapping localAddr primary txid₁ txid₂ txid₃).exec s =
        match transactionResult (record attempts attemptTimeout ⟨primary, txid₁⟩ s) with
        | .error f => (.error f, t)
        | .ok (ma1, other) => if ma1 = localAddr then (.ok .open_, t)
          else match other with
            | none =>
              (fail (.quic "STUN server does not support RFC 5780 (no OTHER-ADDRESS)"), t)
            | some other => (secondTest primary other ma1 txid₂ txid₃).exec t) ∧
      Follows t ((detectMapping localAddr primary txid₁ txid₂ txid₃).exec s).2 := by
  obtain ⟨t, hexec, hexchanges, harrivals⟩ := binding_exec primary txid₁ s
  refine ⟨t, hexchanges, harrivals, ?_⟩
  rw [detectMapping, exec_bind, hexec]
  cases transactionResult (record attempts attemptTimeout ⟨primary, txid₁⟩ s) with
  | error f => exact ⟨rfl, Follows.refl t⟩
  | ok r =>
    obtain ⟨ma1, other⟩ := r
    by_cases hsame : ma1 = localAddr
    · simp only [if_pos hsame]
      exact ⟨rfl, Follows.refl t⟩
    · simp only [if_neg hsame]
      cases other with
      | none => exact ⟨rfl, Follows.refl t⟩
      | some other =>
        exact ⟨rfl, secondTest_maintains (exchangesKeep_follows t txid₂)
          (exchangesKeep_follows t txid₃) primary other ma1 t (Follows.refl t)⟩

end Transactions

section Classification

/-- A NAT: the external address of the probe's socket, for every destination. -/
structure AddressMapping where
  external : SocketAddr → Ipv4Addr × UInt16
  /-- No packet leaves with the unspecified address as its source. -/
  specified : ∀ dst, (external dst).1 ≠ 0#32

def AddressMapping.externalAddr (m : AddressMapping) (dst : SocketAddr) : SocketAddr :=
  .v4 (m.external dst).1 (m.external dst).2

/-- Every transaction that a run made got the server's answer first. -/
def LossFree (primary alternate : SocketAddr) (m : AddressMapping) (s : ProbeSocket) : Prop :=
  ∀ e ∈ s.exchanges, (e.arrived attempts attemptTimeout).head? =
    serve primary alternate e.request.server (encodeBindingRequest e.request.txid)
      (m.externalAddr e.request.server)

theorem response_fits (txid : Txid) (ip : Ipv4Addr) (port : UInt16) (oip : Ipv4Addr)
    (oport : UInt16) :
    (encodeBindingResponse txid (.v4 ip port) (some (.v4 oip oport))).length ≤ 1500 := by
  simp [encodeBindingResponse, pushAttr, pad, encodeAddr, Ipv4Addr.octets, txid.length_eq]

theorem parse_answer (q : Query) (ip : Ipv4Addr) (port : UInt16) (oip : Ipv4Addr) (oport : UInt16) :
    q.parse (encodeBindingResponse q.txid (.v4 ip port) (some (.v4 oip oport))) =
      .ok (.v4 ip port, some (.v4 oip oport)) := by
  rw [Query.parse, List.take_of_length_le (response_fits q.txid ip port oip oport)]
  exact parse_encode q.txid ip port (some (oip, oport))

variable {primary alternate : SocketAddr} {m : AddressMapping}

/-- A transaction with one of the server's addresses tells the external address for it. -/
theorem transactionResult_lossFree {s t : ProbeSocket} {server : SocketAddr} {txid : Txid}
    {oip : Ipv4Addr} {oport : UInt16} (hloss : LossFree primary alternate m t)
    (hlookup : (combos primary alternate).lookup server = some (.v4 oip oport))
    (hmem : record attempts attemptTimeout ⟨server, txid⟩ s ∈ t.exchanges) :
    transactionResult (record attempts attemptTimeout ⟨server, txid⟩ s) =
      .ok (m.externalAddr server, some (.v4 oip oport)) := by
  have hanswer := hloss _ hmem
  rw [← got_record] at hanswer
  have hserve : serve primary alternate server (encodeBindingRequest txid)
      (m.externalAddr server) =
      some (encodeBindingResponse txid (m.externalAddr server) (some (.v4 oip oport))) := by
    rw [serve, hlookup, Option.bind_some, serveSocket, parseBindingRequest_encode, Option.map_some]
  rw [transactionResult, hanswer, record, hserve]
  exact parse_answer ⟨server, txid⟩ _ _ oip oport

/-- The verdict on a NAT, by the three addresses that are asked. -/
def verdict (m : AddressMapping) (p a : Ipv4Addr × UInt16) : NatMapping :=
  if m.external (.v4 p.1 p.2) = m.external (.v4 a.1 a.2) then .endpointIndependent
  else if m.external (.v4 p.1 p.2) = m.external (.v4 p.1 a.2) then .addressDependent
  else .addressAndPortDependent

variable {p a : Ipv4Addr × UInt16}

theorem externalAddr_eq_iff (x y : SocketAddr) :
    m.externalAddr x = m.externalAddr y ↔ m.external x = m.external y := by
  simp [AddressMapping.externalAddr, Prod.ext_iff]

theorem beq_v4_of_ne {ip ip' : Ipv4Addr} {port port' : UInt16} (h : ip ≠ ip' ∨ port ≠ port') :
    (SocketAddr.v4 ip port == SocketAddr.v4 ip' port') = false := by
  apply beq_false_of_ne
  intro hsame
  obtain ⟨hip, hport⟩ := SocketAddr.v4.inj hsame
  exact h.elim (fun hne => hne hip) (fun hne => hne hport)

theorem lookup_primary (p a : Ipv4Addr × UInt16) :
    (combos (.v4 p.1 p.2) (.v4 a.1 a.2)).lookup (.v4 p.1 p.2) = some (.v4 a.1 a.2) := by
  simp [combos, SocketAddr.ip, SocketAddr.port, SocketAddr.new]

theorem lookup_alternate (hip : p.1 ≠ a.1) (hport : p.2 ≠ a.2) :
    (combos (.v4 p.1 p.2) (.v4 a.1 a.2)).lookup (.v4 a.1 a.2) = some (.v4 p.1 p.2) := by
  simp [combos, SocketAddr.ip, SocketAddr.port, SocketAddr.new, List.lookup_cons,
    beq_v4_of_ne (Or.inl hip.symm), beq_v4_of_ne (Or.inr hport.symm)]

theorem lookup_alternate_port (hport : p.2 ≠ a.2) :
    (combos (.v4 p.1 p.2) (.v4 a.1 a.2)).lookup (.v4 p.1 a.2) = some (.v4 a.1 p.2) := by
  simp [combos, SocketAddr.ip, SocketAddr.port, SocketAddr.new, List.lookup_cons,
    beq_v4_of_ne (Or.inr hport.symm)]

/-- With the answers of the server the probe compares three external addresses; the
unspecified address that the socket calls its own equals none of them. -/
theorem detectMapping_lossFree (hip : p.1 ≠ a.1) (hport : p.2 ≠ a.2) (localPort : UInt16)
    (txid₁ txid₂ txid₃ : Txid) (s : ProbeSocket)
    (hloss : LossFree (.v4 p.1 p.2) (.v4 a.1 a.2) m
      ((detectMapping (.v4 0#32 localPort) (.v4 p.1 p.2) txid₁ txid₂ txid₃).exec s).2) :
    ((detectMapping (.v4 0#32 localPort) (.v4 p.1 p.2) txid₁ txid₂ txid₃).exec s).1 =
      .ok (verdict m p a) := by
  have hlocal : m.externalAddr (.v4 p.1 p.2) ≠ .v4 0#32 localPort := by
    intro hsame
    exact m.specified _ (SocketAddr.v4.inj hsame).1
  obtain ⟨t, ht, -, hexec, hfollows⟩ :=
    detectMapping_exec (.v4 0#32 localPort) (.v4 p.1 p.2) txid₁ txid₂ txid₃ s
  have hfirst := transactionResult_lossFree hloss (lookup_primary p a) (mem_of_follows ht hfollows)
  simp only [hfirst, if_neg hlocal] at hexec
  rw [hexec] at hloss ⊢
  obtain ⟨u, hu, -, hexec, hfollows⟩ := secondTest_exec (.v4 p.1 p.2) (.v4 a.1 a.2)
    (m.externalAddr (.v4 p.1 p.2)) txid₂ txid₃ t
  have hsecond := transactionResult_lossFree hloss (lookup_alternate hip hport)
    (mem_of_follows hu hfollows)
  simp only [hsecond] at hexec
  by_cases hsame : m.external (.v4 p.1 p.2) = m.external (.v4 a.1 a.2)
  · rw [hexec, if_pos ((externalAddr_eq_iff _ _).mpr hsame), verdict, if_pos hsame]
  · rw [if_neg (fun h => hsame ((externalAddr_eq_iff _ _).mp h))] at hexec
    rw [hexec] at hloss ⊢
    obtain ⟨v, hv, -, hexec⟩ := thirdTest_exec (.v4 p.1 p.2) (.v4 a.1 a.2)
      (m.externalAddr (.v4 p.1 p.2)) txid₃ u
    rw [hexec] at hloss ⊢
    have hthird := transactionResult_lossFree hloss (lookup_alternate_port hport)
      (mem_of_follows hv (Follows.refl v))
    have htest : SocketAddr.new (SocketAddr.v4 p.1 p.2).ip (SocketAddr.v4 a.1 a.2).port =
        .v4 p.1 a.2 := rfl
    simp only [htest, hthird, Except.map, verdict, if_neg hsame, externalAddr_eq_iff]

/-- The classes of NATs and the answer each should get. -/
structure Classified (m : AddressMapping) (source p a : Ipv4Addr × UInt16)
    (result : Outcome ProxyError NatMapping) : Prop where
  open_ : (∀ dst, m.external dst = source) → result = .ok .open_
  endpointIndependent : ∀ v, v ≠ source → (∀ dst, m.external dst = v) →
    result = .ok .endpointIndependent
  addressDependent : ∀ f : IpAddr → Ipv4Addr × UInt16, (∀ dst, m.external dst = f dst.ip) →
    f (.v4 p.1) ≠ f (.v4 a.1) → result = .ok .addressDependent
  addressAndPortDependent :
    ((combos (.v4 p.1 p.2) (.v4 a.1 a.2)).map fun c => m.external c.1).Nodup →
    result = .ok .addressAndPortDependent

theorem verdict_of_constant {v : Ipv4Addr × UInt16} (h : ∀ dst, m.external dst = v) :
    verdict m p a = .endpointIndependent := by
  rw [verdict, if_pos ((h _).trans (h _).symm)]

/-- The classification is right except where there is no NAT. -/
theorem detectMapping_classifies (hip : p.1 ≠ a.1) (hport : p.2 ≠ a.2)
    (source : Ipv4Addr × UInt16) (txid₁ txid₂ txid₃ : Txid) (s : ProbeSocket)
    (hloss : LossFree (.v4 p.1 p.2) (.v4 a.1 a.2) m
      ((detectMapping (.v4 0#32 source.2) (.v4 p.1 p.2) txid₁ txid₂ txid₃).exec s).2) :
    Classified m source p a
        ((detectMapping (.v4 0#32 source.2) (.v4 p.1 p.2) txid₁ txid₂ txid₃).exec s).1 ↔
      ¬ ∀ dst, m.external dst = source := by
  rw [detectMapping_lossFree hip hport source.2 txid₁ txid₂ txid₃ s hloss]
  constructor
  · intro h hopen
    have hverdict := h.open_ hopen
    rw [verdict_of_constant hopen] at hverdict
    cases hverdict
  · intro hnat
    refine ⟨fun hopen => absurd hopen hnat, ?_, ?_, ?_⟩
    · intro v _ hconst
      rw [verdict_of_constant hconst]
    · intro f hf hdiffer
      have hother : ¬ m.external (.v4 p.1 p.2) = m.external (.v4 a.1 a.2) := by
        rw [hf, hf]
        exact hdiffer
      have hsame : m.external (.v4 p.1 p.2) = m.external (.v4 p.1 a.2) := by
        rw [hf, hf]
        rfl
      rw [verdict, if_neg hother, if_pos hsame]
    · intro hnodup
      have hdistinct : m.external (.v4 p.1 p.2) ≠ m.external (.v4 a.1 a.2) ∧
          m.external (.v4 p.1 p.2) ≠ m.external (.v4 p.1 a.2) := by
        simp only [combos, SocketAddr.ip, SocketAddr.port, SocketAddr.new, List.map_cons,
          List.map_nil, List.nodup_cons, List.mem_cons, not_or] at hnodup
        exact ⟨hnodup.1.2.2.1, hnodup.1.1⟩
      rw [verdict, if_neg hdistinct.1, if_neg hdistinct.2]

/-! A socket with the address 203.0.113.9:50000 for every destination -/

def testNat : AddressMapping := ⟨fun _ => (0xCB007109#32, 50000), fun _ => by decide⟩

def testPrimary : Ipv4Addr × UInt16 := (0xC6336401#32, 3478)
def testAlternate : Ipv4Addr × UInt16 := (0xC6336402#32, 3479)

def primaryAnswer : Bytes :=
  encodeBindingResponse testTxid testMapped (some (.v4 testAlternate.1 testAlternate.2))

def alternateAnswer : Bytes :=
  encodeBindingResponse testTxid testMapped (some (.v4 testPrimary.1 testPrimary.2))

def testSocket : ProbeSocket := ⟨0, [⟨20, primaryAnswer⟩, ⟨45, alternateAnswer⟩], [], []⟩

def testDone : ProbeSocket :=
  let first : Query := ⟨.v4 testPrimary.1 testPrimary.2, testTxid⟩
  let second : Query := ⟨.v4 testAlternate.1 testAlternate.2, testTxid⟩
  ⟨45, [], [(0, first), (20, second)],
    [⟨first, 0, testSocket.arrivals, some primaryAnswer⟩,
      ⟨second, 20, [⟨45, alternateAnswer⟩], some alternateAnswer⟩]⟩

theorem testSocket_detects (localPort : UInt16) :
    (detectMapping (.v4 0#32 localPort) (.v4 testPrimary.1 testPrimary.2) testTxid testTxid
      testTxid).exec testSocket = (.ok .endpointIndependent, testDone) := by
  let mid : ProbeSocket :=
    ⟨20, [⟨45, alternateAnswer⟩], testDone.sent.take 1, testDone.exchanges.take 1⟩
  have hfirst : (binding (.v4 testPrimary.1 testPrimary.2) testTxid).exec testSocket =
      (.ok (testMapped, some (.v4 testAlternate.1 testAlternate.2)), mid) :=
    Prod.ext (parse_answer ⟨_, testTxid⟩ _ _ _ _) rfl
  have hsecond : (binding (.v4 testAlternate.1 testAlternate.2) testTxid).exec mid =
      (.ok (testMapped, some (.v4 testPrimary.1 testPrimary.2)), testDone) :=
    Prod.ext (parse_answer ⟨_, testTxid⟩ _ _ _ _) rfl
  have hlocal : ¬ testMapped = .v4 0#32 localPort := by
    intro hsame
    exact absurd (SocketAddr.v4.inj hsame).1 (by decide)
  rw [detectMapping, exec_bind, hfirst]
  simp only [if_neg hlocal]
  rw [secondTest, exec_bind, hsecond]
  rfl

theorem lossFree_testDone : LossFree (.v4 testPrimary.1 testPrimary.2)
    (.v4 testAlternate.1 testAlternate.2) testNat testDone := by
  intro e he
  simp only [testDone, List.mem_cons, List.not_mem_nil, or_false] at he
  rcases he with rfl | rfl
  · rfl
  · rfl

theorem detectMapping_classifies_cone :
    Classified testNat (0x0A000002#32, 40000) testPrimary testAlternate
      ((detectMapping (.v4 0#32 40000) (.v4 testPrimary.1 testPrimary.2) testTxid testTxid
        testTxid).exec testSocket).1 := by
  refine (detectMapping_classifies (by decide) (by decide) (0x0A000002#32, 40000) testTxid testTxid
    testTxid testSocket ?_).mpr ?_
  · rw [testSocket_detects]
    exact lossFree_testDone
  · intro hopen
    exact absurd (hopen (.v4 0#32 0)) (by decide)

/-- Without a NAT, the source address is the mapped one: the probe takes itself to be
behind a cone. -/
theorem unmapped_taken_for_cone :
    LossFree (.v4 testPrimary.1 testPrimary.2) (.v4 testAlternate.1 testAlternate.2) testNat
        ((detectMapping (.v4 0#32 50000) (.v4 testPrimary.1 testPrimary.2) testTxid testTxid
          testTxid).exec testSocket).2 ∧
      (∀ dst, testNat.externalAddr dst = testMapped) ∧
      ((detectMapping (.v4 0#32 50000) (.v4 testPrimary.1 testPrimary.2) testTxid testTxid
        testTxid).exec testSocket).1 ≠ .ok .open_ := by
  rw [testSocket_detects]
  exact ⟨lossFree_testDone, fun _ => rfl, by simp⟩

end Classification

end Straw.Stun
