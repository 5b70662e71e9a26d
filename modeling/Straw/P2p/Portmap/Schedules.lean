import Straw.Lib.Exchange
import Straw.P2p.Portmap.Codec

/-!
# Asking a gateway for a port mapping

PCP is tried first, then NAT-PMP with two requests. All exchanges share one connected
socket, so only the gateway is heard, but each exchange takes the first datagram that
comes, and that may be the answer to an earlier request or one answer sent twice.
-/

namespace Straw.Portmap

open Outcome DatagramSocket
set_option autoImplicit false

section Client

def attempts : Nat := 3

/-- In milliseconds. -/
def attemptTimeout : Nat := 250

abbrev MapSocket := DatagramSocket Bytes Bytes

/-- A port mapping the gateway installed, with its lifetime in seconds. -/
structure Mapping where
  external : SocketAddr
  lifetime : Nat
deriving DecidableEq

/-- Send the request and return the first response; the buffer holds 1100 bytes. -/
def exchange (req : Bytes) : Proc MapSocket ProxyError Bytes := do
  match ← DatagramSocket.exchange attempts attemptTimeout req with
  | some datagram => pure (datagram.take 1100)
  | none => Proc.throw (.quic "port-mapping server did not respond")

/-- An exchange whose response is parsed. -/
def ask {α : Type} (req : Bytes) (parse : Bytes → Outcome ProxyError α) :
    Proc MapSocket ProxyError α := do
  let resp ← exchange req
  Proc.ofOutcome (parse resp)

def leaseSecs (lifetime : Nat) : UInt32 := UInt32.ofNat (min lifetime (2 ^ 32 - 1))

def mapNatpmp (internalPort : UInt16) (secs : UInt32) : Proc MapSocket ProxyError Mapping := do
  let extIp ← ask natpmpExternalRequest parseNatpmpExternal
  let (_, mapped, life) ← ask (natpmpMapRequest internalPort 0 secs) parseNatpmpMap
  pure ⟨SocketAddr.new (.v4 extIp) (UInt16.ofNat mapped), life⟩

/-- `localIp` is the source address the kernel picked for the connected socket. -/
def mapUdpVia (localIp : IpAddr) (nonce : Nonce) (internalPort : UInt16) (lifetime : Nat) :
    Proc MapSocket ProxyError Mapping :=
  match localIp with
  | .v6 _ => Proc.throw (.config "port mapping is IPv4-only")
  | .v4 clientIp => do
    let secs := leaseSecs lifetime
    match ← Proc.attempt (ask (pcpMapRequest clientIp nonce internalPort 0 secs)
        fun resp => parsePcpMap resp nonce) with
    | .ok (ip, port, life) => pure ⟨SocketAddr.new (.v4 ip) (UInt16.ofNat port), life⟩
    | .error _ => mapNatpmp internalPort secs

/-- The requests one call may send. -/
def requests (clientIp : Ipv4Addr) (nonce : Nonce) (internalPort : UInt16) (lifetime : Nat) :
    List Bytes :=
  [pcpMapRequest clientIp nonce internalPort 0 (leaseSecs lifetime), natpmpExternalRequest,
    natpmpMapRequest internalPort 0 (leaseSecs lifetime)]

end Client

section Gateway

/-- What a gateway needs of a request to answer it. -/
inductive Request where
  | pcp (nonce : Nonce) (internal : UInt16)
  | external
  | map (internal : UInt16)

namespace Request

def version : Request → UInt8
  | .pcp .. => 2
  | .external | .map _ => 0

def opcode : Request → UInt8
  | .pcp .. | .map _ => 1
  | .external => 0

def read (wire : Bytes) : Option Request :=
  if wire.getD 0 0 = 2 ∧ wire.getD 1 0 = 1 then
    if h : (field wire 24 12).length = 12 then
      some (.pcp ⟨field wire 24 12, h⟩ (UInt16.ofNat (u16At wire 40)))
    else none
  else if wire.getD 0 0 = 0 ∧ wire.getD 1 0 = 0 then some .external
  else if wire.getD 0 0 = 0 ∧ wire.getD 1 0 = 1 then some (.map (UInt16.ofNat (u16At wire 4)))
  else none

theorem read_header {wire : Bytes} {req : Request} (h : read wire = some req) :
    wire.getD 0 0 = req.version ∧ wire.getD 1 0 = req.opcode := by
  unfold read at h
  split at h
  · rename_i hpcp
    split at h
    · cases h
      exact hpcp
    · cases h
  · split at h
    · rename_i hexternal
      cases h
      exact hexternal
    · split at h
      · rename_i hmap
        cases h
        exact hmap
      · cases h

@[simp]
theorem read_pcpMapRequest (clientIp : Ipv4Addr) (nonce : Nonce) (internal suggested : UInt16)
    (lifetime : UInt32) :
    read (pcpMapRequest clientIp nonce internal suggested lifetime) = some (.pcp nonce internal) := by
  have hnonce : field (pcpMapRequest clientIp nonce internal suggested lifetime) 24 12 =
      nonce.bytes := by
    rw [pcpMapRequest, ← List.append_assoc, ← List.append_assoc]
    exact field_middle (by simp [v4Mapped_length]) nonce.length_eq _
  have hinternal : u16At (pcpMapRequest clientIp nonce internal suggested lifetime) 40 =
      internal.toNat := by
    rw [pcpMapRequest, ← List.append_assoc, ← List.append_assoc, ← List.append_assoc,
      ← List.append_assoc]
    exact u16At_ofNat _ _ (by simp [v4Mapped_length, nonce.length_eq]) internal.toNat_lt
  rw [read, if_pos ⟨rfl, rfl⟩]
  simp only [hnonce, hinternal, nonce.length_eq, dif_pos, UInt16.ofNat_toNat]

@[simp]
theorem read_natpmpExternalRequest : read natpmpExternalRequest = some .external := rfl

@[simp]
theorem read_natpmpMapRequest (internal suggested : UInt16) (lifetime : UInt32) :
    read (natpmpMapRequest internal suggested lifetime) = some (.map internal) := by
  have hinternal : u16At (natpmpMapRequest internal suggested lifetime) 4 = internal.toNat :=
    u16At_ofNat _ _ rfl internal.toNat_lt
  have hzero : (natpmpMapRequest internal suggested lifetime).getD 0 0 = 0 := rfl
  have hone : (natpmpMapRequest internal suggested lifetime).getD 1 0 = 1 := rfl
  rw [read, hzero, hone, if_neg (by decide), if_neg (by decide), if_pos ⟨rfl, rfl⟩, hinternal,
    UInt16.ofNat_toNat]

end Request

/-- What a gateway speaks, and which external port it forwards to which internal one. -/
structure Gateway where
  pcp : Bool
  natpmp : Bool
  externalIp : Ipv4Addr
  created : UInt16 → UInt16 → Prop

def Gateway.Speaks (g : Gateway) : Request → Prop
  | .pcp .. => g.pcp = true
  | .external | .map _ => g.natpmp = true

def Gateway.Supports (g : Gateway) (wire : Bytes) : Prop :=
  ∃ req, Request.read wire = some req ∧ g.Speaks req

/-- The correct answers to a request. A repeated request may be answered with another epoch
or lifetime. -/
inductive Gateway.Grants (g : Gateway) : Request → Bytes → Prop
  | pcp (nonce : Nonce) (internal external : UInt16) (granted epoch : UInt32)
      (hcreated : g.created internal external) :
      Grants g (.pcp nonce internal)
        (pcpMapResponse nonce internal external g.externalIp granted epoch)
  | external (epoch : UInt32) : Grants g .external (natpmpExternalResponse epoch g.externalIp)
  | map (internal external : UInt16) (granted epoch : UInt32)
      (hcreated : g.created internal external) :
      Grants g (.map internal) (natpmpMapResponse epoch internal external granted)

/-- The gateway reads a request that it supports and answers it. -/
def Gateway.Replies (g : Gateway) (wire resp : Bytes) : Prop :=
  ∃ req, Request.read wire = some req ∧ g.Speaks req ∧ g.Grants req resp

/-- An error response of either protocol. -/
def Refusal (resp : Bytes) : Prop :=
  (resp.getD 0 0 = 0 ∧ u16At resp 2 ≠ 0) ∨ (resp.getD 0 0 = 2 ∧ resp.getD 3 0 ≠ 0)

/-- What the gateway sends when it receives requests from a list: correct answers to those
it supports, errors for the others. -/
def Gateway.Sends (g : Gateway) (reqs : List Bytes) (resp : Bytes) : Prop :=
  ∃ req ∈ reqs, g.Replies req resp ∨ (¬ g.Supports req ∧ Refusal resp)

theorem Gateway.Replies.length_le {g : Gateway} {wire resp : Bytes} (h : g.Replies wire resp) :
    resp.length ≤ 1100 := by
  obtain ⟨req, -, -, hgrants⟩ := h
  cases hgrants with
  | pcp =>
    rw [pcpMapResponse_length]
    decide
  | external =>
    rw [natpmpExternalResponse_length]
    decide
  | map =>
    rw [natpmpMapResponse_length]
    decide

/-- What the gateway grants to a request that it has read. -/
theorem Gateway.Replies.grants {g : Gateway} {wire resp : Bytes} {req : Request}
    (h : g.Replies wire resp) (hread : Request.read wire = some req) : g.Grants req resp := by
  obtain ⟨other, hother, -, hgrants⟩ := h
  obtain rfl := Option.some.inj (hread.symm.trans hother)
  exact hgrants

theorem Refusal.take {resp : Bytes} (h : Refusal resp) : Refusal (resp.take 1100) := by
  simpa only [Refusal, getD_take (show 0 < 1100 by decide), getD_take (show 3 < 1100 by decide),
    u16At_take (show 2 + 2 ≤ 1100 by decide)] using h

end Gateway

section Asking

variable {g : Gateway} {α : Type}

/-- The exchange took a correct answer to its own request. -/
def Taken (g : Gateway) (e : Exchange Bytes Bytes) : Prop :=
  ∃ d, e.got = some d ∧ g.Replies e.request d

/-- The parser tells the answers to `req` from everything else the gateway sends, and
what it reads from them satisfies `good`. -/
structure Answers (g : Gateway) (reqs : List Bytes) (req : Bytes)
    (parse : Bytes → Outcome ProxyError α) (good : α → Prop) : Prop where
  mem : req ∈ reqs
  reads : ∀ d, g.Replies req d → ∃ a, good a ∧ parse (d.take 1100) = .ok a
  rejects : ∀ d, g.Sends reqs d → ¬ g.Replies req d → ∃ f, parse (d.take 1100) = fail f

/-- The record of the exchanges of one call. -/
abbrev Asked (reqs : List Bytes) (arrivals : List (Arrival Bytes)) : MapSocket → Prop :=
  Recorded attempts attemptTimeout (fun q => q ∈ reqs) arrivals

variable {reqs : List Bytes} {req : Bytes} {parse : Bytes → Outcome ProxyError α}
  {good : α → Prop} {arrivals : List (Arrival Bytes)} {s : MapSocket}

/-- One exchange ends well exactly when it takes an answer to its request. -/
theorem ask_exec (h : Answers g reqs req parse good) (hs : Asked reqs arrivals s)
    (hhonest : ∀ a ∈ arrivals, g.Sends reqs a.datagram) :
    ∃ t e, t.exchanges = s.exchanges ++ [e] ∧ e.request = req ∧ Asked reqs arrivals t ∧
      ((Taken g e ∧ ∃ a, good a ∧ (ask req parse).exec s = (.ok a, t)) ∨
        (¬ Taken g e ∧ ∃ f, (ask req parse).exec s = (fail f, t))) := by
  obtain ⟨t, hexec, hexchanges, -⟩ := exchange_exec (ε := ProxyError)
    (show 0 < attempts by decide) attemptTimeout req s
  have hmaintained := exchange_recorded (ε := ProxyError) (show 0 < attempts by decide) h.mem s hs
  rw [hexec] at hmaintained
  have he : record attempts attemptTimeout req s ∈ t.exchanges := mem_of_follows hexchanges
    (Follows.refl t)
  refine ⟨t, _, hexchanges, rfl, hmaintained, ?_⟩
  cases hgot : (record attempts attemptTimeout req s).got with
  | none =>
    refine Or.inr ⟨?_, .quic "port-mapping server did not respond", ?_⟩
    · rintro ⟨d, hd, -⟩
      rw [hgot] at hd
      cases hd
    · rw [ask, Proc.exec_bind, exchange, Proc.exec_bind, hexec, hgot]
      rfl
  | some d =>
    have hparse : (ask req parse).exec s = (parse (d.take 1100), t) := by
      rw [ask, Proc.exec_bind, exchange, Proc.exec_bind, hexec, hgot]
      rfl
    by_cases hreply : g.Replies req d
    · obtain ⟨a, hgood, hok⟩ := h.reads d hreply
      exact Or.inl ⟨⟨d, hgot, hreply⟩, a, hgood, by rw [hparse, hok]⟩
    · obtain ⟨a, ha, rfl⟩ := hmaintained.arrival he hgot
      obtain ⟨f, hfail⟩ := h.rejects _ (hhonest a ha) hreply
      refine Or.inr ⟨?_, f, by rw [hparse, hfail]⟩
      rintro ⟨d, hd, htaken⟩
      obtain rfl := Option.some.inj (hgot.symm.trans hd)
      exact hreply htaken

end Asking

section Parsers

/-! The first two bytes of an answer say which of the requests it belongs to. -/

variable {g : Gateway} {clientIp : Ipv4Addr} {nonce : Nonce} {internal : UInt16} {lifetime : Nat}

theorem Gateway.Replies.header {req resp : Bytes} (h : g.Replies req resp) :
    resp.getD 0 0 = req.getD 0 0 ∧ resp.getD 1 0 = req.getD 1 0 + 0x80 := by
  obtain ⟨what, hread, -, hgrants⟩ := h
  obtain ⟨hversion, hopcode⟩ := Request.read_header hread
  rw [hversion, hopcode]
  cases hgrants with
  | pcp => exact ⟨rfl, rfl⟩
  | external => exact ⟨rfl, rfl⟩
  | map => exact ⟨rfl, rfl⟩

theorem requests_header_inj {req other : Bytes}
    (hreq : req ∈ requests clientIp nonce internal lifetime)
    (hother : other ∈ requests clientIp nonce internal lifetime)
    (hversion : other.getD 0 0 = req.getD 0 0)
    (hopcode : other.getD 1 0 + 0x80 = req.getD 1 0 + 0x80) : other = req := by
  simp only [requests, List.mem_cons, List.not_mem_nil, or_false] at hreq hother
  rcases hreq with rfl | rfl | rfl
  · rcases hother with rfl | rfl | rfl
    · rfl
    · cases hversion
    · cases hversion
  · rcases hother with rfl | rfl | rfl
    · cases hversion
    · rfl
    · cases hopcode
  · rcases hother with rfl | rfl | rfl
    · cases hversion
    · cases hopcode
    · rfl

/-- What has the header of an answer to a request and no error code is one. -/
theorem answers_of {α : Type} {parse : Bytes → Outcome ProxyError α} {good : α → Prop} {req : Bytes}
    (hreq : req ∈ requests clientIp nonce internal lifetime)
    (hreads : ∀ d, g.Replies req d → ∃ a, good a ∧ parse d = .ok a)
    (hrejects : ∀ d, (∃ f, parse d = fail f) ∨
      d.getD 0 0 = req.getD 0 0 ∧ d.getD 1 0 = req.getD 1 0 + 0x80 ∧ ¬ Refusal d) :
    Answers g (requests clientIp nonce internal lifetime) req parse good := by
  refine ⟨hreq, ?_, ?_⟩
  · intro d hreply
    rw [List.take_of_length_le hreply.length_le]
    exact hreads d hreply
  · intro d hsends hnot
    rcases hrejects (d.take 1100) with hfail | ⟨hversion, hopcode, haccepted⟩
    · exact hfail
    · rw [getD_take (by decide)] at hversion hopcode
      obtain ⟨other, hother, hreply | ⟨-, hrefusal⟩⟩ := hsends
      · obtain rfl := requests_header_inj hreq hother (hreply.header.1.symm.trans hversion)
          (hreply.header.2.symm.trans hopcode)
        exact absurd hreply hnot
      · exact absurd hrefusal.take haccepted

theorem NatpmpAnswer.not_refusal {size : Nat} {answer : UInt8} {resp : Bytes}
    (h : NatpmpAnswer size answer resp) : ¬ Refusal resp := by
  rintro (⟨-, hresult⟩ | ⟨hversion, -⟩)
  · exact hresult h.success
  · exact absurd (h.version.symm.trans hversion) (by decide)

theorem PcpMap.not_refusal {resp : Bytes} {ip : Ipv4Addr} (h : PcpMap resp nonce ip) :
    ¬ Refusal resp := by
  rintro (⟨hversion, -⟩ | ⟨-, hresult⟩)
  · exact absurd (h.version.symm.trans hversion) (by decide)
  · exact hresult h.success

variable (g clientIp nonce internal lifetime)

theorem answers_pcp :
    Answers g (requests clientIp nonce internal lifetime)
      (pcpMapRequest clientIp nonce internal 0 (leaseSecs lifetime))
      (fun resp => parsePcpMap resp nonce)
      (fun a => a.1 = g.externalIp ∧ ∃ external, g.created internal external ∧
        a.2.1 = external.toNat) := by
  refine answers_of List.mem_cons_self ?_ ?_
  · intro d hreply
    cases hreply.grants (Request.read_pcpMapRequest ..) with
    | pcp _ _ external granted epoch hcreated =>
      exact ⟨_, ⟨rfl, external, hcreated, rfl⟩,
        parsePcpMap_response nonce internal external g.externalIp granted epoch⟩
  · intro d
    refine (parsePcpMap_cases d nonce).imp_right ?_
    rintro ⟨ip, h⟩
    exact ⟨h.version, h.opcode, h.not_refusal⟩

theorem answers_external :
    Answers g (requests clientIp nonce internal lifetime) natpmpExternalRequest
      parseNatpmpExternal (fun ip => ip = g.externalIp) := by
  refine answers_of (by simp [requests]) ?_ ?_
  · intro d hreply
    cases hreply.grants Request.read_natpmpExternalRequest with
    | external epoch => exact ⟨_, rfl, parseNatpmpExternal_response epoch g.externalIp⟩
  · intro d
    exact (parseNatpmp_cases (by decide)).imp_right fun h => ⟨h.version, h.opcode, h.not_refusal⟩

theorem answers_map :
    Answers g (requests clientIp nonce internal lifetime)
      (natpmpMapRequest internal 0 (leaseSecs lifetime)) parseNatpmpMap
      (fun a => ∃ external, g.created internal external ∧ a.2.1 = external.toNat) := by
  refine answers_of (by simp [requests]) ?_ ?_
  · intro d hreply
    cases hreply.grants (Request.read_natpmpMapRequest ..) with
    | map _ external granted epoch hcreated =>
      exact ⟨_, ⟨external, hcreated, rfl⟩,
        parseNatpmpMap_response epoch internal external granted⟩
  · intro d
    exact (parseNatpmp_cases (by decide)).imp_right fun h => ⟨h.version, h.opcode, h.not_refusal⟩

end Parsers

section Runs

variable {g : Gateway} {clientIp : Ipv4Addr} {nonce : Nonce} {internal : UInt16} {lifetime : Nat}
  {arrivals : List (Arrival Bytes)} {s : MapSocket}

/-- The mapping is one the gateway created for the internal port. -/
def Installed (g : Gateway) (internal : UInt16) (m : Mapping) : Prop :=
  ∃ external, g.created internal external ∧ m.external = .v4 g.externalIp external

/-- How the two NAT-PMP exchanges end, by what they took. -/
theorem mapNatpmp_exec (hs : Asked (requests clientIp nonce internal lifetime) arrivals s)
    (hhonest : ∀ a ∈ arrivals, g.Sends (requests clientIp nonce internal lifetime) a.datagram) :
    ∃ o t e₂, (mapNatpmp internal (leaseSecs lifetime)).exec s = (o, t) ∧
      Asked (requests clientIp nonce internal lifetime) arrivals t ∧ e₂.request = natpmpExternalRequest ∧
      ((¬ Taken g e₂ ∧ t.exchanges = s.exchanges ++ [e₂] ∧ ∃ f, o = fail f) ∨
        (Taken g e₂ ∧ ∃ e₃, t.exchanges = s.exchanges ++ [e₂, e₃] ∧
          e₃.request = natpmpMapRequest internal 0 (leaseSecs lifetime) ∧
          ((Taken g e₃ ∧ ∃ m, Installed g internal m ∧ o = .ok m) ∨
            (¬ Taken g e₃ ∧ ∃ f, o = fail f)))) := by
  obtain ⟨t₂, e₂, ht₂, hreq₂, hs₂, htaken₂ | htaken₂⟩ :=
    ask_exec (answers_external g clientIp nonce internal lifetime) hs hhonest
  · obtain ⟨htaken₂, ip, hip, hexec₂⟩ := htaken₂
    obtain ⟨t₃, e₃, ht₃, hreq₃, hs₃, htaken₃ | htaken₃⟩ :=
      ask_exec (answers_map g clientIp nonce internal lifetime) hs₂ hhonest
    · obtain ⟨htaken₃, a, ⟨external, hcreated, hport⟩, hexec₃⟩ := htaken₃
      refine ⟨.ok ⟨SocketAddr.new (.v4 ip) (UInt16.ofNat a.2.1), a.2.2⟩, t₃, e₂, ?_, hs₃, hreq₂,
        Or.inr ⟨htaken₂, e₃, ?_, hreq₃, Or.inl ⟨htaken₃, _, ?_, rfl⟩⟩⟩
      · rw [mapNatpmp, Proc.exec_bind, hexec₂]
        dsimp only
        rw [Proc.exec_bind, hexec₃]
        rfl
      · rw [ht₃, ht₂, List.append_assoc]
        rfl
      · exact ⟨external, hcreated, by rw [hip, hport, UInt16.ofNat_toNat]; rfl⟩
    · obtain ⟨htaken₃, f, hexec₃⟩ := htaken₃
      refine ⟨fail f, t₃, e₂, ?_, hs₃, hreq₂, Or.inr ⟨htaken₂, e₃, ?_, hreq₃,
        Or.inr ⟨htaken₃, f, rfl⟩⟩⟩
      · rw [mapNatpmp, Proc.exec_bind, hexec₂]
        dsimp only
        rw [Proc.exec_bind, hexec₃]
        rfl
      · rw [ht₃, ht₂, List.append_assoc]
        rfl
  · obtain ⟨htaken₂, f, hexec₂⟩ := htaken₂
    refine ⟨fail f, t₂, e₂, ?_, hs₂, hreq₂, Or.inl ⟨htaken₂, ht₂, f, rfl⟩⟩
    rw [mapNatpmp, Proc.exec_bind, hexec₂]
    rfl

/-- How a call ends, by what its exchanges took. -/
theorem mapUdpVia_exec (hnew : s.exchanges = [])
    (hhonest : ∀ a ∈ s.arrivals, g.Sends (requests clientIp nonce internal lifetime) a.datagram) :
    ∃ o t e₁, (mapUdpVia (.v4 clientIp) nonce internal lifetime).exec s = (o, t) ∧
      Asked (requests clientIp nonce internal lifetime) s.arrivals t ∧
      e₁.request = pcpMapRequest clientIp nonce internal 0 (leaseSecs lifetime) ∧
      ((Taken g e₁ ∧ t.exchanges = [e₁] ∧ ∃ m, Installed g internal m ∧ o = .ok m) ∨
        (¬ Taken g e₁ ∧ ∃ e₂, e₂.request = natpmpExternalRequest ∧
          ((¬ Taken g e₂ ∧ t.exchanges = [e₁, e₂] ∧ ∃ f, o = fail f) ∨
            (Taken g e₂ ∧ ∃ e₃, t.exchanges = [e₁, e₂, e₃] ∧
              e₃.request = natpmpMapRequest internal 0 (leaseSecs lifetime) ∧
              ((Taken g e₃ ∧ ∃ m, Installed g internal m ∧ o = .ok m) ∨
                (¬ Taken g e₃ ∧ ∃ f, o = fail f)))))) := by
  obtain ⟨t₁, e₁, ht₁, hreq₁, hs₁, htaken₁ | htaken₁⟩ :=
    ask_exec (answers_pcp g clientIp nonce internal lifetime) (recorded_of_new hnew) hhonest
  · obtain ⟨htaken₁, a, ⟨hip, external, hcreated, hport⟩, hexec₁⟩ := htaken₁
    refine ⟨.ok ⟨SocketAddr.new (.v4 a.1) (UInt16.ofNat a.2.1), a.2.2⟩, t₁, e₁, ?_, hs₁, hreq₁,
      Or.inl ⟨htaken₁, by rw [ht₁, hnew]; rfl, _, ?_, rfl⟩⟩
    · rw [mapUdpVia, Proc.exec_bind, Proc.exec_attempt, hexec₁]
      rfl
    · exact ⟨external, hcreated, by rw [hip, hport, UInt16.ofNat_toNat]; rfl⟩
  · obtain ⟨htaken₁, f, hexec₁⟩ := htaken₁
    obtain ⟨o, t, e₂, hexec, ht, hreq₂, hcases⟩ := mapNatpmp_exec hs₁ hhonest
    rw [ht₁, hnew, List.nil_append] at hcases
    refine ⟨o, t, e₁, ?_, ht, hreq₁, Or.inr ⟨htaken₁, e₂, hreq₂, hcases⟩⟩
    rw [mapUdpVia, Proc.exec_bind, Proc.exec_attempt, hexec₁]
    exact hexec

/-- A correct answer to the request reaches the socket within the attempts. -/
def InTime (g : Gateway) (e : Exchange Bytes Bytes) : Prop :=
  ∃ d ∈ e.arrived attempts attemptTimeout, g.Replies e.request d

/-- The first datagram of the exchange is a correct answer to its request. -/
def ReplyFirst (g : Gateway) (e : Exchange Bytes Bytes) : Prop :=
  ∃ d, (e.arrived attempts attemptTimeout).head? = some d ∧ g.Replies e.request d

/-- Answers to other requests do no harm where the right one comes in time. -/
structure Robust (g : Gateway) (run : Outcome ProxyError Mapping × MapSocket) : Prop where
  taken : ∀ e ∈ run.2.exchanges, InTime g e → Taken g e
  mapped : (g.pcp = true ∨ g.natpmp = true) →
    (∀ e ∈ run.2.exchanges, g.Supports e.request → InTime g e) → ∃ m, run.1 = .ok m

/-- A call in which every answered exchange takes its own answer finds a mapping. -/
theorem mapUdpVia_ok (hnew : s.exchanges = [])
    (hhonest : ∀ a ∈ s.arrivals, g.Sends (requests clientIp nonce internal lifetime) a.datagram)
    (hspeaks : g.pcp = true ∨ g.natpmp = true)
    (htaken : ∀ e ∈ ((mapUdpVia (.v4 clientIp) nonce internal lifetime).exec s).2.exchanges,
      g.Supports e.request → Taken g e) :
    ∃ m, ((mapUdpVia (.v4 clientIp) nonce internal lifetime).exec s).1 = .ok m := by
  obtain ⟨o, t, e₁, hexec, -, hreq₁, hcases⟩ := mapUdpVia_exec hnew hhonest
  rw [hexec] at htaken ⊢
  rcases hcases with ⟨-, -, m, -, rfl⟩ | ⟨hnot₁, e₂, hreq₂, hcases⟩
  · exact ⟨m, rfl⟩
  -- the gateway does not speak PCP, so it speaks NAT-PMP
  have hnatpmp (h₁ : e₁ ∈ t.exchanges) : g.natpmp = true := by
    rcases hspeaks with hpcp | hnatpmp
    · refine absurd (htaken e₁ h₁ ?_) hnot₁
      rw [hreq₁]
      exact ⟨_, Request.read_pcpMapRequest .., hpcp⟩
    · exact hnatpmp
  rcases hcases with ⟨hnot₂, ht, -⟩ | ⟨-, e₃, ht, hreq₃, ⟨-, m, -, rfl⟩ | ⟨hnot₃, -⟩⟩
  · refine absurd (htaken e₂ (by rw [ht]; simp) ?_) hnot₂
    rw [hreq₂]
    exact ⟨_, Request.read_natpmpExternalRequest, hnatpmp (by rw [ht]; simp)⟩
  · exact ⟨m, rfl⟩
  · refine absurd (htaken e₃ (by rw [ht]; simp) ?_) hnot₃
    rw [hreq₃]
    exact ⟨_, Request.read_natpmpMapRequest .., hnatpmp (by rw [ht]; simp)⟩

/-- A call survives a schedule exactly when, in each of its exchanges that is answered in
time, nothing comes ahead of the answer. A mapping that it returns is always one the
gateway created for the port. -/
theorem mapUdpVia_robust (g : Gateway) (clientIp : Ipv4Addr) (nonce : Nonce) (internal : UInt16)
    (lifetime : Nat) (s : MapSocket) (hnew : s.exchanges = [])
    (hhonest : ∀ a ∈ s.arrivals,
      g.Sends (requests clientIp nonce internal lifetime) a.datagram) :
    (Robust g ((mapUdpVia (.v4 clientIp) nonce internal lifetime).exec s) ↔
      ∀ e ∈ ((mapUdpVia (.v4 clientIp) nonce internal lifetime).exec s).2.exchanges,
        InTime g e → ReplyFirst g e) ∧
      ∀ m, ((mapUdpVia (.v4 clientIp) nonce internal lifetime).exec s).1 = .ok m →
        Installed g internal m := by
  obtain ⟨o, t, e₁, hexec, hasked, -, hcases⟩ := mapUdpVia_exec hnew hhonest
  have hfirst : ∀ e ∈ t.exchanges, Taken g e ↔ ReplyFirst g e := by
    intro e he
    rw [Taken, ReplyFirst, hasked.got e he]
  constructor
  · constructor
    · intro h e he hin
      rw [hexec] at h he
      exact (hfirst e he).mp (h.taken e he hin)
    · intro h
      have htaken : ∀ e ∈ ((mapUdpVia (.v4 clientIp) nonce internal lifetime).exec s).2.exchanges,
          InTime g e → Taken g e := by
        intro e he hin
        have hreply := h e he hin
        rw [hexec] at he
        exact (hfirst e he).mpr hreply
      refine ⟨htaken, ?_⟩
      intro hspeaks hin
      apply mapUdpVia_ok hnew hhonest hspeaks
      intro e he hsupports
      exact htaken e he (hin e he hsupports)
  · intro m hm
    rw [hexec] at hm
    obtain rfl : o = .ok m := hm
    rcases hcases with ⟨-, -, m', hinstalled, hm'⟩ | ⟨-, e₂, -, ⟨-, -, f, hfail⟩ | hcases⟩
    · cases hm'
      exact hinstalled
    · cases hfail
    · obtain ⟨-, e₃, -, -, ⟨-, m', hinstalled, hm'⟩ | ⟨-, f, hfail⟩⟩ := hcases
      · cases hm'
        exact hinstalled
      · cases hfail

end Runs

/-! A gateway that speaks NAT-PMP only and forwards its port 50000 to the port 41000 -/

def testGateway : Gateway := ⟨false, true, 0xCB007109#32, fun i e => i = 41000 ∧ e = 50000⟩

def testNonce : Nonce := ⟨List.replicate 12 5, rfl⟩

def testRequests : List Bytes := requests 0x0A000002#32 testNonce 41000 3600

/-- "Unsupported version". -/
def versionRefusal : Bytes := [0, 129, 0, 1, 0, 0, 0, 9]

def externalReply : Bytes := natpmpExternalResponse 9 testGateway.externalIp

def mapReply : Bytes := natpmpMapResponse 9 41000 50000 3600

theorem not_supports_pcp {clientIp : Ipv4Addr} {nonce : Nonce} {internal suggested : UInt16}
    {lifetime : UInt32} :
    ¬ testGateway.Supports (pcpMapRequest clientIp nonce internal suggested lifetime) := by
  rintro ⟨req, hread, hspeaks⟩
  rw [Request.read_pcpMapRequest] at hread
  cases hread
  cases hspeaks

theorem sends_versionRefusal : testGateway.Sends testRequests versionRefusal :=
  ⟨_, List.mem_cons_self, Or.inr ⟨not_supports_pcp, Or.inl ⟨rfl, by decide⟩⟩⟩

theorem replies_external : testGateway.Replies natpmpExternalRequest externalReply :=
  ⟨_, Request.read_natpmpExternalRequest, rfl, .external 9⟩

theorem replies_map (lifetime : UInt32) :
    testGateway.Replies (natpmpMapRequest 41000 0 lifetime) mapReply :=
  ⟨_, Request.read_natpmpMapRequest .., rfl, .map 41000 50000 3600 9 ⟨rfl, rfl⟩⟩

theorem sends_of_replies {req resp : Bytes} (hreq : req ∈ testRequests)
    (h : testGateway.Replies req resp) : testGateway.Sends testRequests resp :=
  ⟨req, hreq, Or.inl h⟩

def promptSocket : MapSocket :=
  ⟨0, [⟨20, versionRefusal⟩, ⟨40, externalReply⟩, ⟨60, mapReply⟩], [], []⟩

theorem promptSocket_honest : ∀ a ∈ promptSocket.arrivals,
    testGateway.Sends testRequests a.datagram := by
  intro a ha
  simp only [promptSocket, List.mem_cons, List.not_mem_nil, or_false] at ha
  rcases ha with rfl | rfl | rfl
  · exact sends_versionRefusal
  · exact sends_of_replies (by simp [testRequests, requests]) replies_external
  · exact sends_of_replies (by simp [testRequests, requests]) (replies_map (leaseSecs 3600))

theorem mapUdpVia_robust_prompt :
    ((mapUdpVia (.v4 0x0A000002#32) testNonce 41000 3600).exec promptSocket).1 =
      .ok ⟨.v4 0xCB007109#32 50000, 3600⟩ ∧
    Robust testGateway
      ((mapUdpVia (.v4 0x0A000002#32) testNonce 41000 3600).exec promptSocket) := by
  refine ⟨by decide +kernel, (mapUdpVia_robust testGateway 0x0A000002#32 testNonce 41000 3600
    promptSocket rfl promptSocket_honest).1.mpr ?_⟩
  have hexchanges :
      ((mapUdpVia (.v4 0x0A000002#32) testNonce 41000 3600).exec promptSocket).2.exchanges =
        [⟨pcpMapRequest 0x0A000002#32 testNonce 41000 0 3600, 0, promptSocket.arrivals,
            some versionRefusal⟩,
          ⟨natpmpExternalRequest, 20, [⟨40, externalReply⟩, ⟨60, mapReply⟩], some externalReply⟩,
          ⟨natpmpMapRequest 41000 0 3600, 40, [⟨60, mapReply⟩], some mapReply⟩] := rfl
  rw [hexchanges]
  intro e he hin
  simp only [List.mem_cons, List.not_mem_nil, or_false] at he
  rcases he with rfl | rfl | rfl
  · obtain ⟨d, -, req, hread, hspeaks, -⟩ := hin
    exact absurd (show testGateway.Supports _ from ⟨req, hread, hspeaks⟩) not_supports_pcp
  · exact ⟨externalReply, rfl, replies_external⟩
  · exact ⟨mapReply, rfl, replies_map 3600⟩

/-! The request for the external address is sent again at 270, so there are two answers;
the second one is the first datagram after the mapping request. -/

def retriedSocket : MapSocket :=
  ⟨0, [⟨20, versionRefusal⟩, ⟨280, externalReply⟩, ⟨290, externalReply⟩, ⟨300, mapReply⟩], [], []⟩

theorem duplicate_fails_mapping :
    (∀ a ∈ retriedSocket.arrivals, testGateway.Sends testRequests a.datagram) ∧
      ((mapUdpVia (.v4 0x0A000002#32) testNonce 41000 3600).exec retriedSocket).2.sent.map
        Prod.fst = [0, 20, 270, 280] ∧
      (∀ e ∈ ((mapUdpVia (.v4 0x0A000002#32) testNonce 41000 3600).exec retriedSocket).2.exchanges,
        testGateway.Supports e.request → InTime testGateway e) ∧
      ((mapUdpVia (.v4 0x0A000002#32) testNonce 41000 3600).exec retriedSocket).1 =
        fail (.quic "bad NAT-PMP map response") := by
  refine ⟨?_, by decide +kernel, ?_, by decide +kernel⟩
  · intro a ha
    simp only [retriedSocket, List.mem_cons, List.not_mem_nil, or_false] at ha
    rcases ha with rfl | rfl | rfl | rfl
    · exact sends_versionRefusal
    · exact sends_of_replies (by simp [testRequests, requests]) replies_external
    · exact sends_of_replies (by simp [testRequests, requests]) replies_external
    · exact sends_of_replies (by simp [testRequests, requests]) (replies_map (leaseSecs 3600))
  · have hexchanges :
        ((mapUdpVia (.v4 0x0A000002#32) testNonce 41000 3600).exec retriedSocket).2.exchanges =
          [⟨pcpMapRequest 0x0A000002#32 testNonce 41000 0 3600, 0, retriedSocket.arrivals,
              some versionRefusal⟩,
            ⟨natpmpExternalRequest, 20, retriedSocket.arrivals.drop 1, some externalReply⟩,
            ⟨natpmpMapRequest 41000 0 3600, 280, retriedSocket.arrivals.drop 2,
              some externalReply⟩] := rfl
    rw [hexchanges]
    intro e he hsupports
    simp only [List.mem_cons, List.not_mem_nil, or_false] at he
    rcases he with rfl | rfl | rfl
    · exact absurd hsupports not_supports_pcp
    · exact ⟨externalReply, List.mem_cons_self, replies_external⟩
    · exact ⟨mapReply, List.mem_cons_of_mem _ List.mem_cons_self, replies_map 3600⟩

end Straw.Portmap
