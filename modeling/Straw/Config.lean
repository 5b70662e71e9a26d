import Straw.Forwarding.Limiter
import Straw.Session.Auth
import Straw.UdpBind.AllocRuns
import Straw.UdpBind.Policy

/-!
# Configuration of the server

The settings that `run` checks, builds the authenticator and the relay from, or refuses. A
configuration that passes the check can still be refused for its idle timeout, and for
nothing else but what the system says to it.
-/

namespace Straw.Config

open Auth Outcome Text
set_option autoImplicit false

structure ProxyConfig where
  mtu : UInt16
  tun : Bool
  idleTimeoutMs : UInt64
  authMode : AuthMode
  authToken : List String
  authBasic : List String
  clientCa : Option String
  natInterface : Option String
  udpBind : Bool
  udpBindPublicIps : List IpAddr
  udpBindPortLo : UInt16
  udpBindPortHi : UInt16
  udpBindMaxPps : UInt64
  udpBindMaxBps : UInt64
  udpBindAllowDest : List IpNet

namespace ProxyConfig

def default : ProxyConfig where
  mtu := 1400
  tun := false
  idleTimeoutMs := 30000
  authMode := .none
  authToken := []
  authBasic := []
  clientCa := none
  natInterface := none
  udpBind := false
  udpBindPublicIps := []
  udpBindPortLo := 32768
  udpBindPortHi := 60999
  udpBindMaxPps := 0
  udpBindMaxBps := 0
  udpBindAllowDest := []

/-! The check -/

section Check

variable (debug : String → String) (c : ProxyConfig)

/-- The pairs of `--auth-basic`; `debug` is how the standard library quotes a string. -/
def basicCredentials : Except ProxyError (List (String × String)) :=
  c.authBasic.mapM fun entry =>
    match splitOnce ':' entry.toList with
    | some (user, password) => .ok (String.ofList user, String.ofList password)
    | none => .error (.config ("--auth-basic entry " ++ debug entry ++ " is not user:password"))

def checkMtu : Except ProxyError Unit :=
  if c.mtu < 1280 then
    .error (.config ("MTU " ++ toString c.mtu.toNat ++ " is below the IPv6 minimum of 1280"))
  else .ok ()

def checkAuthMode : Except ProxyError Unit :=
  match c.authMode with
  | .bearer =>
    if c.authToken = [] then
      .error (.config "--auth-mode bearer requires at least one --auth-token")
    else .ok ()
  | .basic =>
    if c.authBasic = [] then
      .error (.config "--auth-mode basic requires at least one --auth-basic user:pass")
    else .ok ()
  | .mtls =>
    if c.clientCa = none then .error (.config "--auth-mode mtls requires --client-ca") else .ok ()
  | .none => .ok ()

def checkUdpBind : Except ProxyError Unit :=
  if !c.udpBind then .ok ()
  else if c.authMode = .none then
    .error (.config "--udp-bind requires authentication (no anonymous bind mode)")
  else if c.udpBindPublicIps = [] then
    .error (.config "--udp-bind requires at least one --udp-bind-public-ips")
  else if c.udpBindPortHi < c.udpBindPortLo then .error (.config "udp-bind port range is inverted")
  else .ok ()

def checkNat : Except ProxyError Unit :=
  if c.natInterface.isSome && !c.tun then .error (.config "--nat-interface requires --tun")
  else .ok ()

def validate : Except ProxyError Unit := do
  c.checkMtu
  c.checkAuthMode
  let _ ← c.basicCredentials debug
  c.checkUdpBind
  c.checkNat

end Check

/-- What a configuration that passes the check has. -/
structure Sound (c : ProxyConfig) : Prop where
  mtu : 1280 ≤ c.mtu
  bearer : c.authMode = .bearer → c.authToken ≠ []
  basic : c.authMode = .basic → c.authBasic ≠ []
  mtls : c.authMode = .mtls → c.clientCa ≠ none
  pairs : ∀ entry ∈ c.authBasic, ':' ∈ entry.toList
  closed : c.udpBind = true → c.authMode ≠ .none
  publicIps : c.udpBind = true → c.udpBindPublicIps ≠ []
  ports : c.udpBind = true → c.udpBindPortLo ≤ c.udpBindPortHi
  nat : c.natInterface.isSome = true → c.tun = true

section Checked

variable {debug : String → String} {c : ProxyConfig}

/-- A refusal is passed when its condition does not hold. -/
theorem refuse_eq_ok_iff {p : Prop} [Decidable p] {e : ProxyError} {x : Except ProxyError Unit} :
    (if p then .error e else x) = .ok () ↔ ¬ p ∧ x = .ok () := by
  by_cases hp : p
  · simp [hp]
  · simp [hp]

theorem checkMtu_eq_ok_iff : c.checkMtu = .ok () ↔ 1280 ≤ c.mtu := by
  simp only [checkMtu, refuse_eq_ok_iff, and_true, UInt16.not_lt]

theorem checkAuthMode_eq_ok_iff : c.checkAuthMode = .ok () ↔
    (c.authMode = .bearer → c.authToken ≠ []) ∧ (c.authMode = .basic → c.authBasic ≠ []) ∧
      (c.authMode = .mtls → c.clientCa ≠ none) := by
  unfold checkAuthMode
  cases c.authMode with
  | none => simp
  | bearer => simp
  | basic => simp
  | mtls => simp

theorem basicCredentials_isOk_iff :
    (∃ pairs, c.basicCredentials debug = .ok pairs) ↔ ∀ entry ∈ c.authBasic, ':' ∈ entry.toList := by
  unfold basicCredentials
  induction c.authBasic with
  | nil => simp [pure, Except.pure]
  | cons entry rest ih =>
    rw [List.forall_mem_cons, ← ih]
    simp only [List.mapM_cons, bind_eq_ok]
    cases hsplit : splitOnce ':' entry.toList with
    | none =>
      have habsent := splitOnce_eq_none_iff.mp hsplit
      simp [habsent]
    | some pair =>
      obtain ⟨user, password⟩ := pair
      have hmem : ':' ∈ entry.toList := by
        rw [(splitOnce_eq_some_iff.mp hsplit).1]
        exact List.mem_append_right user List.mem_cons_self
      simp only [hmem, true_and]
      constructor
      · rintro ⟨-, -, -, pairs, hpairs, -⟩
        exact ⟨pairs, hpairs⟩
      · rintro ⟨pairs, hpairs⟩
        exact ⟨_, _, rfl, pairs, hpairs, rfl⟩

/-- Every configured pair is the text of an entry. -/
theorem mem_basicCredentials {pairs : List (String × String)}
    (h : c.basicCredentials debug = .ok pairs) {user password : String}
    (hmem : (user, password) ∈ pairs) : user ++ ":" ++ password ∈ c.authBasic := by
  unfold basicCredentials at h
  generalize c.authBasic = entries at h ⊢
  induction entries generalizing pairs with
  | nil =>
    obtain rfl := Except.ok.inj h
    cases hmem
  | cons entry rest ih =>
    rw [List.mapM_cons] at h
    obtain ⟨pair, hpair, h⟩ := bind_eq_ok.mp h
    obtain ⟨more, hmore, h⟩ := bind_eq_ok.mp h
    obtain rfl := Except.ok.inj h
    rcases List.mem_cons.mp hmem with rfl | hmem
    · cases hsplit : splitOnce ':' entry.toList with
      | none =>
        rw [hsplit] at hpair
        cases hpair
      | some parts =>
        obtain ⟨u, p⟩ := parts
        rw [hsplit] at hpair
        cases hpair
        have hentry : entry = String.ofList u ++ ":" ++ String.ofList p := by
          apply String.toList_injective
          simp [(splitOnce_eq_some_iff.mp hsplit).1]
        rw [← hentry]
        exact List.mem_cons_self
    · exact List.mem_cons_of_mem entry (ih hmem hmore)

theorem checkUdpBind_eq_ok_iff : c.checkUdpBind = .ok () ↔ (c.udpBind = true →
    c.authMode ≠ .none ∧ c.udpBindPublicIps ≠ [] ∧ c.udpBindPortLo ≤ c.udpBindPortHi) := by
  unfold checkUdpBind
  cases c.udpBind with
  | false => simp
  | true => simp only [Bool.not_true, Bool.false_eq_true, if_false, refuse_eq_ok_iff, and_true,
      UInt16.not_lt, true_imp_iff, ne_eq]

theorem checkNat_eq_ok_iff :
    c.checkNat = .ok () ↔ (c.natInterface.isSome = true → c.tun = true) := by
  unfold checkNat
  cases c.natInterface.isSome with
  | false => simp
  | true => simp

theorem validate_eq_ok_iff : c.validate debug = .ok () ↔ c.Sound := by
  have hpairs := @basicCredentials_isOk_iff debug c
  constructor
  · intro h
    obtain ⟨⟨⟩, hmtu, h⟩ := bind_eq_ok.mp h
    obtain ⟨⟨⟩, hmode, h⟩ := bind_eq_ok.mp h
    obtain ⟨pairs, hpair, h⟩ := bind_eq_ok.mp h
    obtain ⟨⟨⟩, hbind, hnat⟩ := bind_eq_ok.mp h
    obtain ⟨hbearer, hbasic, hmtls⟩ := checkAuthMode_eq_ok_iff.mp hmode
    have hbind := checkUdpBind_eq_ok_iff.mp hbind
    exact ⟨checkMtu_eq_ok_iff.mp hmtu, hbearer, hbasic, hmtls, hpairs.mp ⟨pairs, hpair⟩,
      fun h => (hbind h).1, fun h => (hbind h).2.1, fun h => (hbind h).2.2,
      checkNat_eq_ok_iff.mp hnat⟩
  · intro h
    obtain ⟨pairs, hpair⟩ := hpairs.mpr h.pairs
    have hbind := checkUdpBind_eq_ok_iff.mpr
      fun hbind => ⟨h.closed hbind, h.publicIps hbind, h.ports hbind⟩
    simp only [validate, checkMtu_eq_ok_iff.mpr h.mtu,
      checkAuthMode_eq_ok_iff.mpr ⟨h.bearer, h.basic, h.mtls⟩, hpair, hbind, ok_bind]
    exact checkNat_eq_ok_iff.mpr h.nat

theorem default_sound : default.Sound := by
  rw [← @validate_eq_ok_iff id]
  rfl

end Checked

end ProxyConfig

/-! What `run` builds from the configuration -/

/-- Who may use the server, and the state of its relay. -/
structure Startup where
  auth : Authenticator
  allocator : Option PortAllocator
  policy : DestinationPolicy
  egressLimits : RateLimits

namespace ProxyConfig

section Start

variable (debug : String → String) (c : ProxyConfig)

/-- The relay has an allocator exactly when it is enabled. -/
def bindAllocator : Except ProxyError (Option PortAllocator) :=
  if c.udpBind then
    match PortAllocator.new c.udpBindPublicIps c.udpBindPortLo c.udpBindPortHi with
    | .error e => .error (.config e)
    | .ok allocator => .ok (some allocator)
  else .ok none

/-- The check of `build_endpoint`: a QUIC idle timeout is a varint. -/
def checkIdleTimeout : Except ProxyError Unit :=
  if 2 ^ 62 ≤ c.idleTimeoutMs.toNat then .error (.config "idle timeout out of range") else .ok ()

/-- `run` up to its listening socket. The certificate, the device, the NAT rules and the
socket itself are the system's. -/
def start : Except ProxyError Startup := do
  c.validate debug
  let pairs ← c.basicCredentials debug
  c.checkIdleTimeout
  let allocator ← c.bindAllocator
  return {
    auth := ⟨c.authMode, c.authToken, pairs⟩
    allocator
    policy := .new c.udpBindAllowDest []
    egressLimits := ⟨c.udpBindMaxPps, c.udpBindMaxBps⟩ }

end Start

variable {debug : String → String} {c : ProxyConfig}

/-- The relay has the tuples of the configuration to give away, if it has any. -/
theorem exists_bindAllocator (h : c.Sound) :
    ∃ allocator, c.bindAllocator = .ok allocator ∧ ∀ a, allocator = some a →
      c.authMode ≠ .none ∧ a.Cursors ∧ a.ips = c.udpBindPublicIps ∧ a.portLo = c.udpBindPortLo ∧
        a.portHi = c.udpBindPortHi := by
  unfold bindAllocator
  cases hbind : c.udpBind with
  | false => exact ⟨none, rfl, nofun⟩
  | true =>
    obtain ⟨a, hnew, hips, hlo, hhi, hcursors, -⟩ :=
      PortAllocator.new_eq (h.publicIps hbind) (h.ports hbind)
    simp only [if_true, hnew]
    refine ⟨some a, rfl, ?_⟩
    rintro a' ⟨rfl⟩
    exact ⟨h.closed hbind, hcursors, hips, hlo, hhi⟩

theorem checkIdleTimeout_eq_ok_iff :
    c.checkIdleTimeout = .ok () ↔ c.idleTimeoutMs.toNat < 2 ^ 62 := by
  simp only [checkIdleTimeout, refuse_eq_ok_iff, and_true, Nat.not_le]

/-- A configuration that passes the check is refused later exactly for its idle timeout. -/
theorem exists_start_iff (h : c.validate debug = .ok ()) :
    (∃ up, c.start debug = .ok up) ↔ c.idleTimeoutMs.toNat < 2 ^ 62 := by
  have hsound := validate_eq_ok_iff.mp h
  obtain ⟨pairs, hpairs⟩ := (@basicCredentials_isOk_iff debug c).mpr hsound.pairs
  obtain ⟨allocator, hallocator, -⟩ := exists_bindAllocator hsound
  rw [← checkIdleTimeout_eq_ok_iff]
  simp only [start, h, hpairs, hallocator, ok_bind, bind_eq_ok]
  constructor
  · rintro ⟨up, ⟨⟩, hidle, -⟩
    exact hidle
  · intro hidle
    exact ⟨_, (), hidle, rfl⟩

theorem start_eq_ok {up : Startup} (h : c.start debug = .ok up) :
    (∀ a, up.allocator = some a →
      c.authMode ≠ .none ∧ a.Cursors ∧ a.ips = c.udpBindPublicIps ∧ a.portLo = c.udpBindPortLo ∧
        a.portHi = c.udpBindPortHi) ∧
      up.policy = .new c.udpBindAllowDest [] ∧
      ∃ pairs, c.basicCredentials debug = .ok pairs ∧ up.auth = ⟨c.authMode, c.authToken, pairs⟩ := by
  obtain ⟨⟨⟩, hvalid, h⟩ := bind_eq_ok.mp h
  obtain ⟨pairs, hpairs, h⟩ := bind_eq_ok.mp h
  obtain ⟨⟨⟩, -, h⟩ := bind_eq_ok.mp h
  obtain ⟨allocator, hallocator, h⟩ := bind_eq_ok.mp h
  obtain rfl := Except.ok.inj h
  obtain ⟨made, hmade, hspec⟩ := exists_bindAllocator (validate_eq_ok_iff.mp hvalid)
  obtain rfl := Except.ok.inj (hallocator.symm.trans hmade)
  exact ⟨hspec, rfl, pairs, hpairs, rfl⟩

end ProxyConfig

end Straw.Config
