import Straw.Session.Auth
import Straw.Session.Scope
import Straw.Uri.RoundTrip

/-!
# The request that opens a tunnel

The client writes its target into the path and its credentials into a header field; the
server validates the request, authenticates it and resolves its routes before it serves
it. What the server makes of the client's request depends on the target and on the
credentials alone.
-/

namespace Straw

open Outcome Text Percent UriTemplate
set_option autoImplicit false

inductive Method where
  | connect
  | other (name : String)
deriving DecidableEq

structure Request where
  method : Method
  /-- The `:protocol` pseudo-header. -/
  protocol : Option String
  path : String
  headers : HeaderMap

def connectIpProtocol : String := "connect-ip"
def connectUdpProtocol : String := "connect-udp"

namespace Request

def headerIs (req : Request) (name value : String) : Bool :=
  match req.headers.get name with
  | none => false
  | some field =>
    match HeaderValue.toStr field with
    | none => false
    | some text => trim isWhitespace text.toList = value.toList

/-- What both handlers ask of the method and of the protocol. -/
def checkProtocol (req : Request) (expected missing : String) : Except ProxyError Unit :=
  match req.method with
  | .other name => .error (.invalidRequest ("expected CONNECT, got " ++ name))
  | .connect =>
    match req.protocol with
    | none => .error (.invalidRequest missing)
    | some protocol =>
      if protocol = expected then .ok ()
      else .error (.invalidRequest ("unsupported :protocol " ++ protocol))

def checkHeader (req : Request) (name : String) : Except ProxyError Unit :=
  if req.headerIs name "?1" then .ok ()
  else .error (.invalidRequest (name ++ ": ?1 header required"))

/-- `validate_request` of the CONNECT-IP handler. -/
def validateRequest (req : Request) : Except ProxyError RequestScope := do
  req.checkProtocol connectIpProtocol ":protocol pseudo-header missing"
  req.checkHeader "capsule-protocol"
  parseConnectIpPath req.path

end Request

inductive StatusCode where
  | badRequest
  | unauthorized
  | internalServerError
  | notImplemented
  | badGateway
  | serviceUnavailable
deriving DecidableEq

structure Refusal where
  status : StatusCode
  error : ProxyError

structure Grant where
  scope : RequestScope
  auth : Auth.AuthContext
  routes : List IpAddressRange

/-- What the server judges requests by. -/
structure Gate where
  base64 : Base64
  sha256 : Bytes → Bytes
  auth : Auth.Authenticator
  routes : RouteConfig

/-- `handle_connect_ip_stream` up to the session table. -/
def Gate.judge (gate : Gate) (pool : AddressPool) (resolver : Resolver) (req : Request)
    (peerCert : Option Bytes) : Except Refusal Grant :=
  match req.validateRequest with
  | .error e =>
    let status : StatusCode :=
      match e with
      | .invalidRequest _ => .badRequest
      | _ => .internalServerError
    .error ⟨status, e⟩
  | .ok scope =>
    match gate.auth.authenticate gate.base64 gate.sha256 req.headers peerCert with
    | .error e => .error ⟨.unauthorized, e⟩
    | .ok auth =>
      match resolveAdvertisedRoutes gate.routes pool resolver scope with
      | .error e =>
        let status : StatusCode :=
          match e with
          | .dnsFailure _ => .badGateway
          | _ => .badRequest
        .error ⟨status, e⟩
      | .ok routes => .ok ⟨scope, auth, routes⟩

theorem Gate.judge_eq_ok_iff {gate : Gate} {pool : AddressPool} {resolver : Resolver}
    {req : Request} {peerCert : Option Bytes} {grant : Grant} :
    gate.judge pool resolver req peerCert = .ok grant ↔
      req.validateRequest = .ok grant.scope ∧
      gate.auth.authenticate gate.base64 gate.sha256 req.headers peerCert = .ok grant.auth ∧
      resolveAdvertisedRoutes gate.routes pool resolver grant.scope = .ok grant.routes := by
  obtain ⟨scope, auth, routes⟩ := grant
  unfold judge
  cases req.validateRequest with
  | error e => simp
  | ok scope' =>
    cases gate.auth.authenticate gate.base64 gate.sha256 req.headers peerCert with
    | error e => simp
    | ok auth' =>
      simp only
      cases hroutes : resolveAdvertisedRoutes gate.routes pool resolver scope' with
      | error e =>
        simp only [reduceCtorEq, Except.ok.injEq, false_iff]
        rintro ⟨rfl, -, hok⟩
        rw [hroutes] at hok
        cases hok
      | ok routes' =>
        simp only [Except.ok.injEq, Grant.mk.injEq]
        constructor
        · rintro ⟨rfl, rfl, rfl⟩
          exact ⟨rfl, rfl, hroutes⟩
        · rintro ⟨rfl, rfl, hok⟩
          rw [hroutes] at hok
          exact ⟨rfl, rfl, Except.ok.inj hok⟩

theorem Gate.judge_error_cases {gate : Gate} {pool : AddressPool} {resolver : Resolver}
    {req : Request} {peerCert : Option Bytes} {refusal : Refusal}
    (h : gate.judge pool resolver req peerCert = .error refusal) :
    (req.validateRequest = .error refusal.error ∧
        ∀ message, refusal.error = .invalidRequest message → refusal.status = .badRequest) ∨
      (∃ scope, req.validateRequest = .ok scope ∧
        gate.auth.authenticate gate.base64 gate.sha256 req.headers peerCert = .error refusal.error ∧
        refusal.status = .unauthorized) ∨
      ∃ scope context, req.validateRequest = .ok scope ∧
        gate.auth.authenticate gate.base64 gate.sha256 req.headers peerCert = .ok context ∧
        resolveAdvertisedRoutes gate.routes pool resolver scope = .error refusal.error ∧
        ∀ message, refusal.error = .dnsFailure message → refusal.status = .badGateway := by
  unfold judge at h
  split at h
  · next e hasked =>
    obtain rfl := Except.error.inj h
    refine .inl ⟨hasked, ?_⟩
    rintro message rfl
    rfl
  · next scope hasked =>
    split at h
    · next e hcheck =>
      obtain rfl := Except.error.inj h
      exact .inr (.inl ⟨scope, hasked, hcheck, rfl⟩)
    · next context hcheck =>
      split at h
      · next e hroutes =>
        obtain rfl := Except.error.inj h
        refine .inr (.inr ⟨scope, context, hasked, hcheck, hroutes, ?_⟩)
        rintro message rfl
        rfl
      · cases h

/-! The client -/

namespace Client

/-- The bytes that a path may have unescaped. -/
def isPathChar (c : Char) : Bool :=
  c.toNat = 0x21 || (0x24 ≤ c.toNat && c.toNat ≤ 0x3b) || c.toNat = 0x3d ||
    (0x40 ≤ c.toNat && c.toNat ≤ 0x5f) || (0x61 ≤ c.toNat && c.toNat ≤ 0x7a) ||
    c.toNat = 0x7c || c.toNat = 0x7e

/-- The URI type of the `http` crate: the path of a URI with the given text behind its
authority, or the text of its error. -/
structure UriParser where
  path : String → Except String String
  path_plain : ∀ text : String, text.toList.all isPathChar = true → path text = .ok text

/-- The request that `Tunnel::establish` sends. -/
def connectRequest (base64 : Base64) (uri : UriParser) (auth : Auth.ClientAuth)
    (target : Option String) (ipproto : Option UInt8) : Except ProxyError Request :=
  match uri.path (tunnelPath target ipproto), Auth.establishBuilder base64 auth with
  | .error e, _ => .error (.invalidRequest e)
  | .ok _, .error e => .error (.invalidRequest e)
  | .ok path, .ok headers => .ok ⟨.connect, some connectIpProtocol, path, headers⟩

/-- The scope that the client asks for. -/
def askedScope (target : Option String) (ipproto : Option UInt8) :
    Except ProxyError RequestScope :=
  match target with
  | none => .ok ⟨none, ipproto⟩
  | some t => (classify t.toList).map fun target => ⟨some target, ipproto⟩

/-- A target that a URI takes and that no percent sign makes ambiguous. -/
structure Expressible (t : String) : Prop where
  ne_empty : t ≠ ""
  ne_star : t ≠ "*"
  allowed : t.toList.all isPathChar = true
  unambiguous : ¬ Occurs AmbiguousAt t.toList

end Client

section Path

open Client

theorem all_isPathChar_encode {value : List Char} (h : value.all isPathChar = true) :
    (encodeTemplateValue value).all isPathChar = true := by
  have hreplace : ∀ (c : Char) (text : String) (value : List Char),
      text.toList.all isPathChar = true → value.all isPathChar = true →
      (replace c text value).all isPathChar = true := by
    intro c text value htext hvalue
    simp only [List.all_eq_true, replace, List.mem_flatMap] at *
    rintro d ⟨b, hb, hd⟩
    split at hd
    · exact htext d hd
    · exact List.mem_singleton.mp hd ▸ hvalue b hb
  exact hreplace _ _ _ (by decide) (hreplace _ _ _ (by decide) h)

theorem all_isPathChar_toString (p : UInt8) :
    (toString p.toNat).toList.all isPathChar = true := by
  have key : ∀ n : Fin 256, (toString n.val).toList.all isPathChar = true := by decide +kernel
  exact key ⟨p.toNat, p.toNat_lt⟩

theorem all_isPathChar_tunnelPath {t : String} (h : t.toList.all isPathChar = true)
    (ipproto : Option UInt8) : (tunnelPath (some t) ipproto).toList.all isPathChar = true := by
  have hencoded := all_isPathChar_encode h
  have hslash : "/".toList.all isPathChar = true := by decide
  have hstar : "*".toList.all isPathChar = true := by decide
  have hprefix : pathPrefix.toList.all isPathChar = true := by decide
  cases ipproto with
  | none =>
    simp only [tunnelPath, String.toList_append, List.all_append, String.toList_ofList, hprefix,
      hencoded, hslash, hstar, Bool.and_self]
  | some p =>
    simp only [tunnelPath, String.toList_append, List.all_append, String.toList_ofList, hprefix,
      hencoded, hslash, all_isPathChar_toString p, Bool.and_self]

/-- Without a target the path has the wildcard in its place. -/
theorem tunnelPath_none (ipproto : Option UInt8) :
    tunnelPath none ipproto = tunnelPath (some "*") ipproto := by
  have hstar : String.ofList (encodeTemplateValue "*".toList) = "*" := by decide
  simp only [tunnelPath, hstar]

theorem parse_wildcard (ipproto : Option UInt8) :
    parseConnectIpPath (tunnelPath none ipproto) = .ok ⟨none, ipproto⟩ := by
  obtain ⟨segment, hpath, hproto, hslash, hparse⟩ := ipproto_segment ipproto
  have hstar : encodeTemplateValue "*".toList = ['*'] := by decide
  have hsegments : Segments (tunnelPath none ipproto).toList ['*'] segment.toList := by
    refine ⟨.inr ?_, List.cons_ne_nil _ _, hproto, hslash⟩
    rw [tunnelPath_none, hpath, hstar]
    simp [String.toList_append]
  rw [parseConnectIpPath_of_segments hsegments, hparse]
  rfl

theorem parse_asked {target : Option String} (h : ∀ t, target = some t → Expressible t)
    (ipproto : Option UInt8) :
    parseConnectIpPath (tunnelPath target ipproto) = askedScope target ipproto := by
  cases target with
  | none => exact parse_wildcard ipproto
  | some t =>
    have ht := h t rfl
    rw [parse_tunnelPath ipproto ht.ne_empty ht.ne_star,
      decode_encode_of_unambiguous ht.unambiguous]
    rfl

theorem path_tunnelPath (uri : UriParser) {target : Option String}
    (h : ∀ t, target = some t → Expressible t) (ipproto : Option UInt8) :
    uri.path (tunnelPath target ipproto) = .ok (tunnelPath target ipproto) := by
  refine uri.path_plain _ ?_
  cases target with
  | none =>
    rw [tunnelPath_none]
    exact all_isPathChar_tunnelPath (by decide) ipproto
  | some t => exact all_isPathChar_tunnelPath (h t rfl).allowed ipproto

end Path

section Handshake

open Client

theorem applyAuth_get_capsule {base64 : Base64} {auth : Auth.ClientAuth} {sent : HeaderMap}
    (h : Auth.applyAuth base64 (.ok [("capsule-protocol", asBytes "?1")]) auth = .ok sent) :
    sent.get "capsule-protocol" = some (asBytes "?1") := by
  have hfirst : ∀ more : HeaderMap,
      HeaderMap.get ([("capsule-protocol", asBytes "?1")] ++ more) "capsule-protocol" =
        some (asBytes "?1") := by
    intro more
    rw [HeaderMap.get, List.singleton_append, List.lookup_cons_self]
  have hheader : ∀ value, RequestBuilder.header (.ok [("capsule-protocol", asBytes "?1")])
      HeaderMap.authorization value = .ok sent →
        sent.get "capsule-protocol" = some (asBytes "?1") := by
    intro value hsent
    obtain ⟨headers, hheaders, hsent⟩ := bind_eq_ok.mp hsent
    obtain ⟨field, -, hsent⟩ := bind_eq_ok.mp hsent
    obtain rfl := Except.ok.inj hheaders
    obtain rfl := Except.ok.inj hsent
    exact hfirst _
  cases auth with
  | none =>
    obtain rfl := Except.ok.inj h
    exact hfirst []
  | bearer token => exact hheader _ h
  | basic user password => exact hheader _ h

theorem Request.validateRequest_of_header {req : Request} (hmethod : req.method = .connect)
    (hprotocol : req.protocol = some connectIpProtocol)
    (hfield : req.headers.get "capsule-protocol" = some (asBytes "?1")) :
    req.validateRequest = parseConnectIpPath req.path := by
  have hheader : req.checkHeader "capsule-protocol" = .ok () := by
    have hvalue : HeaderValue.toStr (asBytes "?1") = some "?1" := by decide +kernel
    simp only [checkHeader, headerIs, hfield, hvalue]
    rfl
  have hproto : req.checkProtocol connectIpProtocol ":protocol pseudo-header missing" = .ok () := by
    simp only [checkProtocol, hmethod, hprotocol, if_pos]
  rw [validateRequest, hproto, hheader]
  rfl

theorem classify_error_invalidRequest {text : List Char} {e : ProxyError}
    (h : classify text = .error e) : ∃ message, e = .invalidRequest message := by
  unfold classify at h
  split at h
  · split at h
    · exact ⟨_, (Except.error.inj h).symm⟩
    · split at h
      · exact ⟨_, (Except.error.inj h).symm⟩
      · split at h
        · exact ⟨_, (Except.error.inj h).symm⟩
        · cases h
  · split at h <;> cases h

theorem askedScope_error_invalidRequest {target : Option String} {ipproto : Option UInt8}
    {e : ProxyError} (h : askedScope target ipproto = .error e) :
    ∃ message, e = .invalidRequest message := by
  cases target with
  | none => cases h
  | some t =>
    cases hclass : classify t.toList with
    | ok target =>
      rw [askedScope, hclass] at h
      cases h
    | error e' =>
      rw [askedScope, hclass] at h
      obtain rfl := Except.error.inj h
      exact classify_error_invalidRequest hclass

theorem isSome_new_of_le {ip : IpAddr} {len : Nat} (h : len ≤ maxPrefix ip) :
    (IpNet.new ip len).isSome = true := by
  cases ip with
  | v4 a =>
    have hlen : len ≤ 32 := h
    rw [IpNet.new, dif_pos hlen, Option.isSome_some]
  | v6 a =>
    have hlen : len ≤ 128 := h
    rw [IpNet.new, dif_pos hlen, Option.isSome_some]

/-- A prefix that the parser lets through fits its address. -/
theorem isSome_new_of_classify {text : List Char} {ip : IpAddr} {len : Nat}
    (h : classify text = .ok (.prefixed ip len)) : (IpNet.new ip len).isSome = true := by
  unfold classify at h
  split at h
  · split at h
    · cases h
    · split at h
      · cases h
      · split at h
        · cases h
        · next hlen =>
          obtain ⟨rfl, rfl⟩ := Target.prefixed.inj (Except.ok.inj h)
          exact isSome_new_of_le (Nat.le_of_not_lt hlen)
  · split at h
    · obtain ⟨rfl, rfl⟩ := Target.prefixed.inj (Except.ok.inj h)
      exact isSome_new_of_le (Nat.le_refl _)
    · cases h

/-- Resolving what a client asked for fails for host names only, when no address of theirs
is served. -/
theorem resolve_asked_error {config : RouteConfig} {pool : AddressPool} {resolver : Resolver}
    {target : Option String} {ipproto : Option UInt8} {scope : RequestScope} {e : ProxyError}
    (hasked : askedScope target ipproto = .ok scope)
    (h : resolveAdvertisedRoutes config pool resolver scope = .error e) :
    ∃ host message, scope.target = some (.hostname host) ∧ e = .dnsFailure message ∧
      ∀ a, ¬ scope.Reaches config pool resolver a := by
  have hranges : advertisedRanges config pool resolver scope = .error e := by
    unfold resolveAdvertisedRoutes at h
    cases hranges : advertisedRanges config pool resolver scope with
    | error e' =>
      rw [hranges] at h
      exact congrArg Except.error (Except.error.inj h)
    | ok ranges =>
      rw [hranges] at h
      cases h
  unfold advertisedRanges at hranges
  simp only at hranges
  split at hranges
  · split at hranges <;> cases hranges
  · next ip len htarget =>
    cases target with
    | none =>
      obtain rfl := Except.ok.inj hasked
      cases htarget
    | some t =>
      cases hclass : classify t.toList with
      | error e' =>
        rw [askedScope, hclass] at hasked
        cases hasked
      | ok parsed =>
        rw [askedScope, hclass] at hasked
        obtain rfl := Except.ok.inj hasked
        obtain rfl := Option.some.inj htarget
        obtain ⟨net, hnet⟩ := Option.isSome_iff_exists.mp (isSome_new_of_classify hclass)
        rw [hnet] at hranges
        cases hranges
  · next host htarget =>
    split at hranges
    · next message hlookup =>
      refine ⟨host, _, htarget, (Except.error.inj hranges).symm, ?_⟩
      intro a
      rw [RequestScope.Reaches, htarget]
      simp only
      rintro ⟨addrs, haddrs, -⟩
      rw [hlookup] at haddrs
      cases haddrs
    · next addrs hlookup =>
      split at hranges
      · next hempty =>
        refine ⟨host, _, htarget, (Except.error.inj hranges).symm, ?_⟩
        intro a
        rw [RequestScope.Reaches, htarget]
        simp only
        rintro ⟨addrs', haddrs', hmem, hserves⟩
        obtain rfl := Except.ok.inj (hlookup.symm.trans haddrs')
        rw [List.map_eq_nil_iff, List.filter_eq_nil_iff] at hempty
        exact hempty a hmem (by rw [Bool.or_eq_true]; exact hserves)
      · cases hranges

/-- A URI parser that takes nothing but plain paths. -/
def testUri : UriParser where
  path text := if text.toList.all isPathChar then .ok text else .error "invalid uri character"
  path_plain _ h := if_pos h

def testGate : Gate := ⟨.standard, id, ⟨.bearer, ["alpha", "beta"], []⟩, ⟨[], none⟩⟩

end Handshake

end Straw
