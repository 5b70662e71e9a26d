import Straw.Capsule.Codec
import Straw.Lib.Base64
import Mathlib.Data.List.Forall2

/-!
# Authentication of a request

The client puts its credentials into one header field, the server compares what it reads
there with every configured token or pair. The Base64 engine and the digest of a
certificate are those of other crates and stay parameters.
-/

namespace Straw

set_option autoImplicit false

open Text

/-! Header fields -/

/-- The `HeaderMap` of the `http` crate, as far as its documentation goes: a name is kept in
lower case, a builder's `header` appends, and `get` returns the first value of a name. A
value is made of bytes from 32 on other than 127, or tabs; `to_str` gives it back if all of
its bytes are visible ASCII, blanks or tabs. -/
abbrev HeaderMap := List (String × Bytes)

namespace HeaderMap

def authorization : String := "authorization"

def get (headers : HeaderMap) (name : String) : Option Bytes := headers.lookup name

theorem get_append {headers more : HeaderMap} {name : String} (h : headers.get name = none) :
    HeaderMap.get (headers ++ more) name = more.get name := by
  rw [get] at h
  rw [get, get, List.lookup_append, h, Option.none_or]

end HeaderMap

namespace HeaderValue

def isValid (b : UInt8) : Bool := (32 ≤ b && b ≠ 127) || b = 9

def isVisibleAscii (b : UInt8) : Bool := (32 ≤ b && b < 127) || b = 9

def fromString (value : String) : Except String Bytes :=
  if (asBytes value).all isValid then .ok (asBytes value) else .error "failed to parse header value"

def toStr (value : Bytes) : Option String :=
  if value.all isVisibleAscii then fromUtf8 value else none

theorem isValid_of_isVisibleAscii {b : UInt8} (h : isVisibleAscii b = true) :
    isValid b = true := by
  simp only [isVisibleAscii, Bool.or_eq_true, Bool.and_eq_true, decide_eq_true_eq] at h
  simp only [isValid, Bool.or_eq_true, Bool.and_eq_true, decide_eq_true_eq]
  apply Or.imp_left _ h
  intro hb
  exact ⟨hb.1, UInt8.ne_of_lt hb.2⟩

theorem isVisibleAscii_of_mem {s : String} (h : ∀ c ∈ s.toList, 32 ≤ c.toNat ∧ c.toNat < 127)
    {b : UInt8} (hb : b ∈ asBytes s) : isVisibleAscii b = true := by
  obtain ⟨c, hc, hbc⟩ := mem_asBytes_ascii (fun c hc => by have := h c hc; omega) hb
  obtain ⟨hlow, hhigh⟩ := h c hc
  have h32 : (32 : UInt8) ≤ b := by
    rw [UInt8.le_iff_toNat_le, hbc]
    exact hlow
  have h127 : b < (127 : UInt8) := by
    rw [UInt8.lt_iff_toNat_lt, hbc]
    exact hhigh
  simp only [isVisibleAscii, h32, h127, decide_true, Bool.and_self, Bool.true_or]

theorem fromString_visible {s : String} (h : ∀ c ∈ s.toList, 32 ≤ c.toNat ∧ c.toNat < 127) :
    fromString s = .ok (asBytes s) ∧ toStr (asBytes s) = some s := by
  have hall : (asBytes s).all isVisibleAscii = true :=
    List.all_eq_true.mpr fun b hb => isVisibleAscii_of_mem h hb
  have hvalid : (asBytes s).all isValid = true :=
    List.all_eq_true.mpr fun b hb => isValid_of_isVisibleAscii (isVisibleAscii_of_mem h hb)
  exact ⟨by rw [fromString, if_pos hvalid], by rw [toStr, if_pos hall, fromUtf8_asBytes]⟩

end HeaderValue

/-- The fields of the request so far, or the error that `body` reports. -/
abbrev RequestBuilder := Except String HeaderMap

def RequestBuilder.header (builder : RequestBuilder) (name value : String) : RequestBuilder := do
  let headers ← builder
  let value ← HeaderValue.fromString value
  return headers ++ [(name, value)]

namespace Auth

/-! The client -/

inductive ClientAuth where
  | none
  | bearer (token : String)
  | basic (user password : String)
deriving DecidableEq

section Client
variable (base64 : Base64)

def applyAuth (builder : RequestBuilder) : ClientAuth → RequestBuilder
  | .none => builder
  | .bearer token => builder.header HeaderMap.authorization ("Bearer " ++ token)
  | .basic user password =>
    let encoded := base64.encode (asBytes (user ++ ":" ++ password))
    builder.header HeaderMap.authorization ("Basic " ++ encoded)

/-- The builder of `Tunnel::establish`, which has its own copy of `applyAuth`. -/
def establishBuilder (auth : ClientAuth) : RequestBuilder :=
  let builder := RequestBuilder.header (.ok []) "capsule-protocol" "?1"
  match auth with
  | .none => builder
  | .bearer token => builder.header HeaderMap.authorization ("Bearer " ++ token)
  | .basic user password =>
    let encoded := base64.encode (asBytes (user ++ ":" ++ password))
    builder.header HeaderMap.authorization ("Basic " ++ encoded)

theorem establishBuilder_eq (auth : ClientAuth) :
    establishBuilder base64 auth = applyAuth base64 (.ok [("capsule-protocol", asBytes "?1")]) auth := by
  have hheader : RequestBuilder.header (.ok []) "capsule-protocol" "?1" =
      .ok [("capsule-protocol", asBytes "?1")] := by
    decide +kernel
  cases auth <;> simp only [establishBuilder, applyAuth, hheader]

end Client

/-! The server -/

inductive AuthMode where
  | none
  | bearer
  | basic
  | mtls
deriving DecidableEq

structure AuthContext where
  method : String
  principal : Option String
deriving DecidableEq

structure Authenticator where
  mode : AuthMode
  bearerTokens : List String
  basicCredentials : List (String × String)

/-- The loop looks at every byte, whatever the bytes before it were. -/
def constantTimeEq (a b : Bytes) : Bool :=
  if a.length ≠ b.length then false
  else (a.zip b).foldl (fun diff p => diff ||| (p.1 ^^^ p.2)) 0 = 0

def eqIgnoreAsciiCase (a b : List Char) : Bool := a.map Char.toLower = b.map Char.toLower

def authorizationValue (headers : HeaderMap) (scheme : String) : Option String := do
  let value ← headers.get HeaderMap.authorization
  let value ← HeaderValue.toStr value
  let (s, rest) ← splitOnce ' ' value.toList
  if eqIgnoreAsciiCase s scheme.toList then some (String.ofList (trim isWhitespace rest)) else none

def bearerMatches (tokens : List String) (presented : String) : Bool :=
  tokens.foldl (fun ok token => ok || constantTimeEq (asBytes token) (asBytes presented)) false

def basicMatches (credentials : List (String × String)) (user pass : String) :
    Bool × Option String :=
  credentials.foldl
    (fun acc pair =>
      let hit := constantTimeEq (asBytes pair.1) (asBytes user) &&
        constantTimeEq (asBytes pair.2) (asBytes pass)
      (acc.1 || hit, if hit then some pair.1 else acc.2))
    (false, none)

section Server
variable (base64 : Base64) (sha256 : Bytes → Bytes)

def certFingerprint (cert : Bytes) : String :=
  String.ofList ((sha256 cert).flatMap fun b =>
    [Nat.digitChar (b.toNat / 16), Nat.digitChar (b.toNat % 16)])

/-- Whatever does not decode is refused with one message. -/
def presentedPair (presented : String) : Option (String × String) := do
  let decoded ← base64.decode presented
  let decoded ← fromUtf8 decoded
  let (user, pass) ← splitOnce ':' decoded.toList
  return (String.ofList user, String.ofList pass)

def Authenticator.authenticate (a : Authenticator) (headers : HeaderMap)
    (clientCert : Option Bytes) : Except ProxyError AuthContext :=
  match a.mode with
  | .none => .ok ⟨"none", none⟩
  | .bearer =>
    match authorizationValue headers "Bearer" with
    | none => .error (.authFailed "missing bearer token")
    | some presented =>
      if bearerMatches a.bearerTokens presented then .ok ⟨"bearer", none⟩
      else .error (.authFailed "invalid bearer token")
  | .basic =>
    match authorizationValue headers "Basic" with
    | none => .error (.authFailed "missing basic credentials")
    | some presented =>
      match presentedPair base64 presented with
      | none => .error (.authFailed "malformed basic credentials")
      | some (user, pass) =>
        let found := basicMatches a.basicCredentials user pass
        if found.1 then .ok ⟨"basic", found.2⟩
        else .error (.authFailed "invalid basic credentials")
  | .mtls =>
    match clientCert with
    | none => .error (.authFailed "client certificate required")
    | some cert => .ok ⟨"mtls", some (certFingerprint sha256 cert)⟩

end Server

/-! The comparison loops -/

theorem foldl_diff_eq_zero (l : List (UInt8 × UInt8)) (d : UInt8) :
    l.foldl (fun diff p => diff ||| (p.1 ^^^ p.2)) d = 0 ↔ d = 0 ∧ ∀ p ∈ l, p.1 = p.2 := by
  induction l generalizing d with
  | nil => simp
  | cons p l ih =>
    rw [List.foldl_cons, ih, UInt8.or_eq_zero_iff, UInt8.xor_eq_zero_iff, List.forall_mem_cons,
      and_assoc]

theorem constantTimeEq_iff (a b : Bytes) : constantTimeEq a b = true ↔ a = b := by
  have hforall : List.Forall₂ (· = ·) a b ↔ a = b := by rw [List.forall₂_eq_eq_eq]
  rw [← hforall, List.forall₂_iff_zip]
  unfold constantTimeEq
  by_cases hlen : a.length = b.length
  · rw [if_neg (not_not_intro hlen), decide_eq_true_iff, foldl_diff_eq_zero, Prod.forall]
    simp only [true_and, hlen]
  · rw [if_pos hlen]
    constructor
    · intro h
      exact absurd h Bool.false_ne_true
    · intro h
      exact absurd h.1 hlen

theorem constantTimeEq_asBytes (s t : String) :
    constantTimeEq (asBytes s) (asBytes t) = decide (s = t) := by
  rw [Bool.eq_iff_iff, constantTimeEq_iff, asBytes_inj, decide_eq_true_iff]

theorem bearerMatches_eq (tokens : List String) (presented : String) :
    bearerMatches tokens presented = decide (presented ∈ tokens) := by
  have key : ∀ ok, tokens.foldl
      (fun ok token => ok || constantTimeEq (asBytes token) (asBytes presented)) ok =
        (ok || decide (presented ∈ tokens)) := by
    induction tokens with
    | nil => intro ok; simp
    | cons token tokens ih =>
      intro ok
      rw [List.foldl_cons, ih, constantTimeEq_asBytes, Bool.or_assoc]
      simp [eq_comm]
  rw [bearerMatches, key, Bool.false_or]

/-- The user found is the one presented, wherever the pair stands and however often. -/
theorem basicMatches_eq (credentials : List (String × String)) (user pass : String) :
    basicMatches credentials user pass =
      if (user, pass) ∈ credentials then (true, some user) else (false, none) := by
  have key : ∀ acc : Bool × Option String, credentials.foldl
      (fun acc pair =>
        let hit := constantTimeEq (asBytes pair.1) (asBytes user) &&
          constantTimeEq (asBytes pair.2) (asBytes pass)
        (acc.1 || hit, if hit then some pair.1 else acc.2)) acc =
          if (user, pass) ∈ credentials then (true, some user) else acc := by
    induction credentials with
    | nil => intro acc; rfl
    | cons pair credentials ih =>
      intro acc
      rw [List.foldl_cons, ih]
      by_cases hpair : pair = (user, pass)
      · subst hpair
        simp [constantTimeEq_asBytes]
      · have hhit : (constantTimeEq (asBytes pair.1) (asBytes user) &&
            constantTimeEq (asBytes pair.2) (asBytes pass)) = false := by
          rw [constantTimeEq_asBytes, constantTimeEq_asBytes, ← Bool.decide_and,
            decide_eq_false_iff_not]
          exact mt (fun h => Prod.ext h.1 h.2) hpair
        simp [hhit, List.mem_cons, Ne.symm hpair]
  rw [basicMatches, key]

/-! What a presented header says -/

theorem authorizationValue_none {headers : HeaderMap}
    (h : headers.get HeaderMap.authorization = none) (scheme : String) :
    authorizationValue headers scheme = none := by
  simp only [authorizationValue, h, Option.bind_eq_bind, Option.bind_none]

theorem isWhitespace_of_isGraphic {c : Char} (h : IsGraphic c) : isWhitespace c = false := by
  obtain ⟨hlow, hhigh⟩ := h
  simp only [isWhitespace, Bool.or_eq_false_iff, Bool.and_eq_false_iff, decide_eq_false_iff_not]
  omega

/-- A field `<name> <payload>` with a visible payload reads back as that payload, under
every scheme that is its name up to case and under no other. -/
theorem authorizationValue_header {headers : HeaderMap}
    (h : headers.get HeaderMap.authorization = none) {name payload : String}
    (hname : ∀ c ∈ name.toList, IsGraphic c) (hpayload : ∀ c ∈ payload.toList, IsGraphic c) :
    ∃ sent, RequestBuilder.header (.ok headers) HeaderMap.authorization
        (name ++ " " ++ payload) = .ok sent ∧
      ∀ scheme, authorizationValue sent scheme =
        if eqIgnoreAsciiCase name.toList scheme.toList then some payload else none := by
  have hvisible : ∀ c ∈ (name ++ " " ++ payload).toList, 32 ≤ c.toNat ∧ c.toNat < 127 := by
    intro c hc
    rw [String.toList_append, String.toList_append, List.mem_append, List.mem_append] at hc
    obtain (hc | hc) | hc := hc
    · have := hname c hc
      unfold IsGraphic at this
      omega
    · have : c = ' ' := by simpa using hc
      subst this
      decide
    · have := hpayload c hc
      unfold IsGraphic at this
      omega
  obtain ⟨hfrom, hstr⟩ := HeaderValue.fromString_visible hvisible
  refine ⟨headers ++ [(HeaderMap.authorization, asBytes (name ++ " " ++ payload))], ?_, ?_⟩
  · simp only [RequestBuilder.header, hfrom]
    rfl
  · intro scheme
    have hget : HeaderMap.get
        (headers ++ [(HeaderMap.authorization, asBytes (name ++ " " ++ payload))])
        HeaderMap.authorization = some (asBytes (name ++ " " ++ payload)) := by
      rw [HeaderMap.get_append h, HeaderMap.get, List.lookup_cons_self]
    have hsplit : splitOnce ' ' (name ++ " " ++ payload).toList =
        some (name.toList, payload.toList) := by
      rw [String.toList_append, String.toList_append, List.append_assoc]
      apply splitOnce_append
      intro hmem
      exact absurd (hname ' ' hmem) (by decide)
    have htrim : trim isWhitespace payload.toList = payload.toList :=
      trim_of_forall isWhitespace fun c hc => isWhitespace_of_isGraphic (hpayload c hc)
    simp only [authorizationValue, hget, hstr, hsplit, Option.bind_eq_bind, Option.bind_some,
      htrim, String.ofList_toList]

theorem presentedPair_encode (base64 : Base64) {user : String} (password : String)
    (huser : ':' ∉ user.toList) :
    presentedPair base64 (base64.encode (asBytes (user ++ ":" ++ password))) =
      some (user, password) := by
  have hsplit : splitOnce ':' (user ++ ":" ++ password).toList =
      some (user.toList, password.toList) := by
    rw [String.toList_append, String.toList_append, List.append_assoc]
    exact splitOnce_append password.toList huser
  simp only [presentedPair, base64.decode_encode, fromUtf8_asBytes, hsplit, Option.bind_eq_bind,
    Option.bind_some, Option.pure_def, String.ofList_toList]

/-! The answer of the server -/

section Answer
variable (base64 : Base64) (sha256 : Bytes → Bytes) {a : Authenticator} {headers : HeaderMap}
  {cert : Option Bytes} {ctx : AuthContext}

theorem authenticate_bearer_iff (hmode : a.mode = .bearer) :
    a.authenticate base64 sha256 headers cert = .ok ctx ↔
      ∃ presented, authorizationValue headers "Bearer" = some presented ∧
        presented ∈ a.bearerTokens ∧ ctx = ⟨"bearer", none⟩ := by
  simp only [Authenticator.authenticate, hmode]
  cases hvalue : authorizationValue headers "Bearer" with
  | none => simp
  | some presented =>
    simp only [bearerMatches_eq, decide_eq_true_eq, Option.some.injEq, exists_eq_left']
    split
    · next hmem => simp [hmem, eq_comm]
    · next hmem => simp [hmem]

theorem authenticate_basic_iff (hmode : a.mode = .basic) :
    a.authenticate base64 sha256 headers cert = .ok ctx ↔
      ∃ user pass, (authorizationValue headers "Basic").bind (presentedPair base64) =
          some (user, pass) ∧
        (user, pass) ∈ a.basicCredentials ∧ ctx = ⟨"basic", some user⟩ := by
  simp only [Authenticator.authenticate, hmode]
  cases hvalue : authorizationValue headers "Basic" with
  | none => simp
  | some presented =>
    cases hpair : presentedPair base64 presented with
    | none => simp [hpair]
    | some pair =>
      obtain ⟨user, pass⟩ := pair
      simp only [basicMatches_eq]
      by_cases hmem : (user, pass) ∈ a.basicCredentials
      · simp [hmem, hpair, eq_comm]
      · simp [hmem, hpair]

/-- Of the configured list only its elements count. -/
theorem authenticate_congr {b : Authenticator} (hmode : b.mode = a.mode)
    (htokens : ∀ token, token ∈ b.bearerTokens ↔ token ∈ a.bearerTokens)
    (hpairs : ∀ pair, pair ∈ b.basicCredentials ↔ pair ∈ a.basicCredentials)
    (headers : HeaderMap) (cert : Option Bytes) :
    b.authenticate base64 sha256 headers cert = a.authenticate base64 sha256 headers cert := by
  simp only [Authenticator.authenticate, hmode, bearerMatches_eq, basicMatches_eq, htokens, hpairs]

end Answer

/-- What a client can be given: a token of visible characters, a user without the colon
that ends it. -/
def ClientAuth.WellFormed : ClientAuth → Prop
  | .none => True
  | .bearer token => ∀ c ∈ token.toList, IsGraphic c
  | .basic user _ => ':' ∉ user.toList

def Authenticator.Configured (a : Authenticator) : ClientAuth → Prop
  | .none => False
  | .bearer token => a.mode = .bearer ∧ token ∈ a.bearerTokens
  | .basic user password => a.mode = .basic ∧ (user, password) ∈ a.basicCredentials

def ClientAuth.token : ClientAuth → Option String
  | .bearer token => some token
  | _ => .none

def ClientAuth.pair : ClientAuth → Option (String × String)
  | .basic user password => some (user, password)
  | _ => .none

def ClientAuth.context : ClientAuth → AuthContext
  | .none => ⟨"none", .none⟩
  | .bearer _ => ⟨"bearer", .none⟩
  | .basic user _ => ⟨"basic", some user⟩

section Exact
variable (base64 : Base64) (sha256 : Bytes → Bytes) {a : Authenticator} {headers : HeaderMap}

theorem isGraphic_of_all {s : String} (h : s.toList.all (fun c => decide (IsGraphic c)) = true) :
    ∀ c ∈ s.toList, IsGraphic c :=
  fun c hc => of_decide_eq_true (List.all_eq_true.mp h c hc)

/-- What a server finds in the request: the token of a bearer, the pair of a user. -/
theorem applyAuth_presents (h : headers.get HeaderMap.authorization = none) {auth : ClientAuth}
    (hauth : auth.WellFormed) :
    ∃ sent, applyAuth base64 (.ok headers) auth = .ok sent ∧
      authorizationValue sent "Bearer" = auth.token ∧
      (authorizationValue sent "Basic").bind (presentedPair base64) = auth.pair := by
  cases auth with
  | none =>
    refine ⟨headers, rfl, authorizationValue_none h _, ?_⟩
    rw [authorizationValue_none h]
    rfl
  | bearer token =>
    obtain ⟨sent, hsent, hvalue⟩ :=
      authorizationValue_header h (isGraphic_of_all (s := "Bearer") (by decide)) hauth
    refine ⟨sent, hsent, ?_, ?_⟩
    · rw [hvalue, if_pos (by decide)]
      rfl
    · rw [hvalue, if_neg (by decide)]
      rfl
  | basic user password =>
    obtain ⟨sent, hsent, hvalue⟩ :=
      authorizationValue_header h (isGraphic_of_all (s := "Basic") (by decide))
        (base64.isGraphic_encode (asBytes (user ++ ":" ++ password)))
    refine ⟨sent, hsent, ?_, ?_⟩
    · rw [hvalue, if_neg (by decide)]
      rfl
    · rw [hvalue, if_pos (by decide)]
      exact presentedPair_encode base64 password hauth

/-- A client with these credentials and this certificate is known to the server as `ctx`. -/
def Authenticator.Accepts (a : Authenticator) (auth : ClientAuth) (cert : Option Bytes)
    (ctx : AuthContext) : Prop :=
  match a.mode with
  | .none => ctx = ⟨"none", none⟩
  | .bearer => a.Configured auth ∧ ctx = auth.context
  | .basic => a.Configured auth ∧ ctx = auth.context
  | .mtls => ∃ der, cert = some der ∧ ctx = ⟨"mtls", some (certFingerprint sha256 der)⟩

/-- In the modes without a header field the credentials are sent and not looked at. -/
theorem applyAuth_accepts (a : Authenticator) (h : headers.get HeaderMap.authorization = none)
    {auth : ClientAuth} (hauth : auth.WellFormed) :
    ∃ sent, applyAuth base64 (.ok headers) auth = .ok sent ∧
      ∀ cert ctx, a.authenticate base64 sha256 sent cert = .ok ctx ↔
        a.Accepts sha256 auth cert ctx := by
  obtain ⟨sent, hsent, htoken, hpair⟩ := applyAuth_presents base64 h hauth
  refine ⟨sent, hsent, ?_⟩
  intro cert ctx
  unfold Authenticator.Accepts
  cases hmode : a.mode with
  | none => simp only [Authenticator.authenticate, hmode, Except.ok.injEq, eq_comm]
  | bearer =>
    rw [authenticate_bearer_iff base64 sha256 hmode, htoken]
    cases auth <;> simp [ClientAuth.token, ClientAuth.context, Authenticator.Configured, hmode]
  | basic =>
    rw [authenticate_basic_iff base64 sha256 hmode, hpair]
    cases auth <;> simp [ClientAuth.pair, ClientAuth.context, Authenticator.Configured, hmode]
  | mtls =>
    simp only [Authenticator.authenticate, hmode]
    cases cert with
    | none => simp
    | some der => simp [eq_comm]

theorem applyAuth_answer (hmode : a.mode = .bearer ∨ a.mode = .basic)
    (h : headers.get HeaderMap.authorization = none) {auth : ClientAuth}
    (hauth : auth.WellFormed) :
    ∃ sent, applyAuth base64 (.ok headers) auth = .ok sent ∧
      ∀ cert ctx, a.authenticate base64 sha256 sent cert = .ok ctx ↔
        a.Configured auth ∧ ctx = auth.context := by
  have haccepts := applyAuth_accepts base64 sha256 a h hauth
  obtain hmode | hmode := hmode
  · simpa only [Authenticator.Accepts, hmode] using haccepts
  · simpa only [Authenticator.Accepts, hmode] using haccepts

end Exact

/-- The credentials of a client are accepted, under its name, exactly when they are
configured; both places that build the header are covered. -/
theorem authenticate_exact (base64 : Base64) (sha256 : Bytes → Bytes) (a : Authenticator)
    (hmode : a.mode = .bearer ∨ a.mode = .basic) (auth : ClientAuth) (hauth : auth.WellFormed)
    (headers : HeaderMap) (hheaders : headers.get HeaderMap.authorization = none) :
    (∀ builder ∈ [applyAuth base64 (.ok headers) auth, establishBuilder base64 auth],
      ∃ sent, builder = .ok sent ∧
        ∀ cert ctx, a.authenticate base64 sha256 sent cert = .ok ctx ↔
          a.Configured auth ∧ ctx = auth.context) ∧
    -- the user of one pair with the password of another
    (∀ user password user' password', auth = .basic user password' →
      (user, password) ∈ a.basicCredentials → (user', password') ∈ a.basicCredentials →
      (user, password') ∉ a.basicCredentials →
      ∀ sent, applyAuth base64 (.ok headers) auth = .ok sent →
        ∀ cert ctx, a.authenticate base64 sha256 sent cert ≠ .ok ctx) ∧
    -- neither the order nor the multiplicity of the list counts
    (∀ b : Authenticator, b.mode = a.mode →
      (∀ token, token ∈ b.bearerTokens ↔ token ∈ a.bearerTokens) →
      (∀ pair, pair ∈ b.basicCredentials ↔ pair ∈ a.basicCredentials) →
      ∀ sent cert, b.authenticate base64 sha256 sent cert =
        a.authenticate base64 sha256 sent cert) := by
  refine ⟨?_, ?_, ?_⟩
  · intro builder hbuilder
    rw [List.mem_cons, List.mem_singleton] at hbuilder
    obtain rfl | rfl := hbuilder
    · exact applyAuth_answer base64 sha256 hmode hheaders hauth
    · rw [establishBuilder_eq]
      exact applyAuth_answer base64 sha256 hmode (by decide +kernel) hauth
  · intro user password user' password' heq _ _ hnot sent hsent cert ctx hok
    obtain ⟨sent', hsent', hiff⟩ := applyAuth_answer base64 sha256 hmode hheaders hauth
    rw [hsent, Except.ok.injEq] at hsent'
    subst hsent' heq
    exact hnot ((hiff cert ctx).mp hok).1.2
  · intro b hb htokens hpairs sent cert
    exact authenticate_congr base64 sha256 hb htokens hpairs sent cert

theorem authenticate_exact_alice :
    ∃ sent, applyAuth .standard (.ok [("connect-udp-bind", asBytes "?1")])
        (.basic "alice" "wonder:land") = .ok sent ∧
      Authenticator.authenticate .standard id
        ⟨.basic, [], [("bob", "builder"), ("alice", "wonder:land")]⟩ sent none =
          .ok ⟨"basic", some "alice"⟩ := by
  have hexact := (authenticate_exact .standard id
    ⟨.basic, [], [("bob", "builder"), ("alice", "wonder:land")]⟩ (.inr rfl)
    (.basic "alice" "wonder:land") (by simp [ClientAuth.WellFormed])
    [("connect-udp-bind", asBytes "?1")] (by decide +kernel)).1
  obtain ⟨sent, hsent, hiff⟩ := hexact _ List.mem_cons_self
  refine ⟨sent, hsent, (hiff none _).mpr ⟨?_, rfl⟩⟩
  exact ⟨rfl, by simp⟩

end Auth

end Straw
