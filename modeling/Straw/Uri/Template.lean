import Straw.IpParse
import Straw.Session.Routes

/-!
# The path of a CONNECT-IP request

`/.well-known/masque/ip/{target}/{ipproto}/`: the server cuts the path from both ends,
decodes the target by hand and classifies it; the client escapes slashes and colons.
-/

namespace Straw

set_option autoImplicit false

deriving instance DecidableEq for Target
deriving instance DecidableEq for RequestScope

namespace UriTemplate

open Text

/-! The server -/

def pathPrefix : String := "/.well-known/masque/ip/"

/-- What a percent sign and the characters taken with it become. -/
def decodeTriple (hex : List Char) : List Char :=
  if (hex.flatMap String.utf8EncodeChar).length = 2 then
    match U8.fromStrRadix hex 16 with
    | .ok byte => [Char.ofNat byte.toNat]
    | .error _ => '%' :: hex
  else '%' :: hex

def percentDecode : List Char → List Char
  | [] => []
  | c :: chars =>
    if c = '%' then
      match chars with
      | a :: b :: chars => decodeTriple [a, b] ++ percentDecode chars
      | hex => decodeTriple hex
    else c :: percentDecode chars

def maxPrefix (ip : IpAddr) : Nat := if ip.isIpv4 then 32 else 128

/-- `parse_target` once the raw text is decoded. -/
def classify (decoded : List Char) : Except ProxyError Target :=
  match splitOnce '/' decoded with
  | some (ipStr, prefixStr) =>
    match IpAddr.fromStr ipStr with
    | none => .error (.invalidRequest ("invalid IP in target: " ++ AddrParseError.toText))
    | some ip =>
      match U8.fromStr prefixStr with
      | .error e => .error (.invalidRequest ("invalid prefix length: " ++ e.toText))
      | .ok len =>
        if maxPrefix ip < len.toNat then
          .error (.invalidRequest ("prefix length " ++ toString len.toNat ++ " exceeds maximum " ++
            toString (maxPrefix ip)))
        else .ok (.prefixed ip len.toNat)
  | none =>
    match IpAddr.fromStr decoded with
    | some ip => .ok (.prefixed ip (maxPrefix ip))
    | none => .ok (.hostname (String.ofList decoded))

def parseTarget (raw : List Char) : Except ProxyError (Option Target) :=
  if raw = ['*'] then .ok none else (classify (percentDecode raw)).map some

def parseIpproto (raw : List Char) : Except ProxyError (Option UInt8) :=
  if raw = ['*'] then .ok none
  else
    match U8.fromStr raw with
    | .error e => .error (.invalidRequest ("invalid ipproto: " ++ e.toText))
    | .ok proto => .ok (some proto)

def parseConnectIpPath (path : String) : Except ProxyError RequestScope :=
  match stripPrefix pathPrefix.toList path.toList with
  | none => .error (.invalidRequest ("path must start with " ++ pathPrefix))
  | some rest =>
    match rsplitOnce '/' (stripLast '/' rest) with
    | none => .error (.invalidRequest "expected {target}/{ipproto}")
    | some (targetRaw, ipprotoRaw) =>
      if targetRaw = [] then .error (.invalidRequest "target must not be empty")
      else if ipprotoRaw = [] then .error (.invalidRequest "ipproto must not be empty")
      else do
        let target ← parseTarget targetRaw
        let ipProto ← parseIpproto ipprotoRaw
        return ⟨target, ipProto⟩

example : parseConnectIpPath "/.well-known/masque/ip/2001%3Adb8%3A%3A%2F48/17" =
    .ok ⟨some (.prefixed (.v6 0x20010db8000000000000000000000000#128) 48), some 17⟩ := by
  decide +kernel

/-! The client -/

def replace (c : Char) (by_ : String) (value : List Char) : List Char :=
  value.flatMap fun d => if d = c then by_.toList else [d]

def encodeTemplateValue (value : List Char) : List Char :=
  replace ':' "%3A" (replace '/' "%2F" value)

/-- The path that `Tunnel::establish` asks for. -/
def tunnelPath (target : Option String) (ipproto : Option UInt8) : String :=
  let targetSegment :=
    match target with
    | some t => String.ofList (encodeTemplateValue t.toList)
    | none => "*"
  let ipprotoSegment :=
    match ipproto with
    | some p => toString p.toNat
    | none => "*"
  pathPrefix ++ targetSegment ++ "/" ++ ipprotoSegment ++ "/"

/-! The three readings of a percent sign -/

open Percent

theorem percentDecode_plain {c : Char} (h : c ≠ '%') (chars : List Char) :
    percentDecode (c :: chars) = c :: percentDecode chars := by
  rw [percentDecode.eq_def]
  simp only [if_neg h]

theorem percentDecode_triple (a b : Char) (chars : List Char) :
    percentDecode ('%' :: a :: b :: chars) = decodeTriple [a, b] ++ percentDecode chars := by
  rw [percentDecode, if_pos rfl]

theorem decodeTriple_short {hex : List Char} (h : hex.length < 2) :
    decodeTriple hex = '%' :: hex := by
  unfold decodeTriple
  split
  · next hlen =>
    match hex with
    | [] => exact absurd hlen (by decide)
    | [c] =>
      -- one character of two bytes is no digit
      have hc : ¬ c.toNat < 128 := by
        intro hlt
        simp [Text.utf8EncodeChar_ascii hlt] at hlen
      have hdigit : toDigit 16 c = none := by
        by_contra hne
        obtain ⟨d, hd⟩ := Option.ne_none_iff_exists'.mp hne
        have := toNat_of_toDigit hd
        omega
      have herror : U8.fromStrRadix [c] 16 = .error .invalidDigit := by
        unfold U8.fromStrRadix Unsigned.fromStrRadix
        split
        · next heq => exact absurd heq (by simp)
        · rfl
        · rfl
        · next heq _ => simp_all
        · simp only [Unsigned.accumulate, hdigit]
          rfl
      rw [herror]
    | _ :: _ :: _ => simp only [List.length_cons] at h; omega
  · rfl

theorem percentDecode_short {hex : List Char} (h : hex.length < 2) :
    percentDecode ('%' :: hex) = '%' :: hex := by
  match hex with
  | [] => exact decodeTriple_short h
  | [c] => exact decodeTriple_short h
  | _ :: _ :: _ => simp only [List.length_cons] at h; omega

/-- Two hexadecimal digits are an escape, and so is a plus sign with one digit; anything
else stays as it is. -/
theorem decodeTriple_cases (a b : Char) :
    (∃ byte, escaped a b = some byte ∧ decodeTriple [a, b] = [Char.ofNat byte.toNat]) ∨
    (∃ y, a = '+' ∧ toDigit 16 b = some y ∧ decodeTriple [a, b] = [Char.ofNat y]) ∨
    (escaped a b = none ∧ (a = '+' → toDigit 16 b = none) ∧ decodeTriple [a, b] = ['%', a, b]) := by
  have hplus : toDigit 16 '+' = none := by decide
  have hlen : ∀ {y}, a.toNat < 128 → toDigit 16 b = some y →
      ([a, b].flatMap String.utf8EncodeChar).length = 2 := by
    intro y ha hb
    have hrange := toNat_of_toDigit hb
    simp [Text.utf8EncodeChar_ascii ha, Text.utf8EncodeChar_ascii (show b.toNat < 128 by omega)]
  unfold decodeTriple
  rw [U8.fromStrRadix_pair]
  cases hb : toDigit 16 b with
  | none =>
    refine .inr (.inr ⟨?_, fun _ => rfl, ?_⟩)
    · simp [escaped, hb]
    · split <;> simp
  | some y =>
    have hy := (toDigit_eq_some_iff.mp hb).2
    by_cases ha : a = '+'
    · subst ha
      refine .inr (.inl ⟨y, rfl, rfl, ?_⟩)
      rw [if_pos (hlen (by decide) hb)]
      simp only [if_true, Nat.mul_zero, Nat.zero_add, UInt8.toNat_ofNat']
      rw [Nat.mod_eq_of_lt (by omega)]
    · cases hx : toDigit 16 a with
      | none =>
        refine .inr (.inr ⟨?_, fun h => absurd h ha, ?_⟩)
        · simp [escaped, hx]
        · simp [ha]
      | some x =>
        have hrange := toNat_of_toDigit hx
        refine .inl ⟨UInt8.ofNat (16 * x + y), ?_, ?_⟩
        · exact escaped_eq_some_iff.mpr ⟨x, y, hx, hb, rfl⟩
        · rw [if_pos (hlen (by omega) hb), if_neg ha]

end UriTemplate

end Straw
