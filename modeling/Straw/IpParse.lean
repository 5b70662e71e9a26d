import Straw.Types
import Straw.Lib.Percent

/-!
# Numbers and addresses read from text

What the standard library accepts as a `u8` and as an IP address. A reader of addresses
returns what it read with the rest of the text, and consumes digits, dots and colons only.
-/

namespace Straw

set_option autoImplicit false

open Percent (toDigit)

/-! Numbers -/

inductive ParseIntError where
  | empty
  | invalidDigit
  | posOverflow
deriving DecidableEq

def ParseIntError.toText : ParseIntError → String
  | .empty => "cannot parse integer from empty string"
  | .invalidDigit => "invalid digit found in string"
  | .posOverflow => "number too large to fit in target type"

namespace Unsigned

def accumulate (bound radix : Nat) : Nat → List Char → Except ParseIntError Nat
  | n, [] => .ok n
  | n, c :: digits =>
    match toDigit radix c with
    | none => .error .invalidDigit
    | some d =>
      if n * radix + d < bound then accumulate bound radix (n * radix + d) digits
      else .error .posOverflow

/-- A number below `bound`. A leading plus sign is accepted; a sign alone is no number. -/
def fromStrRadix (bound : Nat) (src : List Char) (radix : Nat) : Except ParseIntError Nat :=
  match src with
  | [] => .error .empty
  | ['+'] => .error .invalidDigit
  | ['-'] => .error .invalidDigit
  | '+' :: digits => accumulate bound radix 0 digits
  | digits => accumulate bound radix 0 digits

end Unsigned

def U8.fromStrRadix (src : List Char) (radix : Nat) : Except ParseIntError UInt8 :=
  (Unsigned.fromStrRadix (2 ^ 8) src radix).map UInt8.ofNat

def U8.fromStr (src : List Char) : Except ParseIntError UInt8 := U8.fromStrRadix src 10

def U32.fromStrRadix (src : List Char) (radix : Nat) : Except ParseIntError UInt32 :=
  (Unsigned.fromStrRadix (2 ^ 32) src radix).map UInt32.ofNat

/-! Addresses -/

namespace IpParse

abbrev Reader (α : Type) := List Char → Option (α × List Char)

def readGivenChar (c : Char) : List Char → Option (List Char)
  | [] => none
  | d :: rest => if d = c then some rest else none

/-- The separator comes in front of every element but the first. -/
def readSeparator {α : Type} (sep : Char) (index : Nat) (inner : Reader α) : Reader α := fun s =>
  if 0 < index then (readGivenChar sep s).bind inner else inner s

def readDigits (radix : Nat) : List Char → List Nat × List Char
  | [] => ([], [])
  | c :: rest =>
    match toDigit radix c with
    | none => ([], c :: rest)
    | some d => (d :: (readDigits radix rest).1, (readDigits radix rest).2)

def readNumber (radix maxDigits : Nat) (allowZeroPrefix : Bool) (bound : Nat) : Reader Nat := fun s =>
  let (digits, rest) := readDigits radix s
  let n := digits.foldl (fun n d => n * radix + d) 0
  if maxDigits < digits.length then none
  else if digits.length = 0 then none
  else if !allowZeroPrefix && s.head? = some '0' && 1 < digits.length then none
  else if n < bound then some (n, rest) else none

def readOctets : Nat → Nat → Reader (List Nat)
  | 0, _, s => some ([], s)
  | n + 1, i, s => do
    let (octet, s) ← readSeparator '.' i (readNumber 10 3 false 256) s
    let (octets, s) ← readOctets n (i + 1) s
    return (octet :: octets, s)

def readIpv4Addr : Reader Ipv4Addr := fun s => do
  let (octets, s) ← readOctets 4 0 s
  return (Ipv4Addr.ofOctets (octets.map UInt8.ofNat), s)

/-- The groups that could be read, and whether the last two are an embedded IPv4 address;
`limit` of them are wanted and the first argument says how many are still to come. -/
def readGroups (limit : Nat) : Nat → Nat → List Char → (List Nat × Bool) × List Char
  | 0, _, s => (([], false), s)
  | n + 1, i, s =>
    match (if i < limit - 1 then readSeparator ':' i readIpv4Addr s else none) with
    | some (a, s) => (([a.toNat / 2 ^ 16, a.toNat % 2 ^ 16], true), s)
    | none =>
      match readSeparator ':' i (readNumber 16 4 true (2 ^ 16)) s with
      | some (group, s) =>
        let r := readGroups limit n (i + 1) s
        ((group :: r.1.1, r.1.2), r.2)
      | none => (([], false), s)

def ofSegments (segments : List Nat) : Ipv6Addr :=
  BitVec.ofNat 128 (segments.foldl (fun n g => n * 2 ^ 16 + g) 0)

def readIpv6Addr : Reader Ipv6Addr := fun s =>
  let head := readGroups 8 8 0 s
  if head.1.1.length = 8 then some (ofSegments head.1.1, head.2)
  else if head.1.2 then none
  else do
    let s ← readGivenChar ':' head.2
    let s ← readGivenChar ':' s
    -- the two colons stand for one group at least
    let limit := 8 - (head.1.1.length + 1)
    let tail := readGroups limit limit 0 s
    let zeros := List.replicate (8 - head.1.1.length - tail.1.1.length) 0
    return (ofSegments (head.1.1 ++ zeros ++ tail.1.1), tail.2)

def readIpAddr : Reader IpAddr := fun s =>
  match readIpv4Addr s with
  | some (a, s) => some (.v4 a, s)
  | none => (readIpv6Addr s).map fun r => (.v6 r.1, r.2)

end IpParse

/-- The whole text has to be an address. -/
def IpAddr.fromStr (s : List Char) : Option IpAddr :=
  match IpParse.readIpAddr s with
  | some (ip, []) => some ip
  | _ => none

def AddrParseError.toText : String := "invalid IP address syntax"

example : IpAddr.fromStr "::ffff:10.0.0.1".toList = some (.v6 0xffff0a000001#128) := by
  decide +kernel

/-! What a number is -/

namespace U8

open Unsigned (accumulate)

def decimalValue (digits : List Char) : Nat :=
  digits.foldl (fun n c => n * 10 + (c.toNat - 48)) 0

/-- Decimal digits, one at least, with the value of a byte. -/
def Decimal (digits : List Char) (n : UInt8) : Prop :=
  digits ≠ [] ∧ (∀ c ∈ digits, c.isDigit = true) ∧ decimalValue digits = n.toNat

/-- The same with a plus sign in front. -/
def Signed (src : List Char) (n : UInt8) : Prop := ∃ digits, src = '+' :: digits ∧ Decimal digits n

theorem not_decimal_of_signed {src : List Char} {n m : UInt8} (h : Signed src n) :
    ¬ Decimal src m := by
  obtain ⟨digits, rfl, -⟩ := h
  exact fun hd => absurd (hd.2.1 '+' List.mem_cons_self) (by decide)

theorem toDigit_ten (c : Char) :
    toDigit 10 c = if c.isDigit = true then some (c.toNat - 48) else none := by
  have hdigit : c.isDigit = true ↔ 48 ≤ c.toNat ∧ c.toNat ≤ 57 := by
    simp only [Char.isDigit, Bool.and_eq_true, decide_eq_true_eq, ge_iff_le, UInt32.le_iff_toNat_le]
    exact Iff.rfl
  unfold toDigit Percent.digitValue
  by_cases hc : 48 ≤ c.toNat ∧ c.toNat ≤ 57
  · rw [if_pos (hdigit.mpr hc), if_pos hc, if_pos (by omega)]
  · rw [if_neg (mt hdigit.mp hc), if_neg hc]
    split_ifs <;> first | rfl | omega

theorem le_foldl_digits (digits : List Char) (n : Nat) :
    n ≤ digits.foldl (fun n c => n * 10 + (c.toNat - 48)) n := by
  induction digits generalizing n with
  | nil => exact Nat.le_refl n
  | cons c digits ih =>
    have := ih (n * 10 + (c.toNat - 48))
    rw [List.foldl_cons]
    omega

theorem accumulate_ten {bound n : Nat} (hn : n < bound) (digits : List Char) (m : Nat) :
    accumulate bound 10 n digits = .ok m ↔
      (∀ c ∈ digits, c.isDigit = true) ∧
        digits.foldl (fun n c => n * 10 + (c.toNat - 48)) n = m ∧ m < bound := by
  induction digits generalizing n with
  | nil =>
    simp only [accumulate, Except.ok.injEq, List.foldl_nil]
    constructor
    · rintro rfl
      exact ⟨by simp, rfl, hn⟩
    · exact fun h => h.2.1
  | cons c digits ih =>
    rw [accumulate, toDigit_ten, List.forall_mem_cons, List.foldl_cons]
    by_cases hc : c.isDigit = true
    · simp only [hc, if_true, true_and]
      by_cases hlt : n * 10 + (c.toNat - 48) < bound
      · rw [if_pos hlt, ih hlt]
      · rw [if_neg hlt]
        have hle := le_foldl_digits digits (n * 10 + (c.toNat - 48))
        constructor
        · intro h
          exact absurd h (by simp)
        · intro h
          omega
    · simp only [hc, Bool.false_eq_true, if_false, false_and]
      exact iff_of_false (by simp) id

theorem accumulate_eq_ok_iff {digits : List Char} (hne : digits ≠ []) (n : UInt8) :
    (∃ m, accumulate (2 ^ 8) 10 0 digits = .ok m ∧ UInt8.ofNat m = n) ↔ Decimal digits n := by
  simp only [accumulate_ten (by decide : (0 : Nat) < 2 ^ 8)]
  constructor
  · rintro ⟨m, ⟨hdigits, rfl, hlt⟩, rfl⟩
    refine ⟨hne, hdigits, ?_⟩
    rw [UInt8.toNat_ofNat', Nat.mod_eq_of_lt hlt]
    rfl
  · rintro ⟨-, hdigits, hvalue⟩
    refine ⟨n.toNat, ⟨hdigits, hvalue, n.toNat_lt⟩, UInt8.ofNat_toNat⟩

/-- Beyond decimal digits, the standard library accepts a plus sign in front of them. -/
theorem fromStr_eq_ok_iff (src : List Char) (n : UInt8) :
    fromStr src = .ok n ↔ Decimal src n ∨ Signed src n := by
  have hsign : ∀ digits, ¬ Decimal ('+' :: digits) n :=
    fun digits h => absurd (h.2.1 '+' List.mem_cons_self) (by decide)
  have hmap : fromStr src = .ok n ↔
      ∃ m, Unsigned.fromStrRadix (2 ^ 8) src 10 = .ok m ∧ UInt8.ofNat m = n := by
    unfold fromStr U8.fromStrRadix
    cases Unsigned.fromStrRadix (2 ^ 8) src 10 <;> simp [Except.map]
  rw [hmap]
  unfold Unsigned.fromStrRadix Signed
  split
  · simp [Decimal]
  · simp [Decimal]
  · simp [Decimal]
  · next digits hne =>
    rw [accumulate_eq_ok_iff hne]
    simp [hsign]
  · next hnil _ _ hplus =>
    rw [accumulate_eq_ok_iff hnil]
    constructor
    · exact .inl
    · rintro (h | ⟨digits, rfl, -⟩)
      · exact h
      · exact absurd rfl (hplus digits)

theorem fromStrRadix_pair (a b : Char) :
    U8.fromStrRadix [a, b] 16 =
      match (if a = '+' then some 0 else toDigit 16 a), toDigit 16 b with
      | some x, some y => .ok (UInt8.ofNat (16 * x + y))
      | _, _ => .error .invalidDigit := by
  have hlt : ∀ {c d}, toDigit 16 c = some d → d < 16 :=
    fun h => (Percent.toDigit_eq_some_iff.mp h).2
  have hlast : ∀ n, n < 16 → accumulate (2 ^ 8) 16 n [b] =
      match toDigit 16 b with
      | some y => .ok (16 * n + y)
      | none => .error .invalidDigit := by
    intro n hn
    cases hb : toDigit 16 b with
    | none => simp only [accumulate, hb]
    | some y =>
      have hy := hlt hb
      simp only [accumulate, hb]
      rw [if_pos (by omega), Nat.mul_comm]
  by_cases ha : a = '+'
  · subst ha
    simp only [U8.fromStrRadix, Unsigned.fromStrRadix, hlast 0 (by decide), if_true]
    cases toDigit 16 b <;> rfl
  · have hsrc : Unsigned.fromStrRadix (2 ^ 8) [a, b] 16 = accumulate (2 ^ 8) 16 0 [a, b] := by
      unfold Unsigned.fromStrRadix
      split <;> simp_all
    rw [U8.fromStrRadix, hsrc, accumulate, if_neg ha]
    cases hx : toDigit 16 a with
    | none => rfl
    | some x =>
      have hx' := hlt hx
      simp only [Nat.zero_mul, Nat.zero_add]
      rw [if_pos (by omega), hlast x hx']
      cases toDigit 16 b <;> rfl

end U8

/-! What an address is written with -/

/-- A hexadecimal digit, a dot or a colon. -/
def IsIpChar (c : Char) : Prop := (∃ d, toDigit 16 c = some d) ∨ c = '.' ∨ c = ':'

theorem IsIpChar.bounds {c : Char} (h : IsIpChar c) :
    0x2e ≤ c.toNat ∧ c.toNat ≤ 0x7a ∧ c ≠ '/' := by
  obtain ⟨d, hd⟩ | rfl | rfl := h
  · have hrange := Percent.toNat_of_toDigit hd
    exact ⟨by omega, by omega, Percent.ne_of_toDigit hd (by decide)⟩
  · decide
  · decide

namespace IpParse

/-- The text from `s` up to `r` is made of characters of addresses. -/
def Consumes (s r : List Char) : Prop := ∃ used, s = used ++ r ∧ ∀ c ∈ used, IsIpChar c

namespace Consumes

variable {s r t : List Char}

theorem refl (s : List Char) : Consumes s s := ⟨[], rfl, by simp⟩

theorem cons {c : Char} (hc : IsIpChar c) (h : Consumes s r) : Consumes (c :: s) r := by
  obtain ⟨used, rfl, hused⟩ := h
  exact ⟨c :: used, rfl, List.forall_mem_cons.mpr ⟨hc, hused⟩⟩

theorem trans (hsr : Consumes s r) (hrt : Consumes r t) : Consumes s t := by
  obtain ⟨used, rfl, hused⟩ := hsr
  obtain ⟨more, rfl, hmore⟩ := hrt
  refine ⟨used ++ more, by rw [List.append_assoc], ?_⟩
  intro c hc
  exact (List.mem_append.mp hc).elim (hused c) (hmore c)

end Consumes

/-- A reader that consumes characters of addresses only. -/
def Consuming {α : Type} (read : Reader α) : Prop :=
  ∀ s x r, read s = some (x, r) → Consumes s r

theorem readGivenChar_consumes {c : Char} (hc : IsIpChar c) {s r : List Char}
    (h : readGivenChar c s = some r) : Consumes s r := by
  cases s with
  | nil => exact absurd h (by simp [readGivenChar])
  | cons d s =>
    simp only [readGivenChar] at h
    split at h
    · next hd =>
      obtain rfl := Option.some.inj h
      exact .cons (hd ▸ hc) (.refl s)
    · exact absurd h (by simp)

theorem readSeparator_consuming {α : Type} {sep : Char} (hsep : IsIpChar sep) (i : Nat)
    {inner : Reader α} (hinner : Consuming inner) : Consuming (readSeparator sep i inner) := by
  intro s x r h
  unfold readSeparator at h
  split at h
  · obtain ⟨t, ht, hx⟩ := Option.bind_eq_some_iff.mp h
    exact (readGivenChar_consumes hsep ht).trans (hinner t x r hx)
  · exact hinner s x r h

theorem readDigits_consumes {radix : Nat} (hradix : radix ≤ 16) (s : List Char) :
    Consumes s (readDigits radix s).2 := by
  induction s with
  | nil => exact .refl []
  | cons c s ih =>
    rw [readDigits]
    cases hd : toDigit radix c with
    | none => exact .refl (c :: s)
    | some d =>
      apply Consumes.cons _ ih
      obtain ⟨hvalue, hlt⟩ := Percent.toDigit_eq_some_iff.mp hd
      exact .inl ⟨d, Percent.toDigit_eq_some_iff.mpr ⟨hvalue, by omega⟩⟩

theorem readNumber_consuming {radix : Nat} (hradix : radix ≤ 16) (maxDigits : Nat)
    (allowZeroPrefix : Bool) (bound : Nat) :
    Consuming (readNumber radix maxDigits allowZeroPrefix bound) := by
  intro s x r h
  have hdigits := readDigits_consumes hradix s
  unfold readNumber at h
  obtain ⟨digits, rest⟩ := readDigits radix s
  dsimp only at h
  split_ifs at h
  simp only [Option.some.injEq, Prod.mk.injEq] at h
  exact h.2 ▸ hdigits

theorem readOctets_consuming (n i : Nat) : Consuming (readOctets n i) := by
  induction n generalizing i with
  | zero =>
    intro s x r h
    simp only [readOctets, Option.some.injEq, Prod.mk.injEq] at h
    exact h.2 ▸ .refl s
  | succ n ih =>
    intro s x r h
    simp only [readOctets, Option.bind_eq_bind, Option.bind_eq_some_iff, Prod.exists,
      Option.pure_def, Option.some.injEq, Prod.mk.injEq] at h
    obtain ⟨octet, t, hoctet, octets, u, hoctets, -, rfl⟩ := h
    have hnumber := readNumber_consuming (show 10 ≤ 16 by decide) 3 false 256
    exact (readSeparator_consuming (.inr (.inl rfl)) i hnumber s octet t hoctet).trans
      (ih (i + 1) t octets u hoctets)

theorem readIpv4Addr_consuming : Consuming readIpv4Addr := by
  intro s x r h
  simp only [readIpv4Addr, Option.bind_eq_bind, Option.bind_eq_some_iff, Prod.exists,
    Option.pure_def, Option.some.injEq, Prod.mk.injEq] at h
  obtain ⟨octets, t, hoctets, -, rfl⟩ := h
  exact readOctets_consuming 4 0 s octets t hoctets

theorem readGroups_consumes (limit n i : Nat) (s : List Char) :
    Consumes s (readGroups limit n i s).2 := by
  have hcolon : IsIpChar ':' := .inr (.inr rfl)
  induction n generalizing i s with
  | zero => exact .refl s
  | succ n ih =>
    rw [readGroups]
    split
    · next a t ha =>
      split at ha
      · exact readSeparator_consuming hcolon i readIpv4Addr_consuming s a t ha
      · exact absurd ha (by simp)
    · split
      · next group t hgroup =>
        have hnumber := readNumber_consuming (Nat.le_refl 16) 4 true (2 ^ 16)
        exact (readSeparator_consuming hcolon i hnumber s group t hgroup).trans (ih (i + 1) t)
      · exact .refl s

theorem readIpv6Addr_consuming : Consuming readIpv6Addr := by
  have hcolon : IsIpChar ':' := .inr (.inr rfl)
  intro s x r h
  have hhead := readGroups_consumes 8 8 0 s
  simp only [readIpv6Addr] at h
  split at h
  · simp only [Option.some.injEq, Prod.mk.injEq] at h
    exact h.2 ▸ hhead
  · split at h
    · exact absurd h (by simp)
    · simp only [Option.bind_eq_bind, Option.bind_eq_some_iff, Option.pure_def, Option.some.injEq,
        Prod.mk.injEq] at h
      obtain ⟨t, ht, u, hu, -, rfl⟩ := h
      apply hhead.trans
      apply (readGivenChar_consumes hcolon ht).trans
      apply (readGivenChar_consumes hcolon hu).trans
      apply readGroups_consumes

theorem readIpAddr_consuming : Consuming readIpAddr := by
  intro s x r h
  unfold readIpAddr at h
  split at h
  · next a t ha =>
    simp only [Option.some.injEq, Prod.mk.injEq] at h
    exact h.2 ▸ readIpv4Addr_consuming s a t ha
  · simp only [Option.map_eq_some_iff, Prod.mk.injEq, Prod.exists] at h
    obtain ⟨a, t, ha, -, rfl⟩ := h
    exact readIpv6Addr_consuming s a t ha

end IpParse

theorem IpAddr.isIpChar_of_fromStr {s : List Char} {ip : IpAddr} (h : IpAddr.fromStr s = some ip) :
    ∀ c ∈ s, IsIpChar c := by
  unfold IpAddr.fromStr at h
  split at h
  · next ip' hread =>
    obtain ⟨used, rfl, hused⟩ := IpParse.readIpAddr_consuming s ip' [] hread
    rw [List.append_nil]
    exact hused
  · exact absurd h (by simp)

end Straw
