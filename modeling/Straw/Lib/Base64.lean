import Straw.Lib.Text

/-!
# Base64

An encoding of bytes in visible characters that can be read back, and the standard one:
three bytes become four characters of an alphabet of 64, with padding at the end.
-/

set_option autoImplicit false

structure Base64 where
  encode : List UInt8 → String
  decode : String → Option (List UInt8)
  decode_encode : ∀ b, decode (encode b) = some b
  isGraphic_encode : ∀ b, ∀ c ∈ (encode b).toList, Text.IsGraphic c

namespace Base64

def symbol (n : Nat) : Char :=
  if n < 26 then Char.ofNat (n + 65)
  else if n < 52 then Char.ofNat (n + 71)
  else if n < 62 then Char.ofNat (n - 4)
  else if n = 62 then '+' else '/'

def value (c : Char) : Option Nat :=
  if 65 ≤ c.toNat ∧ c.toNat ≤ 90 then some (c.toNat - 65)
  else if 97 ≤ c.toNat ∧ c.toNat ≤ 122 then some (c.toNat - 71)
  else if 48 ≤ c.toNat ∧ c.toNat ≤ 57 then some (c.toNat + 4)
  else if c = '+' then some 62 else if c = '/' then some 63 else none

theorem symbol_spec {n : Nat} (h : n < 64) :
    value (symbol n) = some n ∧ symbol n ≠ '=' ∧ Text.IsGraphic (symbol n) := by
  have key : ∀ k : Fin 64, value (symbol k) = some k.val ∧ symbol k ≠ '=' ∧
      Text.IsGraphic (symbol k) := by
    decide
  exact key ⟨n, h⟩

def encodeGroups : List UInt8 → List Char
  | [] => []
  | [a] => [symbol (a.toNat / 4), symbol (a.toNat % 4 * 16), '=', '=']
  | [a, b] =>
    [symbol (a.toNat / 4), symbol (a.toNat % 4 * 16 + b.toNat / 16),
      symbol (b.toNat % 16 * 4), '=']
  | a :: b :: c :: rest =>
    symbol (a.toNat / 4) :: symbol (a.toNat % 4 * 16 + b.toNat / 16) ::
      symbol (b.toNat % 16 * 4 + c.toNat / 64) :: symbol (c.toNat % 64) :: encodeGroups rest

/-- Padding stands at the end only, and the bits that it leaves unused are zero. -/
def decodeGroups : List Char → Option (List UInt8)
  | [] => some []
  | w :: x :: y :: z :: rest => do
    let i ← value w
    let j ← value x
    let first := UInt8.ofNat (i * 4 + j / 16)
    if y = '=' then
      if z = '=' ∧ rest = [] ∧ j % 16 = 0 then some [first] else none
    else
      let k ← value y
      let second := UInt8.ofNat (j % 16 * 16 + k / 4)
      if z = '=' then
        if rest = [] ∧ k % 4 = 0 then some [first, second] else none
      else
        let m ← value z
        let bytes ← decodeGroups rest
        some (first :: second :: UInt8.ofNat (k % 4 * 64 + m) :: bytes)
  | _ => none

theorem ofNat_toNat_of_eq {a : UInt8} {n : Nat} (h : n = a.toNat) : UInt8.ofNat n = a := by
  rw [h, UInt8.ofNat_toNat]

theorem decodeGroups_encodeGroups (b : List UInt8) :
    decodeGroups (encodeGroups b) = some b := by
  induction b using encodeGroups.induct with
  | case1 => rfl
  | case2 a =>
    have ha := a.toNat_lt
    have hw := symbol_spec (show a.toNat / 4 < 64 by omega)
    have hx := symbol_spec (show a.toNat % 4 * 16 < 64 by omega)
    have hfirst := ofNat_toNat_of_eq
      (show a.toNat / 4 * 4 + a.toNat % 4 * 16 / 16 = a.toNat by omega)
    simp only [encodeGroups, decodeGroups, hw.1, hx.1, Option.bind_eq_bind, Option.bind_some,
      if_true, Nat.mul_mod_left, and_self, hfirst]
  | case3 a b =>
    have ha := a.toNat_lt
    have hb := b.toNat_lt
    have hw := symbol_spec (show a.toNat / 4 < 64 by omega)
    have hx := symbol_spec (show a.toNat % 4 * 16 + b.toNat / 16 < 64 by omega)
    have hy := symbol_spec (show b.toNat % 16 * 4 < 64 by omega)
    have hfirst := ofNat_toNat_of_eq
      (show a.toNat / 4 * 4 + (a.toNat % 4 * 16 + b.toNat / 16) / 16 = a.toNat by omega)
    have hsecond := ofNat_toNat_of_eq
      (show (a.toNat % 4 * 16 + b.toNat / 16) % 16 * 16 + b.toNat % 16 * 4 / 4 = b.toNat by omega)
    simp only [encodeGroups, decodeGroups, hw.1, hx.1, hy.1, Option.bind_eq_bind,
      Option.bind_some, if_neg hy.2.1, if_true, Nat.mul_mod_left, and_self, hfirst, hsecond]
  | case4 a b c rest ih =>
    have ha := a.toNat_lt
    have hb := b.toNat_lt
    have hc := c.toNat_lt
    have hw := symbol_spec (show a.toNat / 4 < 64 by omega)
    have hx := symbol_spec (show a.toNat % 4 * 16 + b.toNat / 16 < 64 by omega)
    have hy := symbol_spec (show b.toNat % 16 * 4 + c.toNat / 64 < 64 by omega)
    have hz := symbol_spec (show c.toNat % 64 < 64 by omega)
    have hfirst := ofNat_toNat_of_eq
      (show a.toNat / 4 * 4 + (a.toNat % 4 * 16 + b.toNat / 16) / 16 = a.toNat by omega)
    have hsecond := ofNat_toNat_of_eq
      (show (a.toNat % 4 * 16 + b.toNat / 16) % 16 * 16 +
        (b.toNat % 16 * 4 + c.toNat / 64) / 4 = b.toNat by omega)
    have hthird := ofNat_toNat_of_eq
      (show (b.toNat % 16 * 4 + c.toNat / 64) % 4 * 64 + c.toNat % 64 = c.toNat by omega)
    simp only [encodeGroups, decodeGroups, hw.1, hx.1, hy.1, hz.1, ih, Option.bind_eq_bind,
      Option.bind_some, if_neg hy.2.1, if_neg hz.2.1, hfirst, hsecond, hthird]

theorem isGraphic_symbol (n : Nat) : Text.IsGraphic (symbol n) := by
  by_cases h : n < 64
  · exact (symbol_spec h).2.2
  · have hslash : symbol n = '/' := by
      rw [symbol, if_neg (by omega), if_neg (by omega), if_neg (by omega), if_neg (by omega)]
    rw [hslash]
    decide

theorem isGraphic_encodeGroups (b : List UInt8) :
    ∀ c ∈ encodeGroups b, Text.IsGraphic c := by
  have hpad : Text.IsGraphic '=' := by decide
  induction b using encodeGroups.induct with
  | case1 => simp [encodeGroups]
  | case2 a => simp [encodeGroups, isGraphic_symbol, hpad]
  | case3 a b => simp [encodeGroups, isGraphic_symbol, hpad]
  | case4 a b c rest ih =>
    simp only [encodeGroups, List.forall_mem_cons, isGraphic_symbol, true_and]
    exact ih

def standard : Base64 where
  encode b := String.ofList (encodeGroups b)
  decode s := decodeGroups s.toList
  decode_encode b := by rw [String.toList_ofList, decodeGroups_encodeGroups]
  isGraphic_encode b := by
    rw [String.toList_ofList]
    exact isGraphic_encodeGroups b

end Base64
