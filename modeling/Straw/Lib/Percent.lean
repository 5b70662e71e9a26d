import Straw.Lib.Text

/-!
# Percent-encoded text

A percent sign with two hexadecimal digits stands for a byte, any other character for its
bytes in UTF-8. A reader that takes three characters at every percent sign may step over
the sign of an escape; `Occurs` speaks of what such a reader meets.
-/

set_option autoImplicit false

namespace Percent

/-- The value of a digit or of a letter of either case, and 36 for what is neither. -/
def digitValue (c : Char) : Nat :=
  if 48 ≤ c.toNat ∧ c.toNat ≤ 57 then c.toNat - 48
  else if 97 ≤ c.toNat ∧ c.toNat ≤ 122 then c.toNat - 87
  else if 65 ≤ c.toNat ∧ c.toNat ≤ 90 then c.toNat - 55
  else 36

def toDigit (radix : Nat) (c : Char) : Option Nat :=
  if digitValue c < radix then some (digitValue c) else none

theorem toDigit_eq_some_iff {radix d : Nat} {c : Char} :
    toDigit radix c = some d ↔ digitValue c = d ∧ d < radix := by
  unfold toDigit
  split
  · next h =>
    rw [Option.some.injEq]
    exact ⟨fun hd => ⟨hd, hd ▸ h⟩, fun hd => hd.1⟩
  · next h =>
    constructor
    · intro hd
      exact absurd hd (Option.some_ne_none d).symm
    · rintro ⟨rfl, hd⟩
      exact absurd hd h

theorem ne_of_toDigit {radix d : Nat} {c e : Char} (h : toDigit radix c = some d)
    (he : toDigit radix e = none) : c ≠ e := by
  rintro rfl
  rw [h] at he
  exact absurd he (Option.some_ne_none d)

theorem toNat_of_digitValue {c : Char} (h : digitValue c < 36) :
    (48 ≤ c.toNat ∧ c.toNat ≤ 57) ∨ (65 ≤ c.toNat ∧ c.toNat ≤ 90) ∨
      (97 ≤ c.toNat ∧ c.toNat ≤ 122) := by
  unfold digitValue at h
  split_ifs at h <;> omega

/-- A digit of radix 16 is a letter or a digit of the ASCII range. -/
theorem toNat_of_toDigit {d : Nat} {c : Char} (h : toDigit 16 c = some d) :
    (48 ≤ c.toNat ∧ c.toNat ≤ 57) ∨ (65 ≤ c.toNat ∧ c.toNat ≤ 90) ∨
      (97 ≤ c.toNat ∧ c.toNat ≤ 122) := by
  obtain ⟨hd, hlt⟩ := toDigit_eq_some_iff.mp h
  exact toNat_of_digitValue (by omega)

/-- The byte that two digits behind a percent sign stand for. -/
def escaped (a b : Char) : Option UInt8 := do
  let x ← toDigit 16 a
  let y ← toDigit 16 b
  return UInt8.ofNat (16 * x + y)

theorem escaped_eq_some_iff {a b : Char} {byte : UInt8} :
    escaped a b = some byte ↔
      ∃ x y, toDigit 16 a = some x ∧ toDigit 16 b = some y ∧ byte = UInt8.ofNat (16 * x + y) := by
  simp only [escaped, Option.bind_eq_bind, Option.bind_eq_some_iff, Option.pure_def,
    Option.some.injEq]
  constructor
  · rintro ⟨x, hx, y, hy, rfl⟩
    exact ⟨x, y, hx, hy, rfl⟩
  · rintro ⟨x, y, hx, hy, rfl⟩
    exact ⟨x, hx, y, hy, rfl⟩

/-- The byte, if the text behind a percent sign makes it an escape. -/
def escapeAt : List Char → Option UInt8
  | a :: b :: _ => escaped a b
  | _ => none

theorem escapeAt_eq_some {rest : List Char} {byte : UInt8} (h : escapeAt rest = some byte) :
    ∃ a b r, rest = a :: b :: r ∧ escaped a b = some byte := by
  match rest with
  | [] => exact absurd h (by simp [escapeAt])
  | [_] => exact absurd h (by simp [escapeAt])
  | a :: b :: r => exact ⟨a, b, r, rfl, h⟩

def unescape : List Char → List UInt8
  | [] => []
  | c :: rest =>
    match (if c = '%' then escapeAt rest else none) with
    | some byte => byte :: unescape (rest.drop 2)
    | none => String.utf8EncodeChar c ++ unescape rest
termination_by text => text.length

@[simp] theorem unescape_nil : unescape [] = [] := by rw [unescape]

theorem unescape_escape {a b : Char} {byte : UInt8} (h : escaped a b = some byte)
    (rest : List Char) : unescape ('%' :: a :: b :: rest) = byte :: unescape rest := by
  rw [unescape]
  simp only [if_pos, escapeAt, h, List.drop_succ_cons, List.drop_zero]

theorem unescape_char {c : Char} {rest : List Char} (h : c = '%' → escapeAt rest = none) :
    unescape (c :: rest) = String.utf8EncodeChar c ++ unescape rest := by
  rw [unescape]
  by_cases hc : c = '%'
  · simp only [if_pos hc, h hc]
  · simp only [if_neg hc]

theorem unescape_short {text : List Char} (h : text.length < 3) : unescape text = Text.utf8 text := by
  induction text with
  | nil => rw [unescape_nil, Text.utf8_nil]
  | cons c rest ih =>
    rw [List.length_cons] at h
    have hnone : escapeAt rest = none := by
      match rest with
      | [] => rfl
      | [_] => rfl
      | _ :: _ :: _ => simp only [List.length_cons] at h; omega
    rw [unescape_char (fun _ => hnone), ih (by omega), Text.utf8_cons]

/-- A hexadecimal digit is one byte and begins no escape. -/
theorem unescape_digit {d : Nat} {c : Char} (h : toDigit 16 c = some d) (rest : List Char) :
    unescape (c :: rest) = UInt8.ofNat c.toNat :: unescape rest := by
  have hrange := toNat_of_toDigit h
  have hc : c ≠ '%' := ne_of_toDigit h (by decide)
  rw [unescape_char (fun heq => absurd heq hc), Text.utf8EncodeChar_ascii (by omega)]
  rfl

/-- Either a character stands for itself, or it begins an escape whose digits stand for
themselves when the percent sign is taken away. -/
theorem unescape_cons_cases (c : Char) (rest : List Char) :
    ((c = '%' → escapeAt rest = none) ∧
      unescape (c :: rest) = String.utf8EncodeChar c ++ unescape rest) ∨
    ∃ a b r byte x y, c = '%' ∧ rest = a :: b :: r ∧ escapeAt rest = some byte ∧
      toDigit 16 a = some x ∧ toDigit 16 b = some y ∧ unescape (c :: rest) = byte :: unescape r ∧
      unescape rest = UInt8.ofNat a.toNat :: UInt8.ofNat b.toNat :: unescape r := by
  by_cases hc : c = '%' ∧ escapeAt rest ≠ none
  · obtain ⟨rfl, hsome⟩ := hc
    obtain ⟨byte, hbyte⟩ := Option.ne_none_iff_exists'.mp hsome
    obtain ⟨a, b, r, rfl, hab⟩ := escapeAt_eq_some hbyte
    obtain ⟨x, y, hx, hy, -⟩ := escaped_eq_some_iff.mp hab
    refine .inr ⟨a, b, r, byte, x, y, rfl, rfl, hbyte, hx, hy, unescape_escape hab r, ?_⟩
    rw [unescape_digit hx, unescape_digit hy]
  · have hnone : c = '%' → escapeAt rest = none := by
      intro heq
      by_contra hne
      exact hc ⟨heq, hne⟩
    exact .inl ⟨hnone, unescape_char hnone⟩

/-- Taking a character away cannot bring a byte that is no percent sign and no digit. -/
theorem count_unescape_le {x : UInt8} (hx : x.toNat < 48 ∧ x ≠ 0x25) (c : Char)
    (rest : List Char) :
    (String.utf8EncodeChar c ++ unescape rest).count x ≤ (unescape (c :: rest)).count x := by
  have hdigit : ∀ {d e}, toDigit 16 d = some e → UInt8.ofNat d.toNat ≠ x := by
    intro d e hd heq
    have hrange := toNat_of_toDigit hd
    have hval := Text.toNat_ofNat_ascii (show d.toNat < 128 by omega)
    rw [heq] at hval
    omega
  obtain ⟨-, heq⟩ | ⟨a, b, r, byte, _, _, rfl, -, -, ha, hb, heq, hrest⟩ := unescape_cons_cases c rest
  · rw [heq]
  · have hpercent : String.utf8EncodeChar '%' = [0x25] := by decide
    rw [heq, hrest, hpercent, List.singleton_append, List.count_cons_of_ne hx.2.symm,
      List.count_cons_of_ne (hdigit ha), List.count_cons_of_ne (hdigit hb)]
    exact List.count_le_count_cons

theorem count_unescape_append_le {x : UInt8} (hx : x.toNat < 48 ∧ x ≠ 0x25) (l rest : List Char) :
    (Text.utf8 l ++ unescape rest).count x ≤ (unescape (l ++ rest)).count x := by
  induction l with
  | nil => exact Nat.le_refl _
  | cons c l ih =>
    have hle := count_unescape_le hx c (l ++ rest)
    rw [List.cons_append, Text.utf8_cons]
    simp only [List.count_append] at hle ih ⊢
    omega

theorem mem_unescape_append {x : UInt8} (hx : x.toNat < 48 ∧ x ≠ 0x25) (l : List Char)
    {rest : List Char} (h : x ∈ Text.utf8 l ++ unescape rest) : x ∈ unescape (l ++ rest) := by
  have hle := count_unescape_append_le hx l rest
  rw [← List.count_pos_iff] at h ⊢
  omega

theorem length_unescape_le (c : Char) (rest : List Char) :
    (unescape (c :: rest)).length ≤ (String.utf8EncodeChar c ++ unescape rest).length := by
  obtain ⟨-, heq⟩ | ⟨a, b, r, byte, _, _, -, -, -, -, -, heq, hrest⟩ := unescape_cons_cases c rest
  · rw [heq]
  · rw [heq, hrest, List.length_append]
    simp only [List.length_cons]
    omega

theorem length_unescape_append_le (l rest : List Char) :
    (unescape (l ++ rest)).length ≤ (Text.utf8 l ++ unescape rest).length := by
  induction l with
  | nil => exact Nat.le_refl _
  | cons c l ih =>
    have hle := length_unescape_le c (l ++ rest)
    rw [List.cons_append, Text.utf8_cons]
    simp only [List.length_append] at hle ih ⊢
    omega

theorem length_unescape_lt {rest : List Char} (h : escapeAt rest ≠ none) :
    (unescape ('%' :: rest)).length < (String.utf8EncodeChar '%' ++ unescape rest).length := by
  obtain ⟨hnone, -⟩ | ⟨a, b, r, byte, _, _, -, -, -, -, -, heq, hrest⟩ :=
    unescape_cons_cases '%' rest
  · exact absurd (hnone rfl) h
  · rw [heq, hrest, List.length_append]
    simp only [List.length_cons]
    omega

/-- Reading from the left, a percent sign is met with the text behind it in `P`; the
reader goes on behind the two characters that follow the sign. -/
inductive Occurs (P : List Char → Prop) : List Char → Prop where
  | here {rest : List Char} : P rest → Occurs P ('%' :: rest)
  | plain {c : Char} {rest : List Char} : c ≠ '%' → Occurs P rest → Occurs P (c :: rest)
  | triple {a b : Char} {rest : List Char} : Occurs P rest → Occurs P ('%' :: a :: b :: rest)

/-- Induction along such a reader. -/
@[elab_as_elim]
theorem induction {motive : List Char → Prop} (text : List Char) (nil : motive [])
    (plain : ∀ c rest, c ≠ '%' → motive rest → motive (c :: rest))
    (short : ∀ rest, rest.length < 2 → motive ('%' :: rest))
    (triple : ∀ a b rest, motive rest → motive ('%' :: a :: b :: rest)) : motive text := by
  induction h : text.length using Nat.strong_induction_on generalizing text with
  | _ n ih =>
    subst h
    cases text with
    | nil => exact nil
    | cons c rest =>
      by_cases hc : c = '%'
      · subst hc
        match rest with
        | [] => exact short [] (by decide)
        | [a] => exact short [a] (Nat.lt_succ_self 1)
        | a :: b :: rest =>
          apply triple
          exact ih rest.length (by simp; omega) rest rfl
      · apply plain c rest hc
        exact ih rest.length (by simp) rest rfl

namespace Occurs

variable {P Q : List Char → Prop} {c a b : Char} {rest : List Char}

theorem plain_iff (h : c ≠ '%') : Occurs P (c :: rest) ↔ Occurs P rest := by
  constructor
  · intro ho
    cases ho with
    | here => exact absurd rfl h
    | plain _ ho => exact ho
    | triple => exact absurd rfl h
  · exact .plain h

theorem triple_iff : Occurs P ('%' :: a :: b :: rest) ↔ P (a :: b :: rest) ∨ Occurs P rest := by
  constructor
  · intro ho
    cases ho with
    | here hp => exact .inl hp
    | plain h => exact absurd rfl h
    | triple ho => exact .inr ho
  · rintro (hp | ho)
    · exact .here hp
    · exact .triple ho

theorem short_iff (h : rest.length < 2) : Occurs P ('%' :: rest) ↔ P rest := by
  constructor
  · intro ho
    cases ho with
    | here hp => exact hp
    | plain hc => exact absurd rfl hc
    | triple => simp only [List.length_cons] at h; omega
  · exact .here

theorem or (h : Occurs (fun rest => P rest ∨ Q rest) rest) : Occurs P rest ∨ Occurs Q rest := by
  induction h with
  | here hp => exact hp.imp .here .here
  | plain hc _ ih => exact ih.imp (.plain hc) (.plain hc)
  | triple _ ih => exact ih.imp .triple .triple

theorem percent_mem {text : List Char} (h : Occurs P text) : '%' ∈ text := by
  cases h with
  | here => exact List.mem_cons_self
  | plain _ h => exact List.mem_cons_of_mem _ h.percent_mem
  | triple => exact List.mem_cons_self

end Occurs

end Percent
