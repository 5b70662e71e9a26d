import Straw.Uri.Template

/-!
# Where the decoder of the server goes wrong

Compared with the bytes that a percent-encoded text stands for, the decoder makes a
character of Latin-1 out of a byte, takes a plus sign for a digit, and steps over an
escape that begins in the two characters behind a stray percent sign.
-/

namespace Straw.UriTemplate

open Text Percent

set_option autoImplicit false

/-- An escape of a byte that is no ASCII character. -/
def HighAt (rest : List Char) : Prop := ∃ byte, escapeAt rest = some byte ∧ 128 ≤ byte.toNat

/-- A plus sign in the place of the first digit. -/
def SignedAt (rest : List Char) : Prop :=
  ∃ b y r, rest = '+' :: b :: r ∧ toDigit 16 b = some y

/-- An escape that begins in the two characters behind a percent sign. -/
def HiddenAt (rest : List Char) : Prop :=
  (∃ r, rest = '%' :: r ∧ escapeAt r ≠ none) ∨ ∃ a r, rest = a :: '%' :: r ∧ escapeAt r ≠ none

def MisreadAt (rest : List Char) : Prop := SignedAt rest ∨ HighAt rest ∨ HiddenAt rest

/-- An escaped slash. -/
def SlashAt (rest : List Char) : Prop := escapeAt rest = some 0x2f

theorem not_highAt_of_none {rest : List Char} (h : escapeAt rest = none) : ¬ HighAt rest := by
  rintro ⟨byte, hbyte, -⟩
  rw [h] at hbyte
  exact absurd hbyte (by simp)

theorem signedAt_iff {a b : Char} {rest : List Char} :
    SignedAt (a :: b :: rest) ↔ a = '+' ∧ ∃ y, toDigit 16 b = some y := by
  constructor
  · rintro ⟨b', y, r, heq, hy⟩
    obtain ⟨rfl, rfl, rfl⟩ : a = '+' ∧ b = b' ∧ rest = r := by simpa using heq
    exact ⟨rfl, y, hy⟩
  · rintro ⟨rfl, y, hy⟩
    exact ⟨b, y, rest, rfl, hy⟩

theorem hiddenAt_iff {a b : Char} {rest : List Char} :
    HiddenAt (a :: b :: rest) ↔
      (a = '%' ∧ escapeAt (b :: rest) ≠ none) ∨ (b = '%' ∧ escapeAt rest ≠ none) := by
  constructor
  · rintro (⟨r, heq, hr⟩ | ⟨a', r, heq, hr⟩)
    · obtain ⟨rfl, rfl⟩ : a = '%' ∧ b :: rest = r := by simpa using heq
      exact .inl ⟨rfl, hr⟩
    · obtain ⟨rfl, rfl, rfl⟩ : a = a' ∧ b = '%' ∧ rest = r := by simpa using heq
      exact .inr ⟨rfl, hr⟩
  · rintro (⟨rfl, hr⟩ | ⟨rfl, hr⟩)
    · exact .inl ⟨b :: rest, rfl, hr⟩
    · exact .inr ⟨a, rest, rfl, hr⟩

/-- Nothing is misread at a percent sign at the end of the text. -/
theorem not_misreadAt_short {rest : List Char} (h : rest.length < 2) : ¬ MisreadAt rest := by
  rintro (⟨b, y, r, rfl, -⟩ | ⟨byte, hbyte, -⟩ | ⟨r, rfl, hr⟩ | ⟨a, r, rfl, -⟩)
  · simp only [List.length_cons] at h
    omega
  · obtain ⟨a, b, r, rfl, -⟩ := escapeAt_eq_some hbyte
    simp only [List.length_cons] at h
    omega
  · obtain ⟨byte, hbyte⟩ := Option.ne_none_iff_exists'.mp hr
    obtain ⟨a, b, r, rfl, -⟩ := escapeAt_eq_some hbyte
    simp only [List.length_cons] at h
    omega
  · simp only [List.length_cons] at h
    omega

/-- Two digits are neither signed nor in front of a hidden escape, only their byte can be
too high. -/
theorem misreadAt_escape {a b : Char} {byte : UInt8} {rest : List Char}
    (hbyte : escaped a b = some byte) (h : MisreadAt (a :: b :: rest)) : 128 ≤ byte.toNat := by
  obtain ⟨x, y, hx, hy, -⟩ := escaped_eq_some_iff.mp hbyte
  obtain hsigned | ⟨byte', hbyte', hhigh⟩ | hhidden := h
  · exact absurd (signedAt_iff.mp hsigned).1 (ne_of_toDigit hx (by decide))
  · obtain rfl : byte = byte' := Option.some.inj (hbyte.symm.trans hbyte')
    exact hhigh
  · obtain ⟨ha, -⟩ | ⟨hb, -⟩ := hiddenAt_iff.mp hhidden
    · exact absurd ha (ne_of_toDigit hx (by decide))
    · exact absurd hb (ne_of_toDigit hy (by decide))

theorem ofNat_toNat_lt {n : Nat} (h : n < 256) : (Char.ofNat n).toNat = n := by
  have key : ∀ k : Fin 256, (Char.ofNat k.val).toNat = k.val := by decide +kernel
  exact key ⟨n, h⟩

/-- A character below 256 is one byte exactly when it is an ASCII character. -/
theorem utf8EncodeChar_length (byte : UInt8) :
    (String.utf8EncodeChar (Char.ofNat byte.toNat)).length = if byte.toNat < 128 then 1 else 2 := by
  have key : ∀ n : Fin 256, (String.utf8EncodeChar (Char.ofNat n.val)).length =
      if n.val < 128 then 1 else 2 := by
    decide +kernel
  exact key ⟨byte.toNat, byte.toNat_lt⟩

/-! Agreement -/

theorem unescape_triple_stray {a b : Char} {rest : List Char} (hnone : escaped a b = none)
    (hhidden : ¬ HiddenAt (a :: b :: rest)) :
    unescape ('%' :: a :: b :: rest) = utf8 ['%', a, b] ++ unescape rest := by
  rw [hiddenAt_iff, not_or] at hhidden
  have ha : a = '%' → escapeAt (b :: rest) = none := by
    intro heq
    by_contra hne
    exact hhidden.1 ⟨heq, hne⟩
  have hb : b = '%' → escapeAt rest = none := by
    intro heq
    by_contra hne
    exact hhidden.2 ⟨heq, hne⟩
  have hpercent : '%' = '%' → escapeAt (a :: b :: rest) = none := fun _ => hnone
  rw [unescape_char hpercent, unescape_char ha, unescape_char hb]
  simp [List.append_assoc]

/-- Without a misread percent sign the decoder is right. -/
theorem unescape_eq_of_not_misread {text : List Char} (h : ¬ Occurs MisreadAt text) :
    unescape text = utf8 (percentDecode text) := by
  induction text using Percent.induction with
  | nil => rw [unescape_nil]; rfl
  | plain c rest hc ih =>
    rw [Occurs.plain_iff hc] at h
    rw [unescape_char (fun heq => absurd heq hc), percentDecode_plain hc, utf8_cons, ih h]
  | short rest hrest =>
    rw [percentDecode_short hrest, unescape_short (by rw [List.length_cons]; omega)]
  | triple a b rest ih =>
    rw [Occurs.triple_iff, not_or] at h
    obtain ⟨hhere, hrest⟩ := h
    rw [percentDecode_triple, utf8_append, ← ih hrest]
    obtain ⟨byte, hbyte, htriple⟩ | ⟨y, rfl, hy, -⟩ | ⟨hnone, -, htriple⟩ := decodeTriple_cases a b
    · have hlow : byte.toNat < 128 := by
        by_contra hge
        exact hhere (.inr (.inl ⟨byte, hbyte, Nat.le_of_not_lt hge⟩))
      have hchar := ofNat_toNat_lt (show byte.toNat < 256 by omega)
      rw [unescape_escape hbyte, htriple, utf8_cons, utf8_nil, List.append_nil,
        utf8EncodeChar_ascii (by omega), hchar, UInt8.ofNat_toNat]
      rfl
    · exact absurd (.inl (signedAt_iff.mpr ⟨rfl, y, hy⟩)) hhere
    · rw [htriple]
      exact unescape_triple_stray hnone (fun hhidden => hhere (.inr (.inr hhidden)))

/-! Disagreement

A sign taken for a digit costs a plus sign, which nothing gives back. Without one, every
misread percent sign makes the result longer. -/

theorem count_plus_decoded_le (byte : UInt8) :
    (String.utf8EncodeChar (Char.ofNat byte.toNat)).count 0x2b ≤ [byte].count 0x2b := by
  have key : ∀ n : Fin 256, (String.utf8EncodeChar (Char.ofNat n.val)).count 0x2b ≤
      [UInt8.ofNat n.val].count 0x2b := by
    decide +kernel
  have hbyte := key ⟨byte.toNat, byte.toNat_lt⟩
  rwa [UInt8.ofNat_toNat] at hbyte

theorem count_plus_signed {y : Nat} (hy : y < 16) :
    (String.utf8EncodeChar (Char.ofNat y)).count 0x2b = 0 := by
  have key : ∀ n : Fin 16, (String.utf8EncodeChar (Char.ofNat n.val)).count 0x2b = 0 := by
    decide +kernel
  exact key ⟨y, hy⟩

theorem count_plus_triple (a b : Char) (rest : List Char) :
    (utf8 (decodeTriple [a, b]) ++ unescape rest).count 0x2b ≤
        (unescape ('%' :: a :: b :: rest)).count 0x2b ∧
      (SignedAt (a :: b :: rest) →
        (utf8 (decodeTriple [a, b]) ++ unescape rest).count 0x2b <
          (unescape ('%' :: a :: b :: rest)).count 0x2b) := by
  have happend := count_unescape_append_le (show (0x2b : UInt8).toNat < 48 ∧ (0x2b : UInt8) ≠ 0x25
    by decide) ['%', a, b] rest
  simp only [List.cons_append, List.nil_append] at happend
  obtain ⟨byte, hbyte, htriple⟩ | ⟨y, rfl, hy, htriple⟩ | ⟨hnone, hsign, htriple⟩ :=
    decodeTriple_cases a b
  · have hle := count_plus_decoded_le byte
    rw [htriple, unescape_escape hbyte, utf8_cons, utf8_nil, List.append_nil, List.count_append,
      ← List.singleton_append, List.count_append]
    refine ⟨by omega, ?_⟩
    intro hsigned
    obtain ⟨rfl, -⟩ := signedAt_iff.mp hsigned
    exact absurd hbyte (by simp [escaped, show toDigit 16 '+' = none by decide])
  · have hzero := count_plus_signed (toDigit_eq_some_iff.mp hy).2
    have hplus : (String.utf8EncodeChar '+').count 0x2b = 1 := by decide
    rw [htriple, utf8_cons, utf8_nil, List.append_nil, List.count_append, hzero]
    simp only [utf8_cons, utf8_nil, List.count_append, hplus] at happend
    exact ⟨by omega, fun _ => by omega⟩
  · rw [htriple]
    refine ⟨happend, ?_⟩
    intro hsigned
    obtain ⟨rfl, y, hy⟩ := signedAt_iff.mp hsigned
    rw [hsign rfl] at hy
    exact absurd hy (by simp)

theorem count_plus_le (text : List Char) :
    (utf8 (percentDecode text)).count 0x2b ≤ (unescape text).count 0x2b := by
  induction text using Percent.induction with
  | nil => rw [unescape_nil]; exact Nat.le_refl _
  | plain c rest hc ih =>
    rw [unescape_char (fun heq => absurd heq hc), percentDecode_plain hc, utf8_cons,
      List.count_append, List.count_append]
    omega
  | short rest hrest =>
    rw [percentDecode_short hrest, unescape_short (by rw [List.length_cons]; omega)]
  | triple a b rest ih =>
    have htriple := (count_plus_triple a b rest).1
    rw [percentDecode_triple, utf8_append]
    simp only [List.count_append] at htriple ⊢
    omega

theorem count_plus_lt {text : List Char} (h : Occurs SignedAt text) :
    (utf8 (percentDecode text)).count 0x2b < (unescape text).count 0x2b := by
  induction h with
  | @here rest hsigned =>
    obtain ⟨b, y, r, rfl, hy⟩ := hsigned
    have htriple := (count_plus_triple '+' b r).2 ⟨b, y, r, rfl, hy⟩
    have hle := count_plus_le r
    rw [percentDecode_triple, utf8_append]
    simp only [List.count_append] at htriple ⊢
    omega
  | @plain c rest hc _ ih =>
    rw [unescape_char (fun heq => absurd heq hc), percentDecode_plain hc, utf8_cons,
      List.count_append, List.count_append]
    omega
  | @triple a b rest _ ih =>
    have htriple := (count_plus_triple a b rest).1
    rw [percentDecode_triple, utf8_append]
    simp only [List.count_append] at htriple ⊢
    omega

theorem length_hidden_lt {a b : Char} {rest : List Char} (h : HiddenAt (a :: b :: rest)) :
    (unescape ('%' :: a :: b :: rest)).length < (utf8 ['%', a, b] ++ unescape rest).length := by
  have hfirst := length_unescape_le '%' (a :: b :: rest)
  have hsecond := length_unescape_le a (b :: rest)
  have hthird := length_unescape_le b rest
  simp only [utf8_cons, utf8_nil, List.append_nil, List.length_append] at hfirst hsecond hthird ⊢
  obtain ⟨rfl, hne⟩ | ⟨rfl, hne⟩ := hiddenAt_iff.mp h
  · have hlt := length_unescape_lt hne
    rw [List.length_append] at hlt
    omega
  · have hlt := length_unescape_lt hne
    rw [List.length_append] at hlt
    omega

theorem length_triple {a b : Char} {rest : List Char} (hsigned : ¬ SignedAt (a :: b :: rest)) :
    (unescape ('%' :: a :: b :: rest)).length ≤
        (utf8 (decodeTriple [a, b]) ++ unescape rest).length ∧
      (HighAt (a :: b :: rest) ∨ HiddenAt (a :: b :: rest) →
        (unescape ('%' :: a :: b :: rest)).length <
          (utf8 (decodeTriple [a, b]) ++ unescape rest).length) := by
  obtain ⟨byte, hbyte, htriple⟩ | ⟨y, rfl, hy, -⟩ | ⟨hnone, -, htriple⟩ := decodeTriple_cases a b
  · have hlen := utf8EncodeChar_length byte
    rw [htriple, unescape_escape hbyte, utf8_cons, utf8_nil, List.append_nil, List.length_append,
      List.length_cons, hlen]
    refine ⟨by split <;> omega, ?_⟩
    intro hmisread
    have hhigh := misreadAt_escape hbyte (.inr hmisread)
    rw [if_neg (by omega)]
    omega
  · exact absurd (signedAt_iff.mpr ⟨rfl, y, hy⟩) hsigned
  · rw [htriple]
    refine ⟨length_unescape_append_le ['%', a, b] rest, ?_⟩
    rintro (hhigh | hhidden)
    · exact absurd hhigh (not_highAt_of_none hnone)
    · exact length_hidden_lt hhidden

theorem length_le {text : List Char} (h : ¬ Occurs SignedAt text) :
    (unescape text).length ≤ (utf8 (percentDecode text)).length := by
  induction text using Percent.induction with
  | nil => rw [unescape_nil]; exact Nat.le_refl _
  | plain c rest hc ih =>
    have hrest := ih (mt (Occurs.plain hc) h)
    rw [unescape_char (fun heq => absurd heq hc), percentDecode_plain hc, utf8_cons,
      List.length_append, List.length_append]
    omega
  | short rest hrest =>
    rw [percentDecode_short hrest, unescape_short (by rw [List.length_cons]; omega)]
  | triple a b rest ih =>
    have hrest := ih (mt Occurs.triple h)
    have htriple := (length_triple (mt Occurs.here h)).1
    rw [percentDecode_triple, utf8_append]
    simp only [List.length_append] at htriple ⊢
    omega

theorem length_lt {text : List Char} (hsigned : ¬ Occurs SignedAt text)
    (h : Occurs (fun rest => HighAt rest ∨ HiddenAt rest) text) :
    (unescape text).length < (utf8 (percentDecode text)).length := by
  induction h with
  | @here rest hhere =>
    match rest, hhere, hsigned with
    | a :: b :: rest, hhere, hsigned =>
      have htriple := (length_triple (mt Occurs.here hsigned)).2 hhere
      have hle := length_le (mt Occurs.triple hsigned)
      rw [percentDecode_triple, utf8_append]
      simp only [List.length_append] at htriple ⊢
      omega
    | [], hhere, _ => exact absurd (.inr hhere) (not_misreadAt_short (by simp))
    | [_], hhere, _ => exact absurd (.inr hhere) (not_misreadAt_short (by simp))
  | @plain c rest hc _ ih =>
    have hrest := ih (mt (Occurs.plain hc) hsigned)
    rw [unescape_char (fun heq => absurd heq hc), percentDecode_plain hc, utf8_cons,
      List.length_append, List.length_append]
    omega
  | @triple a b rest _ ih =>
    have hrest := ih (mt Occurs.triple hsigned)
    have htriple := (length_triple (mt Occurs.here hsigned)).1
    rw [percentDecode_triple, utf8_append]
    simp only [List.length_append] at htriple ⊢
    omega

/-- A misread percent sign always shows in the result. -/
theorem unescape_ne_of_misread {text : List Char} (h : Occurs MisreadAt text) :
    unescape text ≠ utf8 (percentDecode text) := by
  intro heq
  by_cases hsigned : Occurs SignedAt text
  · have hlt := count_plus_lt hsigned
    rw [heq] at hlt
    exact Nat.lt_irrefl _ hlt
  · have hlt := length_lt hsigned (h.or.resolve_left hsigned)
    rw [heq] at hlt
    exact Nat.lt_irrefl _ hlt

/-! What a misread percent sign leaves behind, and slashes -/

theorem mem_unescape_of_misread {text : List Char} (h : Occurs MisreadAt text) :
    ∃ byte ∈ unescape text, byte = 0x25 ∨ 128 ≤ byte.toNat := by
  have hstray : ∀ {rest}, escapeAt rest = none → (0x25 : UInt8) ∈ unescape ('%' :: rest) := by
    intro rest hnone
    rw [unescape_char (fun _ => hnone)]
    exact List.mem_append_left _ (by decide)
  induction h with
  | @here rest hmisread =>
    cases hescape : escapeAt rest with
    | none => exact ⟨0x25, hstray hescape, .inl rfl⟩
    | some byte =>
      obtain ⟨a, b, r, rfl, hab⟩ := escapeAt_eq_some hescape
      rw [unescape_escape hab]
      exact ⟨byte, List.mem_cons_self, .inr (misreadAt_escape hab hmisread)⟩
  | @plain c rest hc _ ih =>
    obtain ⟨byte, hmem, hbyte⟩ := ih
    rw [unescape_char (fun heq => absurd heq hc)]
    exact ⟨byte, List.mem_append_right _ hmem, hbyte⟩
  | @triple a b rest _ ih =>
    cases hescape : escaped a b with
    | none => exact ⟨0x25, hstray hescape, .inl rfl⟩
    | some byte =>
      obtain ⟨byte', hmem, hbyte⟩ := ih
      rw [unescape_escape hescape]
      exact ⟨byte', List.mem_cons_of_mem byte hmem, hbyte⟩

theorem mem_percentDecode_of_misread {text : List Char} (h : Occurs MisreadAt text) :
    ∃ c ∈ percentDecode text, c = '%' ∨ c.toNat < 16 ∨ 128 ≤ c.toNat := by
  have htriple : ∀ {a b} (rest : List Char),
      (MisreadAt (a :: b :: rest) ∨ ∃ c ∈ percentDecode rest, c = '%' ∨ c.toNat < 16 ∨ 128 ≤ c.toNat) →
      ∃ c ∈ percentDecode ('%' :: a :: b :: rest), c = '%' ∨ c.toNat < 16 ∨ 128 ≤ c.toNat := by
    intro a b rest hor
    rw [percentDecode_triple]
    obtain ⟨byte, hbyte, htriple⟩ | ⟨y, rfl, hy, htriple⟩ | ⟨hnone, hsign, htriple⟩ :=
      decodeTriple_cases a b
    · obtain hmisread | ⟨c, hmem, hc⟩ := hor
      · have hhigh := misreadAt_escape hbyte hmisread
        have hlt := byte.toNat_lt
        rw [htriple]
        refine ⟨Char.ofNat byte.toNat, List.mem_cons_self, .inr (.inr ?_)⟩
        rw [ofNat_toNat_lt (by omega)]
        exact hhigh
      · exact ⟨c, List.mem_append_right _ hmem, hc⟩
    · have hlt := (toDigit_eq_some_iff.mp hy).2
      rw [htriple]
      exact ⟨Char.ofNat y, List.mem_cons_self, .inr (.inl (by rw [ofNat_toNat_lt (by omega)]; omega))⟩
    · rw [htriple]
      exact ⟨'%', List.mem_cons_self, .inl rfl⟩
  induction h with
  | @here rest hmisread =>
    match rest, hmisread with
    | a :: b :: rest, hmisread => exact htriple rest (.inl hmisread)
    | [], hmisread => exact absurd hmisread (not_misreadAt_short (by simp))
    | [_], hmisread => exact absurd hmisread (not_misreadAt_short (by simp))
  | @plain c rest hc _ ih =>
    obtain ⟨d, hmem, hd⟩ := ih
    rw [percentDecode_plain hc]
    exact ⟨d, List.mem_cons_of_mem c hmem, hd⟩
  | @triple a b rest _ ih => exact htriple rest (.inr ih)

theorem not_slashAt_short {rest : List Char} (h : rest.length < 2) : ¬ SlashAt rest := by
  intro hslash
  obtain ⟨a, b, r, rfl, -⟩ := escapeAt_eq_some hslash
  simp only [List.length_cons] at h
  omega

theorem slash_mem_triple (a b : Char) (rest : List Char) :
    '/' ∈ decodeTriple [a, b] ↔ '/' ∈ [a, b] ∨ SlashAt (a :: b :: rest) := by
  have hdigit : ∀ {c d}, toDigit 16 c = some d → '/' ≠ c :=
    fun hd => (ne_of_toDigit hd (by decide)).symm
  obtain ⟨byte, hbyte, htriple⟩ | ⟨y, rfl, hy, htriple⟩ | ⟨hnone, -, htriple⟩ :=
    decodeTriple_cases a b
  · obtain ⟨x, y, hx, hy, -⟩ := escaped_eq_some_iff.mp hbyte
    have hval : '/' = Char.ofNat byte.toNat ↔ byte = 0x2f := by
      rw [← Char.toNat_inj, ofNat_toNat_lt byte.toNat_lt, ← UInt8.toNat_inj]
      exact eq_comm
    have hslash : SlashAt (a :: b :: rest) ↔ byte = 0x2f := by
      rw [SlashAt, escapeAt, hbyte, Option.some.injEq]
    rw [htriple, List.mem_singleton, hval, hslash]
    simp [hdigit hx, hdigit hy]
  · have hlt := (toDigit_eq_some_iff.mp hy).2
    have hchar : '/' ≠ Char.ofNat y := by
      rw [ne_eq, ← Char.toNat_inj, ofNat_toNat_lt (show y < 256 by omega)]
      have : '/'.toNat = 47 := rfl
      omega
    have hslash : ¬ SlashAt ('+' :: b :: rest) := by
      simp [SlashAt, escapeAt, escaped, show toDigit 16 '+' = none by decide]
    rw [htriple, List.mem_singleton]
    simp [hchar, hslash, hdigit hy]
  · have hslash : ¬ SlashAt (a :: b :: rest) := by
      rw [SlashAt, escapeAt, hnone]
      simp
    rw [htriple]
    simp [hslash]

theorem slash_mem_percentDecode (text : List Char) :
    '/' ∈ percentDecode text ↔ '/' ∈ text ∨ Occurs SlashAt text := by
  induction text using Percent.induction with
  | nil =>
    have hnil : ¬ Occurs SlashAt [] := nofun
    simp [percentDecode, hnil]
  | plain c rest hc ih =>
    rw [percentDecode_plain hc, Occurs.plain_iff hc, List.mem_cons, List.mem_cons, ih, or_assoc]
  | short rest hrest =>
    rw [percentDecode_short hrest, Occurs.short_iff hrest]
    simp [not_slashAt_short hrest]
  | triple a b rest ih =>
    rw [percentDecode_triple, List.mem_append, Occurs.triple_iff, slash_mem_triple a b rest, ih]
    simp only [List.mem_cons, List.not_mem_nil, or_false, show '/' ≠ '%' by decide, false_or,
      or_assoc, or_left_comm]

/-- Every slash that the decoder finds is there. -/
theorem slash_mem_unescape {text : List Char} (h : '/' ∈ percentDecode text) :
    0x2f ∈ unescape text := by
  have hx : (0x2f : UInt8).toNat < 48 ∧ (0x2f : UInt8) ≠ 0x25 := by decide
  have hself : (0x2f : UInt8) ∈ String.utf8EncodeChar '/' := by decide
  induction text using Percent.induction with
  | nil => exact absurd h (by simp [percentDecode])
  | plain c rest hc ih =>
    rw [percentDecode_plain hc] at h
    apply mem_unescape_append hx [c]
    obtain rfl | h := List.mem_cons.mp h
    · exact List.mem_append_left _ hself
    · exact List.mem_append_right _ (ih h)
  | short rest hrest =>
    rw [percentDecode_short hrest] at h
    rw [unescape_short (by rw [List.length_cons]; omega)]
    exact List.mem_flatMap.mpr ⟨'/', h, hself⟩
  | triple a b rest ih =>
    rw [percentDecode_triple, List.mem_append, slash_mem_triple a b rest] at h
    obtain (hmem | hslash) | hmem := h
    · apply mem_unescape_append hx ['%', a, b]
      apply List.mem_append_left
      exact List.mem_flatMap.mpr ⟨'/', List.mem_cons_of_mem _ hmem, hself⟩
    · have hbyte : escaped a b = some 0x2f := hslash
      rw [unescape_escape hbyte]
      exact List.mem_cons_self
    · cases hescape : escaped a b with
      | none =>
        apply mem_unescape_append hx ['%', a, b]
        exact List.mem_append_right _ (ih hmem)
      | some byte =>
        rw [unescape_escape hescape]
        exact List.mem_cons_of_mem byte (ih hmem)

end Straw.UriTemplate
