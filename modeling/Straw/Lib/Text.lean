import Mathlib.Data.List.Basic
import Mathlib.Data.Char

/-!
# Text as a list of characters

Splitting at the first and at the last occurrence of a separator, trimming, lines and the
words of a line, and the bytes of a text in UTF-8.
-/

set_option autoImplicit false

universe u

namespace Text

section Split
variable {α : Type u} [DecidableEq α] {sep : α} {l a b : List α}

def splitOnce (sep : α) : List α → Option (List α × List α)
  | [] => none
  | c :: l => if c = sep then some ([], l) else (splitOnce sep l).map fun p => (c :: p.1, p.2)

theorem splitOnce_append (b : List α) (h : sep ∉ a) :
    splitOnce sep (a ++ sep :: b) = some (a, b) := by
  induction a with
  | nil => simp only [List.nil_append, splitOnce, if_pos]
  | cons c a ih =>
    obtain ⟨hc, ha⟩ := not_or.mp (mt List.mem_cons.mpr h)
    simp only [List.cons_append, splitOnce, if_neg (Ne.symm hc), ih ha, Option.map_some]

theorem splitOnce_eq_none_iff : splitOnce sep l = none ↔ sep ∉ l := by
  induction l with
  | nil => simp [splitOnce]
  | cons c l ih =>
    by_cases hc : c = sep
    · simp [splitOnce, hc]
    · simp only [splitOnce, if_neg hc, Option.map_eq_none_iff, ih, List.mem_cons,
        Ne.symm hc, false_or]

theorem splitOnce_eq_some_iff : splitOnce sep l = some (a, b) ↔ l = a ++ sep :: b ∧ sep ∉ a := by
  constructor
  · intro h
    induction l generalizing a with
    | nil => exact absurd h (by simp [splitOnce])
    | cons c l ih =>
      by_cases hc : c = sep
      · subst hc
        simp only [splitOnce, if_pos, Option.some.injEq, Prod.mk.injEq] at h
        obtain ⟨rfl, rfl⟩ := h
        exact ⟨rfl, List.not_mem_nil⟩
      · simp only [splitOnce, if_neg hc, Option.map_eq_some_iff, Prod.mk.injEq] at h
        obtain ⟨⟨a', b'⟩, hsplit, rfl, rfl⟩ := h
        obtain ⟨rfl, ha⟩ := ih hsplit
        refine ⟨rfl, ?_⟩
        intro hmem
        obtain hmem | hmem := List.mem_cons.mp hmem
        · exact hc hmem.symm
        · exact ha hmem
  · rintro ⟨rfl, h⟩
    exact splitOnce_append b h

/-- Split at the last separator. -/
def rsplitOnce (sep : α) (l : List α) : Option (List α × List α) :=
  (splitOnce sep l.reverse).map fun p => (p.2.reverse, p.1.reverse)

theorem rsplitOnce_eq_some_iff :
    rsplitOnce sep l = some (a, b) ↔ l = a ++ sep :: b ∧ sep ∉ b := by
  have hrev : ∀ x y : List α, l.reverse = y ++ sep :: x ↔ l = x.reverse ++ sep :: y.reverse := by
    intro x y
    rw [List.reverse_eq_iff]
    simp
  simp only [rsplitOnce, Option.map_eq_some_iff, Prod.exists, Prod.mk.injEq]
  constructor
  · rintro ⟨y, x, hsplit, rfl, rfl⟩
    obtain ⟨hl, hy⟩ := splitOnce_eq_some_iff.mp hsplit
    exact ⟨(hrev x y).mp hl, fun hmem => hy (List.mem_reverse.mp hmem)⟩
  · rintro ⟨hl, hb⟩
    refine ⟨b.reverse, a.reverse, ?_, List.reverse_reverse a, List.reverse_reverse b⟩
    rw [splitOnce_eq_some_iff, hrev, List.reverse_reverse, List.reverse_reverse]
    exact ⟨hl, fun hmem => hb (List.mem_reverse.mp hmem)⟩

def stripPrefix : List α → List α → Option (List α)
  | [], l => some l
  | _ :: _, [] => none
  | c :: pre, d :: l => if c = d then stripPrefix pre l else none

theorem stripPrefix_eq_some_iff {pre : List α} : stripPrefix pre l = some a ↔ l = pre ++ a := by
  induction pre generalizing l with
  | nil => simp [stripPrefix]
  | cons c pre ih =>
    cases l with
    | nil => simp [stripPrefix]
    | cons d l =>
      simp only [stripPrefix, List.cons_append, List.cons.injEq]
      by_cases hc : c = d
      · rw [if_pos hc, ih]
        exact ⟨fun h => ⟨hc.symm, h⟩, fun h => h.2⟩
      · rw [if_neg hc]
        exact ⟨fun h => absurd h (Option.some_ne_none a).symm, fun h => absurd h.1.symm hc⟩

/-- Drop a separator from the end, if there is one. -/
def stripLast (sep : α) (l : List α) : List α :=
  if l.getLast? = some sep then l.dropLast else l

theorem stripLast_append_self : stripLast sep (a ++ [sep]) = a := by
  simp [stripLast]

theorem stripLast_of_getLast? (h : l.getLast? ≠ some sep) : stripLast sep l = l := by
  rw [stripLast, if_neg h]

end Split

section Trim
variable {α : Type u} (blank : α → Bool)

def trim (l : List α) : List α := ((l.dropWhile blank).reverse.dropWhile blank).reverse

theorem dropWhile_of_forall {l : List α} (h : ∀ c ∈ l, blank c = false) :
    l.dropWhile blank = l := by
  cases l with
  | nil => rfl
  | cons c l => rw [List.dropWhile_cons_of_neg (by rw [h c List.mem_cons_self]; decide)]

theorem trim_of_forall {l : List α} (h : ∀ c ∈ l, blank c = false) : trim blank l = l := by
  have hr : ∀ c ∈ l.reverse, blank c = false := fun c hc => h c (List.mem_reverse.mp hc)
  rw [trim, dropWhile_of_forall blank h, dropWhile_of_forall blank hr, List.reverse_reverse]

end Trim

/-! Lines and columns -/

/-- White space of Unicode. -/
def isWhitespace (c : Char) : Bool :=
  c.toNat = 0x20 || (9 ≤ c.toNat && c.toNat ≤ 0xd) || c.toNat = 0x85 || c.toNat = 0xa0 ||
    c.toNat = 0x1680 || (0x2000 ≤ c.toNat && c.toNat ≤ 0x200a) || c.toNat = 0x2028 ||
    c.toNat = 0x2029 || c.toNat = 0x202f || c.toNat = 0x205f || c.toNat = 0x3000

/-- The words still to come, behind the one that has been begun. -/
def wordsFrom (word : List Char) : List Char → List (List Char)
  | [] => if word = [] then [] else [word]
  | c :: l =>
    if isWhitespace c then
      if word = [] then wordsFrom [] l else word :: wordsFrom [] l
    else wordsFrom (word ++ [c]) l

def splitWhitespace (l : List Char) : List (List Char) := wordsFrom [] l

/-- A line ends with a line feed, and a carriage return before it belongs to the ending;
nothing behind the last line feed is no line. -/
def linesFrom (line : List Char) : List Char → List (List Char)
  | [] => if line = [] then [] else [line]
  | c :: l => if c = '\n' then stripLast '\r' line :: linesFrom [] l else linesFrom (line ++ [c]) l

def lines (l : List Char) : List (List Char) := linesFrom [] l

/-! Characters of the ASCII range that are visible -/

def IsGraphic (c : Char) : Prop := 0x21 ≤ c.toNat ∧ c.toNat ≤ 0x7e

instance (c : Char) : Decidable (IsGraphic c) := inferInstanceAs (Decidable (_ ∧ _))

/-! Bytes of a text -/

def asBytes (s : String) : List UInt8 := s.toByteArray.data.toList

def fromUtf8 (b : List UInt8) : Option String := String.fromUTF8? b.toByteArray

theorem fromUtf8_asBytes (s : String) : fromUtf8 (asBytes s) = some s := by
  have hb : (asBytes s).toByteArray = s.toByteArray := by
    apply ByteArray.ext
    simp [asBytes]
  simp only [fromUtf8, hb, String.fromUTF8?, dif_pos s.isValidUTF8, String.fromUTF8]

theorem asBytes_inj {s t : String} : asBytes s = asBytes t ↔ s = t := by
  constructor
  · intro h
    have hs := fromUtf8_asBytes s
    rw [h, fromUtf8_asBytes] at hs
    exact (Option.some.inj hs).symm
  · rintro rfl
    rfl

def utf8 (l : List Char) : List UInt8 := l.flatMap String.utf8EncodeChar

@[simp] theorem utf8_nil : utf8 [] = [] := rfl

@[simp] theorem utf8_cons (c : Char) (l : List Char) :
    utf8 (c :: l) = String.utf8EncodeChar c ++ utf8 l := List.flatMap_cons

@[simp] theorem utf8_append (l m : List Char) : utf8 (l ++ m) = utf8 l ++ utf8 m :=
  List.flatMap_append

theorem asBytes_eq_utf8 (s : String) : asBytes s = utf8 s.toList := by
  have h : s.toByteArray = s.toList.utf8Encode := by
    rw [← String.toByteArray_ofList, String.ofList_toList]
  rw [asBytes, h, List.utf8Encode]
  simp [utf8]

theorem utf8_inj {l m : List Char} : utf8 l = utf8 m ↔ l = m := by
  rw [← String.ofList_inj, ← asBytes_inj, asBytes_eq_utf8, asBytes_eq_utf8, String.toList_ofList,
    String.toList_ofList]

theorem utf8EncodeChar_ascii {c : Char} (h : c.toNat < 128) :
    String.utf8EncodeChar c = [UInt8.ofNat c.toNat] := by
  have hval : c.val.toNat ≤ 127 := Nat.le_of_lt_succ h
  simp only [String.utf8EncodeChar, if_pos hval]
  rfl

theorem toNat_ofNat_ascii {c : Char} (h : c.toNat < 128) :
    (UInt8.ofNat c.toNat).toNat = c.toNat := by
  rw [UInt8.toNat_ofNat']
  exact Nat.mod_eq_of_lt (by omega)

/-- A byte below 128 stands for itself only. -/
theorem toNat_of_mem_utf8EncodeChar {c : Char} {x : UInt8} (hx : x.toNat < 128)
    (h : x ∈ String.utf8EncodeChar c) : c.toNat = x.toNat := by
  by_cases hc : c.toNat < 128
  · rw [utf8EncodeChar_ascii hc, List.mem_singleton] at h
    rw [h, toNat_ofNat_ascii hc]
  · have hval : ¬ c.val.toNat ≤ 127 := fun hle => hc (Nat.lt_succ_of_le hle)
    have hhigh : ∀ y ∈ String.utf8EncodeChar c, 128 ≤ y.toNat := by
      simp only [String.utf8EncodeChar, if_neg hval]
      split_ifs
      all_goals
        simp only [List.forall_mem_cons, UInt8.toNat_ofNat', List.not_mem_nil, false_implies,
          implies_true, and_true]
        omega
    exact absurd (hhigh x h) (by omega)

theorem mem_asBytes_ascii {s : String} (h : ∀ c ∈ s.toList, c.toNat < 128) {b : UInt8}
    (hb : b ∈ asBytes s) : ∃ c ∈ s.toList, b.toNat = c.toNat := by
  rw [asBytes_eq_utf8, utf8, List.mem_flatMap] at hb
  obtain ⟨c, hc, hb⟩ := hb
  rw [utf8EncodeChar_ascii (h c hc), List.mem_singleton] at hb
  exact ⟨c, hc, hb ▸ toNat_ofNat_ascii (h c hc)⟩

end Text
