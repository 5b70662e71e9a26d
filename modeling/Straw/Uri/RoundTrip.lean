import Straw.Uri.Grammar

/-!
# Client and server on the target

The client escapes slashes and colons, but not percent signs. The server then reads the
target that the client was given exactly when no percent sign of it can be taken for an
escape or stands in front of one that the client adds.
-/

namespace Straw.UriTemplate

open Text Percent

set_option autoImplicit false

/-! The encoder, character by character -/

def encodeChar (c : Char) : List Char :=
  if c = '/' then ['%', '2', 'F'] else if c = ':' then ['%', '3', 'A'] else [c]

theorem encodeTemplateValue_eq (value : List Char) :
    encodeTemplateValue value = value.flatMap encodeChar := by
  have hreplace : ∀ c, replace ':' "%3A" (if c = '/' then "%2F".toList else [c]) =
      encodeChar c := by
    intro c
    unfold encodeChar
    by_cases hc : c = '/'
    · rw [if_pos hc, if_pos hc]
      decide
    · rw [if_neg hc, if_neg hc]
      simp [replace]
  rw [encodeTemplateValue, replace, replace, List.flatMap_assoc]
  exact List.flatMap_congr fun c _ => hreplace c

theorem encodeTemplateValue_cons (c : Char) (value : List Char) :
    encodeTemplateValue (c :: value) = encodeChar c ++ encodeTemplateValue value := by
  rw [encodeTemplateValue_eq, encodeTemplateValue_eq, List.flatMap_cons]

/-- What the client escapes. -/
def Special (c : Char) : Prop := c = '/' ∨ c = ':'

theorem encodeChar_of_not_special {c : Char} (h : ¬ Special c) : encodeChar c = [c] := by
  rw [Special, not_or] at h
  rw [encodeChar, if_neg h.1, if_neg h.2]

theorem encodeChar_of_special {c : Char} (h : Special c) :
    ∃ a b, encodeChar c = ['%', a, b] ∧ decodeTriple [a, b] = [c] ∧ c ≠ '%' ∧
      escaped '%' a = none ∧ a ≠ '%' ∧ b ≠ '%' := by
  obtain rfl | rfl := h
  · exact ⟨'2', 'F', rfl, by decide, by decide, by decide, by decide, by decide⟩
  · exact ⟨'3', 'A', rfl, by decide, by decide, by decide, by decide, by decide⟩

theorem decode_encode_cons {c : Char} (hc : c ≠ '%') (value : List Char) :
    percentDecode (encodeTemplateValue (c :: value)) =
      c :: percentDecode (encodeTemplateValue value) := by
  rw [encodeTemplateValue_cons]
  by_cases hspecial : Special c
  · obtain ⟨a, b, hencode, hdecode, -⟩ := encodeChar_of_special hspecial
    rw [hencode, List.cons_append, List.cons_append, List.cons_append, List.nil_append,
      percentDecode_triple, hdecode, List.singleton_append]
  · rw [encodeChar_of_not_special hspecial, List.singleton_append, percentDecode_plain hc]

theorem encodeTemplateValue_plain_pair {a b : Char} (ha : ¬ Special a) (hb : ¬ Special b)
    (value : List Char) :
    encodeTemplateValue (a :: b :: value) = a :: b :: encodeTemplateValue value := by
  rw [encodeTemplateValue_cons, encodeTemplateValue_cons, encodeChar_of_not_special ha,
    encodeChar_of_not_special hb]
  rfl

theorem not_special_percent : ¬ Special '%' := by
  rintro (h | h)
  · exact absurd h (by decide)
  · exact absurd h (by decide)

theorem encodeTemplateValue_percent (value : List Char) :
    encodeTemplateValue ('%' :: value) = '%' :: encodeTemplateValue value := by
  rw [encodeTemplateValue_cons, encodeChar_of_not_special not_special_percent]
  rfl

/-! When a target comes back -/

/-- Behind a percent sign: a character that the client escapes within two places, two
digits, or a sign and a digit. -/
def AmbiguousAt (rest : List Char) : Prop :=
  (∃ c ∈ rest.take 2, Special c) ∨ escapeAt rest ≠ none ∨ SignedAt rest

theorem decode_encode_triple {a b : Char} {rest : List Char}
    (h : ¬ AmbiguousAt (a :: b :: rest)) :
    percentDecode (encodeTemplateValue ('%' :: a :: b :: rest)) =
      '%' :: a :: b :: percentDecode (encodeTemplateValue rest) := by
  simp only [AmbiguousAt, not_or] at h
  obtain ⟨hspecial, hescape, hsigned⟩ := h
  have ha : ¬ Special a := fun hs => hspecial ⟨a, by simp, hs⟩
  have hb : ¬ Special b := fun hs => hspecial ⟨b, by simp, hs⟩
  rw [encodeTemplateValue_percent, encodeTemplateValue_plain_pair ha hb, percentDecode_triple]
  obtain ⟨byte, hbyte, -⟩ | ⟨y, rfl, hy, -⟩ | ⟨-, -, htriple⟩ := decodeTriple_cases a b
  · have hsome : escapeAt (a :: b :: rest) = some byte := hbyte
    exact absurd (hsome ▸ Option.some_ne_none byte) hescape
  · exact absurd (signedAt_iff.mpr ⟨rfl, y, hy⟩) hsigned
  · rw [htriple]
    rfl

theorem decode_encode_of_unambiguous {value : List Char} (h : ¬ Occurs AmbiguousAt value) :
    percentDecode (encodeTemplateValue value) = value := by
  induction value using Percent.induction with
  | nil => rfl
  | plain c rest hc ih =>
    rw [Occurs.plain_iff hc] at h
    rw [decode_encode_cons hc, ih h]
  | short rest hrest =>
    rw [Occurs.short_iff hrest] at h
    rw [encodeTemplateValue_percent]
    match rest with
    | [] => exact percentDecode_short hrest
    | [a] =>
      have ha : ¬ Special a := fun hs => h (.inl ⟨a, by simp, hs⟩)
      rw [encodeTemplateValue_cons, encodeChar_of_not_special ha]
      exact percentDecode_short hrest
    | _ :: _ :: _ => simp only [List.length_cons] at hrest; omega
  | triple a b rest ih =>
    rw [Occurs.triple_iff, not_or] at h
    rw [decode_encode_triple h.1, ih h.2]

/-! Length against percent signs: an escape that is decoded costs two characters, and a
percent sign with them unless it stands for one. -/

theorem decode_weight (text : List Char) :
    (percentDecode text).length + 2 * text.count '%' ≤
      text.length + 2 * (percentDecode text).count '%' := by
  induction text using Percent.induction with
  | nil => exact Nat.le_refl _
  | plain c rest hc ih =>
    rw [percentDecode_plain hc, List.count_cons_of_ne hc, List.count_cons_of_ne hc]
    simp only [List.length_cons]
    omega
  | short rest hrest => rw [percentDecode_short hrest]
  | triple a b rest ih =>
    rw [percentDecode_triple]
    obtain ⟨byte, hbyte, htriple⟩ | ⟨y, rfl, hy, htriple⟩ | ⟨-, -, htriple⟩ :=
      decodeTriple_cases a b
    · obtain ⟨x, y, hx, hy, -⟩ := escaped_eq_some_iff.mp hbyte
      have ha : a ≠ '%' := ne_of_toDigit hx (by decide)
      have hb : b ≠ '%' := ne_of_toDigit hy (by decide)
      rw [htriple, List.count_cons_self, List.count_cons_of_ne ha, List.count_cons_of_ne hb,
        List.count_append]
      simp only [List.length_append, List.length_cons, List.length_nil]
      omega
    · have hb : b ≠ '%' := ne_of_toDigit hy (by decide)
      rw [htriple, List.count_cons_self, List.count_cons_of_ne (show '+' ≠ '%' by decide),
        List.count_cons_of_ne hb, List.count_append]
      simp only [List.length_append, List.length_cons, List.length_nil]
      omega
    · have hsplit : '%' :: a :: b :: rest = ['%', a, b] ++ rest := rfl
      rw [htriple, hsplit, List.count_append, List.count_append]
      simp only [List.length_append]
      omega

theorem encode_weight (value : List Char) :
    (encodeTemplateValue value).length + 2 * value.count '%' =
      value.length + 2 * (encodeTemplateValue value).count '%' := by
  induction value with
  | nil => rfl
  | cons c value ih =>
    rw [encodeTemplateValue_cons, List.count_append, List.length_append, List.length_cons]
    by_cases hspecial : Special c
    · obtain ⟨a, b, hencode, -, hc, -, ha, hb⟩ := encodeChar_of_special hspecial
      rw [hencode, List.count_cons_of_ne hc, List.count_cons_self, List.count_cons_of_ne ha,
        List.count_cons_of_ne hb]
      simp only [List.length_cons, List.length_nil, List.count_nil]
      omega
    · rw [encodeChar_of_not_special hspecial, List.count_cons, List.count_cons]
      simp only [List.length_cons, List.length_nil, List.count_nil]
      omega

/-- Two digits in front of a target cannot come out of it. -/
theorem decode_encode_ne_digits {a b : Char} (ha : a ≠ '%') (hb : b ≠ '%') (value : List Char) :
    percentDecode (encodeTemplateValue value) ≠ a :: b :: value := by
  intro heq
  have hdecode := decode_weight (encodeTemplateValue value)
  have hencode := encode_weight value
  rw [heq, List.count_cons_of_ne ha, List.count_cons_of_ne hb] at hdecode
  simp only [List.length_cons] at hdecode
  omega

/-- A percent sign among the two characters leaves all three as they are. -/
theorem decodeTriple_of_percent {a b : Char} (h : a = '%' ∨ b = '%') :
    decodeTriple [a, b] = ['%', a, b] := by
  obtain ⟨byte, hbyte, -⟩ | ⟨y, rfl, hy, -⟩ | ⟨-, -, htriple⟩ := decodeTriple_cases a b
  · obtain ⟨x, y, hx, hy, -⟩ := escaped_eq_some_iff.mp hbyte
    obtain h | h := h
    · exact absurd h (ne_of_toDigit hx (by decide))
    · exact absurd h (ne_of_toDigit hy (by decide))
  · obtain h | h := h
    · exact absurd h (by decide)
    · exact absurd h (ne_of_toDigit hy (by decide))
  · exact htriple

/-- A percent sign swallows the one that the client adds. -/
theorem decode_encode_ne_special {rest : List Char} (h : ∃ c ∈ rest.take 2, Special c) :
    percentDecode ('%' :: encodeTemplateValue rest) ≠ '%' :: rest := by
  match rest, h with
  | [], h => exact absurd h (by simp)
  | x :: rest, h =>
    by_cases hx : Special x
    · obtain ⟨a, b, hencode, -, hne, -⟩ := encodeChar_of_special hx
      rw [encodeTemplateValue_cons, hencode, List.cons_append, List.cons_append,
        percentDecode_triple, decodeTriple_of_percent (.inl rfl)]
      intro heq
      have hsecond : '%' = x := by simp only [List.cons_append, List.cons.injEq] at heq; exact heq.2.1
      exact hne hsecond.symm
    · match rest, h with
      | [], h =>
        obtain ⟨c, hc, hspecial⟩ := h
        obtain rfl : c = x := by simpa using hc
        exact absurd hspecial hx
      | y :: rest, h =>
        have hy : Special y := by
          obtain ⟨c, hc, hspecial⟩ := h
          obtain rfl | rfl : c = x ∨ c = y := by simpa using hc
          · exact absurd hspecial hx
          · exact hspecial
        obtain ⟨a, b, hencode, -, hne, -⟩ := encodeChar_of_special hy
        rw [encodeTemplateValue_cons, encodeChar_of_not_special hx, encodeTemplateValue_cons,
          hencode, List.singleton_append, List.cons_append, percentDecode_triple,
          decodeTriple_of_percent (.inr rfl)]
        intro heq
        have hthird : '%' = y := by
          simp only [List.cons_append, List.cons.injEq] at heq
          exact heq.2.2.1
        exact hne hthird.symm

/-- A digit begins nothing that the client escapes. -/
theorem not_special_of_toDigit {c : Char} {d : Nat} (h : toDigit 16 c = some d) :
    ¬ Special c := by
  rintro (rfl | rfl)
  · exact absurd rfl (ne_of_toDigit h (by decide))
  · exact absurd rfl (ne_of_toDigit h (by decide))

/-- At an ambiguous percent sign another target comes back: the first difference is within
the three characters, or the sign comes out of an escape and the rest would have to grow by
the two digits. -/
theorem decode_encode_ne_here {rest : List Char} (h : AmbiguousAt rest) :
    percentDecode (encodeTemplateValue ('%' :: rest)) ≠ '%' :: rest := by
  rw [encodeTemplateValue_percent]
  obtain hspecial | hescape | hsigned := h
  · exact decode_encode_ne_special hspecial
  · obtain ⟨byte, hbyte⟩ := Option.ne_none_iff_exists'.mp hescape
    obtain ⟨a, b, r, rfl, hab⟩ := escapeAt_eq_some hbyte
    obtain ⟨x, y, hx, hy, -⟩ := escaped_eq_some_iff.mp hab
    rw [encodeTemplateValue_plain_pair (not_special_of_toDigit hx) (not_special_of_toDigit hy),
      percentDecode_triple]
    obtain ⟨_, -, htriple⟩ | ⟨_, rfl, -⟩ | ⟨hnone, -⟩ := decodeTriple_cases a b
    · rw [htriple]
      intro heq
      have hrest := (List.cons.inj heq).2
      exact decode_encode_ne_digits (ne_of_toDigit hx (by decide)) (ne_of_toDigit hy (by decide)) r
        hrest
    · exact absurd rfl (ne_of_toDigit hx (by decide))
    · exact absurd (hab.symm.trans hnone) (Option.some_ne_none byte)
  · obtain ⟨b, y, r, rfl, hy⟩ := hsigned
    have hplus : ¬ Special '+' := by
      rintro (h | h)
      · exact absurd h (by decide)
      · exact absurd h (by decide)
    rw [encodeTemplateValue_plain_pair hplus (not_special_of_toDigit hy), percentDecode_triple]
    obtain ⟨_, hbyte, -⟩ | ⟨z, -, hz, htriple⟩ | ⟨-, hnone, -⟩ := decodeTriple_cases '+' b
    · exact absurd hbyte (by simp [escaped, show toDigit 16 '+' = none by decide])
    · have hlt := (toDigit_eq_some_iff.mp hz).2
      rw [htriple]
      intro heq
      have hchar := congrArg Char.toNat (List.cons.inj heq).1
      rw [ofNat_toNat_lt (show z < 256 by omega)] at hchar
      have hpercent : '%'.toNat = 37 := rfl
      omega
    · rw [hnone rfl] at hy
      exact absurd hy (by simp)

theorem decode_encode_ne_of_ambiguous {value : List Char} (h : Occurs AmbiguousAt value) :
    percentDecode (encodeTemplateValue value) ≠ value := by
  induction h with
  | here hhere => exact decode_encode_ne_here hhere
  | plain hc _ ih =>
    rw [decode_encode_cons hc]
    exact fun heq => ih (List.cons.inj heq).2
  | @triple a b rest _ ih =>
    by_cases hhere : AmbiguousAt (a :: b :: rest)
    · exact decode_encode_ne_here hhere
    · rw [decode_encode_triple hhere]
      intro heq
      simp only [List.cons.injEq, true_and] at heq
      exact ih heq

/-! The whole path -/

theorem ipproto_segment (ipproto : Option UInt8) :
    ∃ segment : String, (∀ target, tunnelPath (some target) ipproto =
        pathPrefix ++ String.ofList (encodeTemplateValue target.toList) ++ "/" ++ segment ++ "/") ∧
      segment.toList ≠ [] ∧ '/' ∉ segment.toList ∧ parseIpproto segment.toList = .ok ipproto := by
  cases ipproto with
  | none => exact ⟨"*", fun _ => rfl, by decide, by decide, by decide⟩
  | some p =>
    have key : ∀ n : Fin 256, (toString n.val).toList ≠ [] ∧ '/' ∉ (toString n.val).toList ∧
        parseIpproto (toString n.val).toList = .ok (some (UInt8.ofNat n.val)) := by
      decide +kernel
    obtain ⟨hne, hslash, hparse⟩ := key ⟨p.toNat, p.toNat_lt⟩
    rw [UInt8.ofNat_toNat] at hparse
    exact ⟨toString p.toNat, fun _ => rfl, hne, hslash, hparse⟩

theorem encodeTemplateValue_ne_nil {value : List Char} (hne : value ≠ []) :
    encodeTemplateValue value ≠ [] := by
  match value with
  | [] => exact absurd rfl hne
  | c :: value =>
    rw [encodeTemplateValue_cons]
    by_cases hc : Special c
    · obtain ⟨a, b, hencode, -⟩ := encodeChar_of_special hc
      rw [hencode]
      exact List.cons_ne_nil _ _
    · rw [encodeChar_of_not_special hc]
      exact List.cons_ne_nil _ _

theorem encodeTemplateValue_ne_star {value : List Char} (hstar : value ≠ ['*']) :
    encodeTemplateValue value ≠ ['*'] := by
  match value with
  | [] => exact List.cons_ne_nil _ _ |>.symm
  | c :: value =>
    rw [encodeTemplateValue_cons]
    by_cases hc : Special c
    · obtain ⟨a, b, hencode, -⟩ := encodeChar_of_special hc
      rw [hencode]
      simp
    · rw [encodeChar_of_not_special hc, List.singleton_append]
      intro heq
      obtain ⟨rfl, hnil⟩ := List.cons.inj heq
      have hvalue : value = [] := by
        by_contra hne
        exact encodeTemplateValue_ne_nil hne hnil
      exact hstar (by rw [hvalue])

/-- The server classifies what it decodes. -/
theorem parse_tunnelPath {t : String} (ipproto : Option UInt8) (hne : t ≠ "") (hstar : t ≠ "*") :
    parseConnectIpPath (tunnelPath (some t) ipproto) =
      (classify (percentDecode (encodeTemplateValue t.toList))).map
        fun target => ⟨some target, ipproto⟩ := by
  obtain ⟨segment, hpath, hproto, hslash, hparse⟩ := ipproto_segment ipproto
  have hvalue : t.toList ≠ [] := by
    intro h
    exact hne (String.toList_inj.mp h)
  have hvalueStar : t.toList ≠ ['*'] := by
    intro h
    exact hstar (String.toList_inj.mp (by rw [h]; decide))
  have hsegments : Segments (tunnelPath (some t) ipproto).toList (encodeTemplateValue t.toList)
      segment.toList := by
    refine ⟨.inr ?_, encodeTemplateValue_ne_nil hvalue, hproto, hslash⟩
    rw [hpath]
    simp [String.toList_append]
  have htarget : parseTarget (encodeTemplateValue t.toList) =
      (classify (percentDecode (encodeTemplateValue t.toList))).map some := by
    rw [parseTarget, if_neg (encodeTemplateValue_ne_star hvalueStar)]
  rw [parseConnectIpPath_of_segments hsegments, htarget, hparse]
  cases classify (percentDecode (encodeTemplateValue t.toList)) <;> rfl

/-- The server makes of the client's path what it would make of the target itself, and gets
that target back, exactly when no percent sign of it is ambiguous. -/
theorem tunnelPath_round_trip (t : String) (ipproto : Option UInt8) (hne : t ≠ "")
    (hstar : t ≠ "*") :
    (parseConnectIpPath (tunnelPath (some t) ipproto) =
        (classify t.toList).map (fun target => ⟨some target, ipproto⟩) ∧
      percentDecode (encodeTemplateValue t.toList) = t.toList) ↔
    ¬ Occurs AmbiguousAt t.toList := by
  rw [parse_tunnelPath ipproto hne hstar]
  constructor
  · rintro ⟨-, hdecode⟩ hambiguous
    exact decode_encode_ne_of_ambiguous hambiguous hdecode
  · intro hambiguous
    have hdecode := decode_encode_of_unambiguous hambiguous
    exact ⟨by rw [hdecode], hdecode⟩

theorem tunnelPath_round_trip_subnet :
    parseConnectIpPath (tunnelPath (some "2001:db8::/32") (some 17)) =
        .ok ⟨some (.prefixed (.v6 0x20010db8000000000000000000000000#128) 32), some 17⟩ ∧
      percentDecode (encodeTemplateValue "2001:db8::/32".toList) = "2001:db8::/32".toList := by
  have hunambiguous : ¬ Occurs AmbiguousAt "2001:db8::/32".toList :=
    fun h => absurd h.percent_mem (by decide)
  obtain ⟨hparse, hdecode⟩ :=
    (tunnelPath_round_trip "2001:db8::/32" (some 17) (by decide) (by decide)).mpr hunambiguous
  have hclassify : classify "2001:db8::/32".toList =
      .ok (.prefixed (.v6 0x20010db8000000000000000000000000#128) 32) := by
    decide +kernel
  rw [hclassify] at hparse
  exact ⟨hparse, hdecode⟩

/-- An escape in the target is decoded, and a percent sign takes away the slash behind it. -/
theorem percent_changes_target :
    (parseConnectIpPath (tunnelPath (some "a%41") none) = .ok ⟨some (.hostname "aA"), none⟩ ∧
      classify "a%41".toList = .ok (.hostname "a%41")) ∧
    (parseConnectIpPath (tunnelPath (some "10.0.0.0%/8") none) =
        .ok ⟨some (.hostname "10.0.0.0%%2F8"), none⟩ ∧
      classify "10.0.0.0%/8".toList =
        .error (.invalidRequest "invalid IP in target: invalid IP address syntax")) := by
  decide +kernel

end Straw.UriTemplate
