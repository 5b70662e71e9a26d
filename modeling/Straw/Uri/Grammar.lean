import Straw.Uri.Escapes

/-!
# The grammar of request paths

What the path of a request means, read off its template, and for which paths the parser
agrees: it is too tolerant of slashes, of signs and of percent signs that are misread.
-/

namespace Straw.UriTemplate

open Text Percent

set_option autoImplicit false

/-! The parser in terms of the segments -/

/-- The last slash, but for one at the very end, separates the two segments. -/
structure Segments (path target proto : List Char) : Prop where
  path_eq : path = pathPrefix.toList ++ (target ++ '/' :: proto) ∨
    path = pathPrefix.toList ++ (target ++ '/' :: proto ++ ['/'])
  target_ne : target ≠ []
  proto_ne : proto ≠ []
  slash_notMem : '/' ∉ proto

theorem stripLast_eq_iff {l target proto : List Char} (hne : proto ≠ []) (h : '/' ∉ proto) :
    stripLast '/' l = target ++ '/' :: proto ↔
      l = target ++ '/' :: proto ∨ l = target ++ '/' :: proto ++ ['/'] := by
  have hlast : (target ++ '/' :: proto).getLast? ≠ some '/' := by
    intro heq
    rw [List.getLast?_append_of_ne_nil _ (List.cons_ne_nil _ _),
      List.getLast?_cons_of_ne_nil hne] at heq
    exact h (List.mem_of_getLast? heq)
  constructor
  · intro heq
    by_cases hl : l.getLast? = some '/'
    · right
      rw [stripLast, if_pos hl] at heq
      rw [← heq]
      exact (List.dropLast_append_getLast? '/' hl).symm
    · left
      rwa [stripLast_of_getLast? hl] at heq
  · rintro (rfl | rfl)
    · exact stripLast_of_getLast? hlast
    · exact stripLast_append_self

theorem segments_iff {path rest target proto : List Char}
    (hrest : stripPrefix pathPrefix.toList path = some rest) :
    Segments path target proto ↔
      rsplitOnce '/' (stripLast '/' rest) = some (target, proto) ∧ target ≠ [] ∧ proto ≠ [] := by
  rw [stripPrefix_eq_some_iff] at hrest
  subst hrest
  rw [rsplitOnce_eq_some_iff]
  constructor
  · rintro ⟨heq, htarget, hproto, hslash⟩
    rw [List.append_cancel_left_eq, List.append_cancel_left_eq] at heq
    exact ⟨⟨(stripLast_eq_iff hproto hslash).mpr heq, hslash⟩, htarget, hproto⟩
  · rintro ⟨⟨heq, hslash⟩, htarget, hproto⟩
    refine ⟨?_, htarget, hproto, hslash⟩
    rw [List.append_cancel_left_eq, List.append_cancel_left_eq]
    exact (stripLast_eq_iff hproto hslash).mp heq

theorem Segments.exists_rest {path target proto : List Char} (h : Segments path target proto) :
    ∃ rest, stripPrefix pathPrefix.toList path = some rest := by
  obtain heq | heq := h.path_eq
  · exact ⟨_, stripPrefix_eq_some_iff.mpr heq⟩
  · exact ⟨_, stripPrefix_eq_some_iff.mpr heq⟩

theorem Segments.unique {path target proto target' proto' : List Char}
    (h : Segments path target proto) (h' : Segments path target' proto') :
    target = target' ∧ proto = proto' := by
  obtain ⟨rest, hrest⟩ := h.exists_rest
  have hsplit := ((segments_iff hrest).mp h).1
  rw [((segments_iff hrest).mp h').1] at hsplit
  simpa [eq_comm] using hsplit

theorem parseConnectIpPath_of_segments {path : String} {target proto : List Char}
    (h : Segments path.toList target proto) :
    parseConnectIpPath path = do
      let t ← parseTarget target
      let p ← parseIpproto proto
      return ⟨t, p⟩ := by
  obtain ⟨rest, hrest⟩ := h.exists_rest
  obtain ⟨hsplit, htarget, hproto⟩ := (segments_iff hrest).mp h
  simp only [parseConnectIpPath, hrest, hsplit, if_neg htarget, if_neg hproto]

theorem exists_segments_of_parse {path : String} {scope : RequestScope}
    (h : parseConnectIpPath path = .ok scope) :
    ∃ target proto, Segments path.toList target proto := by
  unfold parseConnectIpPath at h
  split at h
  · exact absurd h (by simp)
  · next rest hrest =>
    split at h
    · exact absurd h (by simp)
    · next target proto hsplit =>
      split at h
      · exact absurd h (by simp)
      · next htarget =>
        split at h
        · exact absurd h (by simp)
        · next hproto =>
          exact ⟨target, proto, (segments_iff hrest).mpr ⟨hsplit, htarget, hproto⟩⟩

theorem parseConnectIpPath_eq_ok_iff (path : String) (scope : RequestScope) :
    parseConnectIpPath path = .ok scope ↔
      ∃ target proto, Segments path.toList target proto ∧
        parseTarget target = .ok scope.target ∧ parseIpproto proto = .ok scope.ipProto := by
  constructor
  · intro h
    obtain ⟨target, proto, hsegments⟩ := exists_segments_of_parse h
    refine ⟨target, proto, hsegments, ?_⟩
    rw [parseConnectIpPath_of_segments hsegments] at h
    cases ht : parseTarget target with
    | error e => rw [ht] at h; exact absurd h (by simp [bind, Except.bind])
    | ok t =>
      cases hp : parseIpproto proto with
      | error e => rw [ht, hp] at h; exact absurd h (by simp [bind, Except.bind])
      | ok p =>
        rw [ht, hp] at h
        obtain rfl := Except.ok.inj h
        exact ⟨rfl, rfl⟩
  · rintro ⟨target, proto, hsegments, ht, hp⟩
    rw [parseConnectIpPath_of_segments hsegments, ht, hp]
    rfl

/-! The grammar -/

/-- An address, a slash and a prefix length within the family's maximum, which is written
as `number` says. -/
def Subnet (number : List Char → UInt8 → Prop) (text : List Char) (target : Target) : Prop :=
  ∃ ipText len ip n, text = ipText ++ '/' :: len ∧ IpAddr.fromStr ipText = some ip ∧
    number len n ∧ n.toNat ≤ maxPrefix ip ∧ target = .prefixed ip n.toNat

/-- A text without a slash is an address or else a host name. -/
def Whole (text : List Char) (target : Target) : Prop :=
  '/' ∉ text ∧
    ((∃ ip, IpAddr.fromStr text = some ip ∧ target = .prefixed ip (maxPrefix ip)) ∨
      (IpAddr.fromStr text = none ∧ target = .hostname (String.ofList text)))

def Names (text : List Char) (target : Target) : Prop :=
  Subnet U8.Decimal text target ∨ Whole text target

def TargetSegment (segment : List Char) (target : Option Target) : Prop :=
  (segment = ['*'] ∧ target = none) ∨
    (segment ≠ ['*'] ∧ ∃ text t, unescape segment = utf8 text ∧ Names text t ∧ target = some t)

def ProtoSegment (segment : List Char) (proto : Option UInt8) : Prop :=
  (segment = ['*'] ∧ proto = none) ∨ ∃ n, U8.Decimal segment n ∧ proto = some n

/-- The path has exactly two segments, and they mean the two parts of the scope. -/
def Reads (path : List Char) (scope : RequestScope) : Prop :=
  ∃ target proto, Segments path target proto ∧ '/' ∉ target ∧
    TargetSegment target scope.target ∧ ProtoSegment proto scope.ipProto

/-! What the parser accepts of a segment -/

theorem slash_notMem_of_fromStr {text : List Char} {ip : IpAddr}
    (h : IpAddr.fromStr text = some ip) : '/' ∉ text := by
  intro hmem
  exact absurd rfl (IpAddr.isIpChar_of_fromStr h '/' hmem).bounds.2.2

theorem not_subnet_of_notMem {number : List Char → UInt8 → Prop} {text : List Char}
    {target : Target} (h : '/' ∉ text) : ¬ Subnet number text target := by
  rintro ⟨ipText, len, ip, n, rfl, -⟩
  exact h (List.mem_append_right _ List.mem_cons_self)

theorem subnet_iff {number : List Char → UInt8 → Prop} {text ipText len : List Char}
    {target : Target} (h : splitOnce '/' text = some (ipText, len)) :
    Subnet number text target ↔
      ∃ ip n, IpAddr.fromStr ipText = some ip ∧ number len n ∧ n.toNat ≤ maxPrefix ip ∧
        target = .prefixed ip n.toNat := by
  constructor
  · rintro ⟨ipText', len', ip, n, rfl, hip, hn⟩
    rw [splitOnce_append len' (slash_notMem_of_fromStr hip)] at h
    obtain ⟨rfl, rfl⟩ : ipText' = ipText ∧ len' = len := by simpa using h
    exact ⟨ip, n, hip, hn⟩
  · rintro ⟨ip, n, hip, hn⟩
    exact ⟨ipText, len, ip, n, (splitOnce_eq_some_iff.mp h).1, hip, hn⟩

/-- The parser's classification is the grammar's but for a sign in the prefix length. -/
theorem classify_eq_ok_iff (text : List Char) (target : Target) :
    classify text = .ok target ↔ Names text target ∨ Subnet U8.Signed text target := by
  unfold classify
  cases hsplit : splitOnce '/' text with
  | none =>
    have hslash := splitOnce_eq_none_iff.mp hsplit
    simp only [Names, Whole, not_subnet_of_notMem hslash, hslash, not_false_eq_true, true_and,
      false_or, or_false]
    cases IpAddr.fromStr text <;> simp [eq_comm]
  | some parts =>
    obtain ⟨ipText, len⟩ := parts
    have hwhole : ¬ Whole text target := by
      rintro ⟨hslash, -⟩
      rw [splitOnce_eq_none_iff.mpr hslash] at hsplit
      exact absurd hsplit (by simp)
    have hsubnet : Subnet U8.Decimal text target ∨ Subnet U8.Signed text target ↔
        ∃ ip n, IpAddr.fromStr ipText = some ip ∧ U8.fromStr len = .ok n ∧
          n.toNat ≤ maxPrefix ip ∧ target = .prefixed ip n.toNat := by
      simp only [subnet_iff hsplit, U8.fromStr_eq_ok_iff, or_and_right, and_or_left, exists_or]
    rw [Names, or_iff_left hwhole, hsubnet]
    dsimp only
    cases IpAddr.fromStr ipText with
    | none => simp
    | some ip =>
      cases U8.fromStr len with
      | error e => simp
      | ok n =>
        simp only [Option.some.injEq, Except.ok.injEq, exists_and_left, exists_eq_left']
        by_cases hmax : maxPrefix ip < n.toNat
        · rw [if_pos hmax]
          exact iff_of_false (by simp) (fun h => absurd h.1 (Nat.not_le_of_lt hmax))
        · rw [if_neg hmax, Except.ok.injEq]
          exact ⟨fun h => ⟨Nat.le_of_not_lt hmax, h.symm⟩, fun h => h.2.symm⟩

theorem parseIpproto_eq_ok_iff (segment : List Char) (proto : Option UInt8) :
    parseIpproto segment = .ok proto ↔
      ProtoSegment segment proto ∨ ∃ n, U8.Signed segment n ∧ proto = some n := by
  unfold parseIpproto ProtoSegment
  by_cases hstar : segment = ['*']
  · subst hstar
    have hdecimal : ∀ n, ¬ U8.Decimal ['*'] n :=
      fun n h => absurd (h.2.1 '*' List.mem_cons_self) (by decide)
    have hsigned : ∀ n, ¬ U8.Signed ['*'] n := by
      rintro n ⟨digits, heq, -⟩
      exact absurd heq (by simp)
    simp [hdecimal, hsigned, eq_comm]
  · simp only [hstar, if_false, false_and, false_or, ← exists_or, ← or_and_right,
      ← U8.fromStr_eq_ok_iff]
    cases U8.fromStr segment <;> simp [eq_comm]

theorem parseTarget_eq_ok_iff (segment : List Char) (target : Option Target) :
    parseTarget segment = .ok target ↔
      (segment = ['*'] ∧ target = none) ∨
        (segment ≠ ['*'] ∧ ∃ t, classify (percentDecode segment) = .ok t ∧ target = some t) := by
  unfold parseTarget
  by_cases hstar : segment = ['*']
  · simp [hstar, eq_comm]
  · simp only [hstar, if_false, false_and, false_or, ne_eq, not_false_eq_true, true_and]
    cases classify (percentDecode segment) <;> simp [Except.map, eq_comm]

/-! Texts in which no percent sign can have been misread -/

/-- Characters of addresses, slashes and signs. -/
def Clean (text : List Char) : Prop := ∀ c ∈ text, 16 ≤ c.toNat ∧ c.toNat < 128 ∧ c ≠ '%'

theorem Clean.of_fromStr {text : List Char} {ip : IpAddr} (h : IpAddr.fromStr text = some ip) :
    Clean text := by
  intro c hc
  have hbounds := (IpAddr.isIpChar_of_fromStr h c hc).bounds
  refine ⟨by omega, by omega, ?_⟩
  rintro rfl
  exact absurd hbounds.1 (by decide)

theorem Clean.of_decimal {text : List Char} {n : UInt8} (h : U8.Decimal text n) : Clean text := by
  intro c hc
  have hdigit := h.2.1 c hc
  simp only [Char.isDigit, Bool.and_eq_true, decide_eq_true_eq, ge_iff_le,
    UInt32.le_iff_toNat_le] at hdigit
  have hlow : 48 ≤ c.toNat := hdigit.1
  have hhigh : c.toNat ≤ 57 := hdigit.2
  refine ⟨by omega, by omega, ?_⟩
  rintro rfl
  exact absurd hlow (by decide)

theorem Clean.of_subnet {number : List Char → UInt8 → Prop}
    (hnumber : ∀ len n, number len n → Clean len) {text : List Char} {target : Target}
    (h : Subnet number text target) : Clean text := by
  obtain ⟨ipText, len, ip, n, rfl, hip, hn, -⟩ := h
  intro c hc
  rw [List.mem_append, List.mem_cons] at hc
  obtain hc | rfl | hc := hc
  · exact Clean.of_fromStr hip c hc
  · decide
  · exact hnumber len n hn c hc

theorem Clean.of_signed {text : List Char} {n : UInt8} (h : U8.Signed text n) : Clean text := by
  obtain ⟨digits, rfl, hdigits⟩ := h
  intro c hc
  obtain rfl | hc := List.mem_cons.mp hc
  · decide
  · exact Clean.of_decimal hdigits c hc

theorem Clean.of_subnet_or {text : List Char} {target : Target}
    (h : Subnet U8.Decimal text target ∨ Subnet U8.Signed text target) : Clean text :=
  h.elim (.of_subnet fun _ _ => .of_decimal) (.of_subnet fun _ _ => .of_signed)

theorem Clean.not_misread {segment : List Char} (h : Clean (percentDecode segment)) :
    ¬ Occurs MisreadAt segment := by
  intro hmisread
  obtain ⟨c, hmem, hc⟩ := mem_percentDecode_of_misread hmisread
  obtain ⟨hlow, hhigh, hpercent⟩ := h c hmem
  obtain hc | hc | hc := hc
  · exact hpercent hc
  · omega
  · omega

theorem Clean.not_misread_of_unescape {segment text : List Char} (h : Clean text)
    (heq : unescape segment = utf8 text) : ¬ Occurs MisreadAt segment := by
  intro hmisread
  obtain ⟨byte, hmem, hbyte⟩ := mem_unescape_of_misread hmisread
  rw [heq, utf8, List.mem_flatMap] at hmem
  obtain ⟨c, hc, hmem⟩ := hmem
  obtain ⟨-, hhigh, hpercent⟩ := h c hc
  rw [utf8EncodeChar_ascii hhigh, List.mem_singleton] at hmem
  have hval := toNat_ofNat_ascii hhigh
  rw [← hmem] at hval
  obtain rfl | hbyte := hbyte
  · exact hpercent (Char.toNat_inj.mp hval.symm)
  · omega

/-- When either side is clean, the decoder and the grammar agree on the text. -/
theorem unescape_eq_iff_of_clean {segment text : List Char} (h : Clean text) :
    unescape segment = utf8 text ↔ percentDecode segment = text := by
  constructor
  · intro heq
    rw [unescape_eq_of_not_misread (h.not_misread_of_unescape heq), utf8_inj] at heq
    exact heq
  · rintro rfl
    exact unescape_eq_of_not_misread h.not_misread

/-! Where the parser and the grammar part -/

/-- A number of the protocol segment may have a sign. -/
def TolerableProto (segment : List Char) : Prop :=
  segment = ['*'] ∨ ∃ n, U8.Decimal segment n ∨ U8.Signed segment n

def SignedProto (segment : List Char) : Prop := ∃ n, U8.Signed segment n

/-- The target stands for an address with a prefix length, and the slash is not escaped or
one of the two numbers has a sign. -/
def LooseSubnet (target proto : List Char) : Prop :=
  ∃ text t, unescape target = utf8 text ∧
    ((Subnet U8.Decimal text t ∧ ('/' ∈ target ∨ SignedProto proto)) ∨ Subnet U8.Signed text t)

/-- The target has no slash, escaped or not, and the protocol has a sign or a percent sign
of the target is misread. -/
def LooseWhole (target proto : List Char) : Prop :=
  '/' ∉ target ∧ ¬ Occurs SlashAt target ∧ (SignedProto proto ∨ Occurs MisreadAt target)

def Deviates (path : List Char) : Prop :=
  ∃ target proto, Segments path target proto ∧ TolerableProto proto ∧
    (LooseSubnet target proto ∨ LooseWhole target proto)

theorem tolerableProto_iff {segment : List Char} :
    TolerableProto segment ↔ ∃ proto, parseIpproto segment = .ok proto := by
  simp only [parseIpproto_eq_ok_iff, ProtoSegment, TolerableProto]
  constructor
  · rintro (rfl | ⟨n, hn | hn⟩)
    · exact ⟨none, .inl (.inl ⟨rfl, rfl⟩)⟩
    · exact ⟨some n, .inl (.inr ⟨n, hn, rfl⟩)⟩
    · exact ⟨some n, .inr ⟨n, hn, rfl⟩⟩
  · rintro ⟨proto, (⟨rfl, -⟩ | ⟨n, hn, -⟩) | ⟨n, hn, -⟩⟩
    · exact .inl rfl
    · exact .inr ⟨n, .inl hn⟩
    · exact .inr ⟨n, .inr hn⟩

theorem not_protoSegment_of_signed {segment : List Char} (h : SignedProto segment)
    (proto : Option UInt8) : ¬ ProtoSegment segment proto := by
  obtain ⟨n, hn⟩ := h
  rintro (⟨rfl, -⟩ | ⟨m, hm, -⟩)
  · obtain ⟨digits, heq, -⟩ := hn
    exact absurd heq (by simp)
  · exact U8.not_decimal_of_signed hn hm

theorem classify_of_notMem {text : List Char} (h : '/' ∉ text) :
    ∃ t, classify text = .ok t ∧ Whole text t := by
  cases hip : IpAddr.fromStr text with
  | some ip =>
    have hwhole : Whole text (.prefixed ip (maxPrefix ip)) := ⟨h, .inl ⟨ip, hip, rfl⟩⟩
    exact ⟨_, (classify_eq_ok_iff text _).mpr (.inl (.inr hwhole)), hwhole⟩
  | none =>
    have hwhole : Whole text (.hostname (String.ofList text)) := ⟨h, .inr ⟨hip, rfl⟩⟩
    exact ⟨_, (classify_eq_ok_iff text _).mpr (.inl (.inr hwhole)), hwhole⟩

/-- A misread target is a host name to the parser; to the grammar it is another one or none. -/
theorem not_names_of_misread {segment text : List Char} {t : Target}
    (hmisread : Occurs MisreadAt segment) (ht : Whole (percentDecode segment) t)
    (htext : unescape segment = utf8 text) : ¬ Names text t := by
  obtain ⟨-, ⟨ip, hip, -⟩ | ⟨-, rfl⟩⟩ := ht
  · exact absurd hmisread (Clean.of_fromStr hip).not_misread
  · rintro (⟨_, _, _, _, -, -, -, -, heq⟩ | ⟨-, ⟨_, -, heq⟩ | ⟨-, heq⟩⟩)
    · exact absurd heq (by simp)
    · exact absurd heq (by simp)
    · have hsame : percentDecode segment = text := String.ofList_inj.mp (Target.hostname.inj heq)
      rw [← hsame] at htext
      exact unescape_ne_of_misread hmisread htext

theorem not_names_of_signed {text : List Char} {t t' : Target} (h : Subnet U8.Signed text t) :
    ¬ Names text t' := by
  obtain ⟨ipText, len, ip, n, rfl, hip, hn, -⟩ := h
  have hsplit := splitOnce_append len (slash_notMem_of_fromStr hip)
  rintro (hsubnet | ⟨hslash, -⟩)
  · obtain ⟨_, m, -, hm, -⟩ := (subnet_iff hsplit).mp hsubnet
    exact U8.not_decimal_of_signed hn hm
  · exact hslash (List.mem_append_right _ List.mem_cons_self)

theorem not_misread_star : ¬ Occurs MisreadAt ['*'] := by
  rw [Occurs.plain_iff (by decide)]
  nofun

/-- The parser accepts a target without a slash. -/
theorem parseTarget_of_notMem {segment : List Char} (h : '/' ∉ percentDecode segment) :
    ∃ target, parseTarget segment = .ok target ∧
      (segment ≠ ['*'] → ∃ t, target = some t ∧ Whole (percentDecode segment) t) := by
  by_cases hstar : segment = ['*']
  · exact ⟨none, (parseTarget_eq_ok_iff segment none).mpr (.inl ⟨hstar, rfl⟩),
      fun hne => absurd hstar hne⟩
  · obtain ⟨t, ht, hwhole⟩ := classify_of_notMem h
    exact ⟨some t, (parseTarget_eq_ok_iff segment _).mpr (.inr ⟨hstar, t, ht, rfl⟩),
      fun _ => ⟨t, rfl, hwhole⟩⟩

/-- The parser accepts a target that stands for an address with a prefix length. -/
theorem parseTarget_of_subnet {segment text : List Char} {t : Target}
    (htext : unescape segment = utf8 text)
    (h : Subnet U8.Decimal text t ∨ Subnet U8.Signed text t) :
    parseTarget segment = .ok (some t) := by
  obtain rfl := (unescape_eq_iff_of_clean (Clean.of_subnet_or h)).mp htext
  refine (parseTarget_eq_ok_iff segment _).mpr (.inr ⟨?_, t, ?_, rfl⟩)
  · rintro rfl
    have hslash : '/' ∉ percentDecode ['*'] := by decide
    exact h.elim (not_subnet_of_notMem hslash) (not_subnet_of_notMem hslash)
  · exact (classify_eq_ok_iff _ t).mpr (h.imp_left .inl)

theorem parse_of_looseSubnet {path : String} {target proto : List Char}
    (hsegments : Segments path.toList target proto) (hproto : TolerableProto proto)
    (h : LooseSubnet target proto) :
    ∃ scope, parseConnectIpPath path = .ok scope ∧ ¬ Reads path.toList scope := by
  obtain ⟨text, t, htext, hsubnet⟩ := h
  obtain ⟨p, hp⟩ := tolerableProto_iff.mp hproto
  have htarget := parseTarget_of_subnet htext (hsubnet.imp_left And.left)
  refine ⟨⟨some t, p⟩, ?_, ?_⟩
  · exact (parseConnectIpPath_eq_ok_iff path _).mpr ⟨target, proto, hsegments, htarget, hp⟩
  · rintro ⟨target', proto', hsegments', hslash, htarget', hproto'⟩
    obtain ⟨rfl, rfl⟩ := hsegments.unique hsegments'
    obtain ⟨-, hmem | hsigned⟩ | hsigned := hsubnet
    · exact hslash hmem
    · exact not_protoSegment_of_signed hsigned p hproto'
    · obtain ⟨-, hnone⟩ | ⟨-, text', t', htext', hnames, -⟩ := htarget'
      · exact absurd hnone (by simp)
      · obtain rfl := utf8_inj.mp (htext.symm.trans htext')
        exact not_names_of_signed hsigned hnames

theorem parse_of_looseWhole {path : String} {target proto : List Char}
    (hsegments : Segments path.toList target proto) (hproto : TolerableProto proto)
    (h : LooseWhole target proto) :
    ∃ scope, parseConnectIpPath path = .ok scope ∧ ¬ Reads path.toList scope := by
  obtain ⟨hslash, hescaped, hloose⟩ := h
  obtain ⟨p, hp⟩ := tolerableProto_iff.mp hproto
  have hdecoded : '/' ∉ percentDecode target :=
    fun hmem => ((slash_mem_percentDecode target).mp hmem).elim hslash hescaped
  obtain ⟨o, ho, hwhole⟩ := parseTarget_of_notMem hdecoded
  refine ⟨⟨o, p⟩, ?_, ?_⟩
  · exact (parseConnectIpPath_eq_ok_iff path _).mpr ⟨target, proto, hsegments, ho, hp⟩
  · rintro ⟨target', proto', hsegments', -, htarget', hproto'⟩
    obtain ⟨rfl, rfl⟩ := hsegments.unique hsegments'
    obtain hsigned | hmisread := hloose
    · exact not_protoSegment_of_signed hsigned p hproto'
    · obtain ⟨rfl, -⟩ | ⟨hne, text, t, htext, hnames, heq⟩ := htarget'
      · exact not_misread_star hmisread
      · obtain ⟨t', rfl, ht'⟩ := hwhole hne
        obtain rfl := Option.some.inj heq
        exact not_names_of_misread hmisread ht' htext hnames

theorem protoSegment_of_parse {segment : List Char} {proto : Option UInt8}
    (h : parseIpproto segment = .ok proto) (hsigned : ¬ SignedProto segment) :
    ProtoSegment segment proto := by
  obtain h | ⟨n, hn, -⟩ := (parseIpproto_eq_ok_iff segment proto).mp h
  · exact h
  · exact absurd ⟨n, hn⟩ hsigned

theorem targetSegment_of_parse {target proto : List Char} {o : Option Target}
    (h : parseTarget target = .ok o) (hsubnet : ¬ LooseSubnet target proto)
    (hwhole : ¬ LooseWhole target proto) :
    '/' ∉ target ∧ ¬ SignedProto proto ∧ TargetSegment target o := by
  have hnoslash : '/' ∉ percentDecode target →
      '/' ∉ target ∧ ¬ SignedProto proto ∧ ¬ Occurs MisreadAt target := by
    intro hmem
    rw [slash_mem_percentDecode, not_or] at hmem
    refine ⟨hmem.1, fun hsigned => ?_, fun hmisread => ?_⟩
    · exact hwhole ⟨hmem.1, hmem.2, .inl hsigned⟩
    · exact hwhole ⟨hmem.1, hmem.2, .inr hmisread⟩
  obtain ⟨rfl, rfl⟩ | ⟨hne, t, ht, rfl⟩ := (parseTarget_eq_ok_iff target o).mp h
  · obtain ⟨hslash, hsigned, -⟩ := hnoslash (by decide)
    exact ⟨hslash, hsigned, .inl ⟨rfl, rfl⟩⟩
  · have heq : ∀ {number}, (∀ len n, number len n → Clean len) →
        Subnet number (percentDecode target) t →
          unescape target = utf8 (percentDecode target) :=
      fun hnumber hs => (unescape_eq_iff_of_clean (Clean.of_subnet hnumber hs)).mpr rfl
    obtain (hs | hs) | hs := (classify_eq_ok_iff _ t).mp ht
    · have htext := heq (fun _ _ => Clean.of_decimal) hs
      refine ⟨fun hmem => ?_, fun hsigned => ?_, .inr ⟨hne, _, t, htext, .inl hs, rfl⟩⟩
      · exact hsubnet ⟨_, t, htext, .inl ⟨hs, .inl hmem⟩⟩
      · exact hsubnet ⟨_, t, htext, .inl ⟨hs, .inr hsigned⟩⟩
    · obtain ⟨hslash, hsigned, hmisread⟩ := hnoslash hs.1
      have htext := unescape_eq_of_not_misread hmisread
      exact ⟨hslash, hsigned, .inr ⟨hne, _, t, htext, .inr hs, rfl⟩⟩
    · exact absurd ⟨_, t, heq (fun _ _ => Clean.of_signed) hs, .inr hs⟩ hsubnet

/-- What the parser reads is what the grammar says, unless the path deviates. -/
theorem reads_of_parse {path : String} {scope : RequestScope} (hdev : ¬ Deviates path.toList)
    (h : parseConnectIpPath path = .ok scope) : Reads path.toList scope := by
  obtain ⟨target, proto, hsegments, htarget, hproto⟩ :=
    (parseConnectIpPath_eq_ok_iff path scope).mp h
  have htolerable : TolerableProto proto := tolerableProto_iff.mpr ⟨_, hproto⟩
  obtain ⟨hslash, hsigned, hsegment⟩ := targetSegment_of_parse htarget
    (fun hl => hdev ⟨target, proto, hsegments, htolerable, .inl hl⟩)
    (fun hl => hdev ⟨target, proto, hsegments, htolerable, .inr hl⟩)
  exact ⟨target, proto, hsegments, hslash, hsegment, protoSegment_of_parse hproto hsigned⟩

theorem slash_notMem_of_whole {segment text : List Char} (htext : unescape segment = utf8 text)
    (h : '/' ∉ text) : '/' ∉ percentDecode segment := by
  intro hmem
  have hbyte := slash_mem_unescape hmem
  rw [htext, utf8, List.mem_flatMap] at hbyte
  obtain ⟨c, hc, hbyte⟩ := hbyte
  have hval := toNat_of_mem_utf8EncodeChar (by decide) hbyte
  obtain rfl : c = '/' := Char.toNat_inj.mp hval
  exact h hc

theorem parseTarget_of_targetSegment {target proto : List Char} {o : Option Target}
    (hslash : '/' ∉ target) (h : TargetSegment target o) (hwhole : ¬ LooseWhole target proto) :
    parseTarget target = .ok o := by
  obtain ⟨rfl, rfl⟩ | ⟨hne, text, t, htext, hs | hs, rfl⟩ := h
  · exact (parseTarget_eq_ok_iff _ _).mpr (.inl ⟨rfl, rfl⟩)
  · exact parseTarget_of_subnet htext (.inl hs)
  · have hdecoded := slash_notMem_of_whole htext hs.1
    rw [slash_mem_percentDecode, not_or] at hdecoded
    have hmisread : ¬ Occurs MisreadAt target := fun hm => hwhole ⟨hslash, hdecoded.2, .inr hm⟩
    rw [unescape_eq_of_not_misread hmisread, utf8_inj] at htext
    subst htext
    exact (parseTarget_eq_ok_iff _ _).mpr
      (.inr ⟨hne, t, (classify_eq_ok_iff _ t).mpr (.inl (.inr hs)), rfl⟩)

theorem parse_of_reads {path : String} {scope : RequestScope} (hdev : ¬ Deviates path.toList)
    (h : Reads path.toList scope) : parseConnectIpPath path = .ok scope := by
  obtain ⟨target, proto, hsegments, hslash, htarget, hproto⟩ := h
  have hp := (parseIpproto_eq_ok_iff proto scope.ipProto).mpr (.inl hproto)
  have htolerable : TolerableProto proto := tolerableProto_iff.mpr ⟨_, hp⟩
  refine (parseConnectIpPath_eq_ok_iff path scope).mpr ⟨target, proto, hsegments, ?_, hp⟩
  exact parseTarget_of_targetSegment hslash htarget
    (fun hl => hdev ⟨target, proto, hsegments, htolerable, .inr hl⟩)

theorem parse_of_deviates {path : String} (h : Deviates path.toList) :
    ∃ scope, parseConnectIpPath path = .ok scope ∧ ¬ Reads path.toList scope := by
  obtain ⟨target, proto, hsegments, hproto, hloose⟩ := h
  exact hloose.elim (parse_of_looseSubnet hsegments hproto) (parse_of_looseWhole hsegments hproto)

/-- The parser accepts a path with a scope exactly when the grammar gives it that scope, for
every path that does not deviate and for no other. -/
theorem parseConnectIpPath_grammar (path : String) :
    (∀ scope, parseConnectIpPath path = .ok scope ↔ Reads path.toList scope) ↔
      ¬ Deviates path.toList := by
  constructor
  · intro hagree hdev
    obtain ⟨scope, hparse, hreads⟩ := parse_of_deviates hdev
    exact hreads ((hagree scope).mp hparse)
  · intro hdev scope
    exact ⟨reads_of_parse hdev, parse_of_reads hdev⟩

/-- A third segment, a sign in front of the protocol, and the two bytes of one letter. -/
theorem tolerated_paths :
    (parseConnectIpPath "/.well-known/masque/ip/10.0.0.0/8/6/" =
        .ok ⟨some (.prefixed (.v4 0x0a000000#32) 8), some 6⟩ ∧
      ¬ Reads "/.well-known/masque/ip/10.0.0.0/8/6/".toList
        ⟨some (.prefixed (.v4 0x0a000000#32) 8), some 6⟩) ∧
    (parseConnectIpPath "/.well-known/masque/ip/*/+6/" = .ok ⟨none, some 6⟩ ∧
      ¬ Reads "/.well-known/masque/ip/*/+6/".toList ⟨none, some 6⟩) ∧
    (parseConnectIpPath "/.well-known/masque/ip/%C3%A9/0/" =
        .ok ⟨some (.hostname "Ã©"), some 0⟩ ∧
      ¬ Reads "/.well-known/masque/ip/%C3%A9/0/".toList ⟨some (.hostname "Ã©"), some 0⟩) := by
  have key : ∀ {path scope}, parseConnectIpPath path = .ok scope → Deviates path.toList →
      parseConnectIpPath path = .ok scope ∧ ¬ Reads path.toList scope := by
    intro path scope hparse hdev
    obtain ⟨scope', hparse', hreads⟩ := parse_of_deviates hdev
    obtain rfl := Except.ok.inj (hparse.symm.trans hparse')
    exact ⟨hparse, hreads⟩
  have hdecimal : ∀ {c : Char} {n : UInt8}, c.isDigit = true → c.toNat - 48 = n.toNat →
      U8.Decimal [c] n :=
    fun hc hn => ⟨by simp, by simpa using hc, by simpa [U8.decimalValue] using hn⟩
  refine ⟨key (by decide +kernel) ?_, key (by decide +kernel) ?_, key (by decide +kernel) ?_⟩
  · refine ⟨"10.0.0.0/8".toList, ['6'], ⟨by decide +kernel, by simp, by simp, by decide⟩,
      .inr ⟨6, .inl (hdecimal (by decide) (by decide))⟩, .inl ?_⟩
    have hsubnet : Subnet U8.Decimal "10.0.0.0/8".toList (.prefixed (.v4 0x0a000000#32) 8) :=
      ⟨"10.0.0.0".toList, ['8'], .v4 0x0a000000#32, 8, by decide +kernel, by decide +kernel,
        hdecimal (by decide) (by decide), by decide, rfl⟩
    refine ⟨_, _, ?_, .inl ⟨hsubnet, .inl (by decide +kernel)⟩⟩
    exact (unescape_eq_iff_of_clean (Clean.of_subnet_or (.inl hsubnet))).mpr (by decide +kernel)
  · have hsigned : U8.Signed ['+', '6'] 6 := ⟨['6'], rfl, hdecimal (by decide) (by decide)⟩
    refine ⟨['*'], ['+', '6'], ⟨by decide +kernel, by simp, by simp, by decide⟩,
      .inr ⟨6, .inr hsigned⟩, .inr ⟨by decide, ?_, .inl ⟨6, hsigned⟩⟩⟩
    rw [Occurs.plain_iff (by decide)]
    nofun
  · refine ⟨"%C3%A9".toList, ['0'], ⟨by decide +kernel, by simp, by simp, by decide⟩,
      .inr ⟨0, .inl (hdecimal (by decide) (by decide))⟩, .inr ⟨by decide +kernel, ?_, .inr ?_⟩⟩
    · show ¬ Occurs SlashAt ['%', 'C', '3', '%', 'A', '9']
      rw [Occurs.triple_iff, Occurs.triple_iff]
      rintro (h | h | h)
      · exact absurd h (by unfold SlashAt; decide)
      · exact absurd h (by unfold SlashAt; decide)
      · nomatch h
    · exact .here (.inr (.inl ⟨0xc3, by decide, by decide⟩))

end Straw.UriTemplate
