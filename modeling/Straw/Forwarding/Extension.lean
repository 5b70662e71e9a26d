import Straw.Forwarding.Header

/-!
# IPv6 extension headers

The chain of extension headers as a format: each header names the one after it and, but
for the fragment header, states its own length. `ipv6_final_protocol` is compared with
what the chain says.
-/

namespace Straw

open Outcome
set_option autoImplicit false

inductive ExtensionKind where
  | hopByHop
  | routing
  | fragment
  | authentication
  | destinationOptions
deriving DecidableEq

namespace ExtensionKind

def number : ExtensionKind → UInt8
  | hopByHop => 0
  | routing => 43
  | fragment => 44
  | authentication => 51
  | destinationOptions => 60

/-- The length of a header whose second byte is `n`. -/
def len : ExtensionKind → UInt8 → Nat
  | fragment, _ => 8
  | authentication, n => 4 * (n.toNat + 2)
  | hopByHop, n | routing, n | destinationOptions, n => 8 + 8 * n.toNat

def ofNumber (next : UInt8) : Option ExtensionKind :=
  if next = 0 then some hopByHop
  else if next = 43 then some routing
  else if next = 44 then some fragment
  else if next = 51 then some authentication
  else if next = 60 then some destinationOptions
  else none

theorem ofNumber_number (kind : ExtensionKind) : ofNumber kind.number = some kind := by
  cases kind <;> rfl

theorem ofNumber_eq_some {next : UInt8} {kind : ExtensionKind} :
    ofNumber next = some kind ↔ next = kind.number := by
  constructor
  · intro h
    unfold ofNumber at h
    split_ifs at h with h0 h43 h44 h51 h60
    · cases h
      exact h0
    · cases h
      exact h43
    · cases h
      exact h44
    · cases h
      exact h51
    · cases h
      exact h60
  · rintro rfl
    exact ofNumber_number kind

theorem ofNumber_eq_none {next : UInt8} :
    ofNumber next = none ↔ next ∉ [0, 43, 44, 51, 60] := by
  unfold ofNumber
  split_ifs <;> simp_all

theorem eight_le_len (kind : ExtensionKind) (n : UInt8) : 8 ≤ kind.len n := by
  cases kind <;> simp only [len] <;> omega

end ExtensionKind

/-- A complete header, but for the number of the header after it. -/
structure ExtensionHeader where
  kind : ExtensionKind
  second : UInt8
  body : Bytes
  complete : body.length + 2 = kind.len second

namespace ExtensionHeader

def bytes (h : ExtensionHeader) (next : UInt8) : Bytes := next :: h.second :: h.body

def fragmentOffset (h : ExtensionHeader) : Nat := be16 (h.body.getD 0 0) (h.body.getD 1 0) / 8

def IsLaterFragment (h : ExtensionHeader) : Prop := h.kind = .fragment ∧ h.fragmentOffset ≠ 0

theorem length_bytes (h : ExtensionHeader) (next : UInt8) :
    (h.bytes next).length = h.kind.len h.second := by
  rw [← h.complete]
  rfl

end ExtensionHeader

/-- The number by which a chain that ends at `p` is announced. -/
def leads : List ExtensionHeader → UInt8 → UInt8
  | [], p => p
  | h :: _, _ => h.kind.number

def chainBytes : List ExtensionHeader → UInt8 → Bytes
  | [], _ => []
  | h :: hs, p => h.bytes (leads hs p) ++ chainBytes hs p

theorem leads_append (as bs : List ExtensionHeader) (p : UInt8) :
    leads (as ++ bs) p = leads as (leads bs p) := by
  cases as with
  | nil => rfl
  | cons h as => rfl

theorem chainBytes_append (as bs : List ExtensionHeader) (p : UInt8) :
    chainBytes (as ++ bs) p = chainBytes as (leads bs p) ++ chainBytes bs p := by
  induction as with
  | nil => rfl
  | cons h as ih => rw [List.cons_append, chainBytes, chainBytes, ih, leads_append, List.append_assoc]

namespace Packet

/-- The two length checks of a header that states its length `len n` are one, and the reads
behind them are in range. -/
theorem stepOver_eq {packet : Bytes} {offset : Nat} {len : UInt8 → Nat} (hlen : ∀ n, 8 ≤ len n)
    (rest : UInt8 → Nat → Outcome ForwardingError UInt8) :
    (if packet.length < offset + 8 then fail .malformedPacket
      else do
        let n := len (← index packet (offset + 1))
        if packet.length < offset + n then fail .malformedPacket
        else rest (← index packet offset) (offset + n)) =
      if packet.length < offset + len (packet.getD (offset + 1) 0) then fail .malformedPacket
      else rest (packet.getD offset 0) (offset + len (packet.getD (offset + 1) 0)) := by
  have hmin := hlen (packet.getD (offset + 1) 0)
  by_cases hshort : packet.length < offset + 8
  · rw [if_pos hshort, if_pos (by omega)]
  · rw [if_neg hshort, index_of_lt (by omega) 0, ok_bind, index_of_lt (by omega) 0]
    rfl

/-- One turn of the loop. -/
theorem ipv6Walk_succ (packet : Bytes) (headers : Nat) (next : UInt8) (offset : Nat) :
    ipv6Walk packet (headers + 1) next offset =
      match ExtensionKind.ofNumber next with
      | none => .ok next
      | some kind =>
        if packet.length < offset + kind.len (packet.getD (offset + 1) 0) then
          fail .malformedPacket
        else if kind = .fragment ∧
            be16 (packet.getD (offset + 2) 0) (packet.getD (offset + 3) 0) / 8 ≠ 0 then .ok 44
        else
          ipv6Walk packet headers (packet.getD offset 0)
            (offset + kind.len (packet.getD (offset + 1) 0)) := by
  have hoptions : ∀ n : UInt8, 8 ≤ 8 + n.toNat * 8 := by
    intro n
    omega
  have hauth : ∀ n : UInt8, 8 ≤ (n.toNat + 2) * 4 := by
    intro n
    omega
  cases hkind : ExtensionKind.ofNumber next with
  | none =>
    have hnone := ExtensionKind.ofNumber_eq_none.mp hkind
    simp only [List.mem_cons, List.not_mem_nil, or_false, not_or] at hnone
    obtain ⟨hhop, hrouting, hfragment, hauthentication, hdestination⟩ := hnone
    have hoption : ¬ (next = 0 ∨ next = 43 ∨ next = 60) :=
      not_or.mpr ⟨hhop, not_or.mpr ⟨hrouting, hdestination⟩⟩
    rw [ipv6Walk, if_neg hoption, if_neg hfragment, if_neg hauthentication]
  | some kind =>
    obtain rfl := ExtensionKind.ofNumber_eq_some.mp hkind
    rw [ipv6Walk]
    cases kind with
    | hopByHop | routing | destinationOptions =>
      rw [if_pos (by decide), stepOver_eq hoptions]
      simp only [ExtensionKind.len, reduceCtorEq, false_and, if_false, Nat.mul_comm 8]
    | authentication =>
      rw [if_neg (by decide), if_neg (by decide), if_pos (by decide), stepOver_eq hauth]
      simp only [ExtensionKind.len, reduceCtorEq, false_and, if_false, Nat.mul_comm 4]
    | fragment =>
      rw [if_neg (by decide), if_pos (by decide)]
      simp only [ExtensionKind.len, true_and]
      split
      · rfl
      · rw [index_of_lt (by omega) 0, index_of_lt (by omega) 0, index_of_lt (by omega) 0, ok_bind,
          ok_bind, ok_bind, Nat.shiftRight_eq_div_pow]

theorem ipv6Walk_ne_panic (packet : Bytes) (headers : Nat) (next : UInt8) (offset : Nat) :
    ipv6Walk packet headers next offset ≠ .error .panic := by
  induction headers generalizing next offset with
  | zero =>
    intro h
    cases h
  | succ headers ih =>
    rw [ipv6Walk_succ]
    split
    · intro h
      cases h
    · split_ifs
      · intro h
        cases h
      · intro h
        cases h
      · exact ih _ _

theorem parsePacket_ne_panic (packet : Bytes) : parsePacket packet ≠ .error .panic := by
  by_cases h4 : version packet = 4
  · rw [parsePacket_v4 h4]
    split <;> intro h <;> cases h
  · by_cases h6 : version packet = 6
    · rw [parsePacket_v6 h6]
      split
      · rename_i hok
        have hwalk := ipv6Walk_ne_panic packet 8 (packet.getD 6 0) 40
        rw [ipv6FinalProtocol, index_of_lt (by omega) 0, ok_bind]
        cases hresult : ipv6Walk packet 8 (packet.getD 6 0) 40 with
        | ok protocol =>
          intro h
          cases h
        | error fault =>
          intro h
          obtain rfl := Except.error.inj h
          exact hwalk hresult
      · intro h
        cases h
    · cases packet with
      | nil =>
        intro h
        cases h
      | cons first rest =>
        have hfour : ¬ first >>> 4 = 4 := h4
        have hsix : ¬ first >>> 4 = 6 := h6
        rw [parsePacket, if_neg hfour, if_neg hsix]
        intro h
        cases h

section Walk

variable {packet : Bytes} {offset : Nat} {h : ExtensionHeader} {next : UInt8} {tail : Bytes}

theorem getD_add_of_drop {bytes : Bytes} (hdrop : packet.drop offset = bytes) (i : Nat) :
    packet.getD (offset + i) 0 = bytes.getD i 0 := by
  rw [← hdrop, List.getD_eq_getElem?_getD, List.getD_eq_getElem?_getD, List.getElem?_drop]

theorem length_of_drop {bytes : Bytes} (hdrop : packet.drop offset = bytes)
    (hoffset : offset ≤ packet.length) : packet.length = offset + bytes.length := by
  rw [← hdrop, List.length_drop]
  omega

theorem le_length_of_drop (hdrop : packet.drop offset = h.bytes next ++ tail) :
    offset ≤ packet.length := by
  by_contra hlong
  rw [List.drop_eq_nil_of_le (by omega)] at hdrop
  cases hdrop

/-- What the walk sees of a header that is all there. -/
theorem ipv6Walk_header (hdrop : packet.drop offset = h.bytes next ++ tail) (headers : Nat) :
    ipv6Walk packet (headers + 1) h.kind.number offset =
      if h.kind = .fragment ∧ h.fragmentOffset ≠ 0 then .ok 44
      else ipv6Walk packet headers next (offset + h.kind.len h.second) := by
  have hlen := length_of_drop hdrop (le_length_of_drop hdrop)
  rw [List.length_append, h.length_bytes] at hlen
  have hbody : 2 ≤ h.body.length := by
    have hmin := h.kind.eight_le_len h.second
    have hcomplete := h.complete
    omega
  have hfirst : packet.getD offset 0 = next := getD_add_of_drop hdrop 0
  have hsecond : packet.getD (offset + 1) 0 = h.second := getD_add_of_drop hdrop 1
  have hbytes : ∀ i, i < 2 → packet.getD (offset + (2 + i)) 0 = h.body.getD i 0 := by
    intro i hi
    rw [getD_add_of_drop hdrop, List.getD_eq_getElem?_getD, List.getD_eq_getElem?_getD,
      List.getElem?_append_left (by rw [h.length_bytes, ← h.complete]; omega), Nat.add_comm 2 i]
    rfl
  rw [ipv6Walk_succ, ExtensionKind.ofNumber_number, hfirst, hsecond]
  simp only
  rw [if_neg (by omega), hbytes 0 (by omega), hbytes 1 (by omega)]
  rfl

theorem ipv6Walk_truncated {missing : Bytes} (hdrop : packet.drop offset = tail)
    (hoffset : offset ≤ packet.length) (hcut : tail ++ missing = h.bytes next)
    (hmissing : missing ≠ []) (headers : Nat) :
    ipv6Walk packet (headers + 1) h.kind.number offset = fail .malformedPacket := by
  have hlen := length_of_drop hdrop hoffset
  have hshort : tail.length < h.kind.len h.second := by
    have hpos := List.length_pos_of_ne_nil hmissing
    rw [← h.length_bytes next, ← hcut, List.length_append]
    omega
  rw [ipv6Walk_succ, ExtensionKind.ofNumber_number]
  apply if_pos
  -- the length byte may itself be missing
  by_cases htwo : 2 ≤ tail.length
  · have hsecond : packet.getD (offset + 1) 0 = h.second := by
      have hbyte : (tail ++ missing)[1]? = some h.second := by
        rw [hcut]
        rfl
      rw [List.getElem?_append_left (by omega)] at hbyte
      rw [getD_add_of_drop hdrop, List.getD_eq_getElem?_getD, hbyte]
      rfl
    rw [hsecond]
    omega
  · have hmin := h.kind.eight_le_len (packet.getD (offset + 1) 0)
    omega

theorem ipv6Walk_chain {hs : List ExtensionHeader} {p : UInt8}
    (hfirst : ∀ h ∈ hs, ¬ h.IsLaterFragment)
    (hdrop : packet.drop offset = chainBytes hs p ++ tail) (headers : Nat) :
    ipv6Walk packet (headers + hs.length) (leads hs p) offset =
      ipv6Walk packet headers p (offset + (chainBytes hs p).length) := by
  induction hs generalizing offset with
  | nil => rfl
  | cons h hs ih =>
    have hhead : packet.drop offset = h.bytes (leads hs p) ++ (chainBytes hs p ++ tail) := by
      rw [hdrop, chainBytes, List.append_assoc]
    have hnext : packet.drop (offset + h.kind.len h.second) = chainBytes hs p ++ tail := by
      rw [← List.drop_drop, hhead, ← h.length_bytes (leads hs p), List.drop_left]
    have hstep : (h :: hs).length = hs.length + 1 := rfl
    have hnot : ¬ (h.kind = .fragment ∧ h.fragmentOffset ≠ 0) := hfirst h List.mem_cons_self
    rw [hstep, ← Nat.add_assoc, leads, ipv6Walk_header hhead, if_neg hnot,
      ih (fun k hk => hfirst k (List.mem_cons_of_mem h hk)) hnext, chainBytes, List.length_append,
      h.length_bytes, Nat.add_assoc]

/-- The header that begins at `offset`, when all of it is there. -/
def headerAt (packet : Bytes) (offset : Nat) (kind : ExtensionKind)
    (h : offset + kind.len (packet.getD (offset + 1) 0) ≤ packet.length) : ExtensionHeader where
  kind := kind
  second := packet.getD (offset + 1) 0
  body := field packet (offset + 2) (kind.len (packet.getD (offset + 1) 0) - 2)
  complete := by
    have hmin := kind.eight_le_len (packet.getD (offset + 1) 0)
    rw [length_field (by omega)]
    omega

theorem drop_headerAt {kind : ExtensionKind}
    (h : offset + kind.len (packet.getD (offset + 1) 0) ≤ packet.length) :
    packet.drop offset = (headerAt packet offset kind h).bytes (packet.getD offset 0) ++
      packet.drop (offset + kind.len (packet.getD (offset + 1) 0)) := by
  have hmin := kind.eight_le_len (packet.getD (offset + 1) 0)
  have hread : ∀ i, i < packet.length → packet.drop i = packet.getD i 0 :: packet.drop (i + 1) := by
    intro i hi
    rw [List.drop_eq_getElem_cons hi, List.getD_eq_getElem?_getD, List.getElem?_eq_getElem hi]
    rfl
  have hrest : packet.drop (offset + 2) =
      field packet (offset + 2) (kind.len (packet.getD (offset + 1) 0) - 2) ++
        packet.drop (offset + kind.len (packet.getD (offset + 1) 0)) := by
    have hsum : offset + kind.len (packet.getD (offset + 1) 0) =
        offset + 2 + (kind.len (packet.getD (offset + 1) 0) - 2) := by omega
    have hsplit := List.take_append_drop (kind.len (packet.getD (offset + 1) 0) - 2)
      (packet.drop (offset + 2))
    rw [List.drop_drop] at hsplit
    rw [hsum]
    exact hsplit.symm
  rw [hread offset (by omega), hread (offset + 1) (by omega), hrest]
  rfl

/-- What comes behind the headers is no header, or it is a later fragment. -/
def Final (p : UInt8) (rest : Bytes) : Prop :=
  p ∉ [0, 43, 44, 51, 60] ∨
    p = 44 ∧ ∃ (h : ExtensionHeader) (next : UInt8) (after : Bytes),
      h.IsLaterFragment ∧ rest = h.bytes next ++ after

/-- A walk that ends has gone along a chain. -/
theorem exists_chain_of_ipv6Walk {headers : Nat} {p : UInt8} (hoffset : offset ≤ packet.length)
    (hwalk : ipv6Walk packet headers next offset = .ok p) :
    ∃ hs rest, next = leads hs p ∧ packet.drop offset = chainBytes hs p ++ rest ∧
      hs.length < headers ∧ (∀ h ∈ hs, ¬ h.IsLaterFragment) ∧ Final p rest := by
  induction headers generalizing next offset with
  | zero => cases hwalk
  | succ headers ih =>
    have hstep := hwalk
    rw [ipv6Walk_succ] at hwalk
    split at hwalk
    · rename_i hkind
      obtain rfl := Except.ok.inj hwalk
      exact ⟨[], packet.drop offset, rfl, rfl, Nat.zero_lt_succ _, List.forall_mem_nil _,
        Or.inl (ExtensionKind.ofNumber_eq_none.mp hkind)⟩
    · rename_i kind hkind
      obtain rfl := ExtensionKind.ofNumber_eq_some.mp hkind
      split at hwalk
      · cases hwalk
      rename_i hshort
      have hfull := Nat.not_lt.mp hshort
      have hdrop := drop_headerAt hfull
      replace hstep := (ipv6Walk_header hdrop headers).symm.trans hstep
      split at hstep
      · rename_i hlater
        obtain rfl := Except.ok.inj hstep
        have hfragment : kind = .fragment := hlater.1
        refine ⟨[], packet.drop offset, ?_, rfl, Nat.zero_lt_succ _, List.forall_mem_nil _,
          Or.inr ⟨rfl, _, _, _, hlater, hdrop⟩⟩
        rw [hfragment]
        rfl
      · rename_i hearly
        obtain ⟨hs, rest, hnext, hrest, hlen, hfirst, hfinal⟩ := ih hfull hstep
        refine ⟨headerAt packet offset kind hfull :: hs, rest, rfl, ?_, Nat.succ_lt_succ hlen, ?_,
          hfinal⟩
        · rw [hdrop, hrest, hnext, chainBytes, List.append_assoc]
        · exact List.forall_mem_cons.mpr ⟨hearly, hfirst⟩

end Walk

/-- An IPv6 packet whose payload begins with the headers `hs`; the last of them announces
`p`, and `rest` comes after it. -/
structure Ipv6Chain (packet : Bytes) (hs : List ExtensionHeader) (p : UInt8) (rest : Bytes) :
    Prop where
  version : version packet = 6
  header : 40 ≤ packet.length
  stated : statedLen packet = packet.length
  announced : packet.getD 6 0 = leads hs p
  payload : packet.drop 40 = chainBytes hs p ++ rest

namespace Ipv6Chain

variable {packet : Bytes} {hs : List ExtensionHeader} {p : UInt8} {rest : Bytes}

theorem parsePacket_eq (h : Ipv6Chain packet hs p rest) :
    parsePacket packet = (do
      let protocol ← ipv6Walk packet 8 (leads hs p) 40
      .ok ⟨6, source packet, destination packet, protocol⟩) := by
  have hlen := h.header
  rw [parsePacket_v6 h.version, if_pos ⟨hlen, h.stated⟩, ipv6FinalProtocol,
    index_of_lt (by omega) 0, ok_bind, h.announced]

/-- After the headers the walk has `8 - hs.length` turns left. -/
theorem ipv6Walk_eq (h : Ipv6Chain packet hs p rest) (hfirst : ∀ x ∈ hs, ¬ x.IsLaterFragment)
    {headers : Nat} (hlen : headers + hs.length = 8) :
    ipv6Walk packet 8 (leads hs p) 40 =
      ipv6Walk packet headers p (40 + (chainBytes hs p).length) := by
  rw [← hlen]
  exact ipv6Walk_chain hfirst h.payload headers

theorem drop_eq (h : Ipv6Chain packet hs p rest) :
    packet.drop (40 + (chainBytes hs p).length) = rest := by
  rw [← List.drop_drop, h.payload, List.drop_left]

theorem le_length (h : Ipv6Chain packet hs p rest) :
    40 + (chainBytes hs p).length ≤ packet.length := by
  have hlen := length_of_drop h.payload h.header
  rw [List.length_append] at hlen
  omega

/-- The first headers of a chain; the others are behind them. -/
theorem left {as bs : List ExtensionHeader} (h : Ipv6Chain packet (as ++ bs) p rest) :
    Ipv6Chain packet as (leads bs p) (chainBytes bs p ++ rest) where
  version := h.version
  header := h.header
  stated := h.stated
  announced := by rw [h.announced, leads_append]
  payload := by rw [h.payload, chainBytes_append, List.append_assoc]

theorem parsePacket_eight (h : Ipv6Chain packet hs p rest) (hlen : hs.length = 8)
    (hfirst : ∀ x ∈ hs, ¬ x.IsLaterFragment) : parsePacket packet = fail .malformedPacket := by
  have hnone : 0 + hs.length = 8 := by omega
  rw [h.parsePacket_eq, h.ipv6Walk_eq hfirst hnone]
  rfl

end Ipv6Chain

/-- What the parser reports is decided by the first eight headers of the chain. -/
theorem parsePacket_extension_headers :
    (∀ packet, parsePacket packet ≠ .error .panic) ∧
    ∀ packet hs p rest, Ipv6Chain packet hs p rest → (∀ h ∈ hs.take 8, ¬ h.IsLaterFragment) →
      (hs.length ≤ 7 → p ∉ [0, 43, 44, 51, 60] →
        parsePacket packet = .ok ⟨6, source packet, destination packet, p⟩) ∧
      (∀ (h : ExtensionHeader) next after, hs.length ≤ 7 → p = h.kind.number → h.IsLaterFragment →
        rest = h.bytes next ++ after →
        parsePacket packet = .ok ⟨6, source packet, destination packet, 44⟩) ∧
      (8 ≤ hs.length → parsePacket packet = fail .malformedPacket) ∧
      (∀ (h : ExtensionHeader) next missing, hs.length ≤ 7 → p = h.kind.number →
        rest ++ missing = h.bytes next → missing ≠ [] → parsePacket packet = fail .malformedPacket) := by
  refine ⟨parsePacket_ne_panic, ?_⟩
  intro packet hs p rest hchain htake
  have hfirst : hs.length ≤ 7 → ∀ h ∈ hs, ¬ h.IsLaterFragment := by
    intro hlen
    rwa [List.take_of_length_le (by omega)] at htake
  have hwalk : (hlen : hs.length ≤ 7) → ipv6Walk packet 8 (leads hs p) 40 =
      ipv6Walk packet (7 - hs.length + 1) p (40 + (chainBytes hs p).length) :=
    fun hlen => hchain.ipv6Walk_eq (hfirst hlen) (by omega)
  refine ⟨?_, ?_, ?_, ?_⟩
  · intro hlen hp
    rw [hchain.parsePacket_eq, hwalk hlen, ipv6Walk_succ, ExtensionKind.ofNumber_eq_none.mpr hp]
    rfl
  · intro h next after hlen hp hlater hrest
    have hdrop := hchain.drop_eq.trans hrest
    have hfragment : h.kind = .fragment ∧ h.fragmentOffset ≠ 0 := hlater
    rw [hchain.parsePacket_eq, hwalk hlen, hp]
    rw [hp] at hdrop
    rw [ipv6Walk_header hdrop, if_pos hfragment]
    rfl
  · intro hlen
    have hsplit : hs = hs.take 8 ++ hs.drop 8 := (List.take_append_drop 8 hs).symm
    rw [hsplit] at hchain
    exact hchain.left.parsePacket_eight (by rw [List.length_take]; omega) htake
  · intro h next missing hlen hp hcut hmissing
    rw [hchain.parsePacket_eq, hwalk hlen, hp]
    have hdrop := hchain.drop_eq
    have hle := hchain.le_length
    rw [hp] at hdrop hle
    rw [ipv6Walk_truncated hdrop hle hcut hmissing]
    rfl

/-- The IPv6 packets the parser takes are exactly the chains of at most seven headers, and
it reports the protocol that they end at. -/
theorem parsePacket_ipv6_iff (packet : Bytes) (info : PacketInfo) :
    (version packet = 6 ∧ parsePacket packet = .ok info) ↔
      ∃ hs p rest, Ipv6Chain packet hs p rest ∧ hs.length ≤ 7 ∧
        (∀ h ∈ hs, ¬ h.IsLaterFragment) ∧ Final p rest ∧
        info = ⟨6, source packet, destination packet, p⟩ := by
  constructor
  · rintro ⟨hv, h⟩
    rw [parsePacket_v6 hv] at h
    split at h
    · rename_i hok
      obtain ⟨p, hwalk, hinfo⟩ := bind_eq_ok.mp h
      rw [ipv6FinalProtocol, index_of_lt (by omega) 0, ok_bind] at hwalk
      obtain ⟨hs, rest, hnext, hpayload, hlen, hfirst, hfinal⟩ := exists_chain_of_ipv6Walk hok.1 hwalk
      exact ⟨hs, p, rest, ⟨hv, hok.1, hok.2, hnext, hpayload⟩, Nat.le_of_lt_succ hlen, hfirst,
        hfinal, (Except.ok.inj hinfo).symm⟩
    · cases h
  · rintro ⟨hs, p, rest, hchain, hlen, hfirst, hfinal, rfl⟩
    refine ⟨hchain.version, ?_⟩
    have hturns : 7 - hs.length + 1 + hs.length = 8 := by omega
    rw [hchain.parsePacket_eq, hchain.ipv6Walk_eq hfirst hturns]
    rcases hfinal with hp | ⟨rfl, h, next, after, hlater, rfl⟩
    · rw [ipv6Walk_succ, ExtensionKind.ofNumber_eq_none.mpr hp]
      rfl
    · have hfragment : h.kind = .fragment ∧ h.fragmentOffset ≠ 0 := hlater
      have hwalk := ipv6Walk_header hchain.drop_eq (7 - hs.length)
      rw [if_pos hfragment, hfragment.1, ExtensionKind.number] at hwalk
      rw [hwalk]
      rfl

/-- An ICMPv6 Destination Unreachable behind a Destination Options header. -/
def optionedError : Bytes :=
  [0x60, 0, 0, 0, 0, 16, 60, 64] ++
    [0xfd, 0, 0, 0, 0, 0, 0, 0, 0, 0, 0, 0, 0, 0, 0, 2] ++
    [0x20, 0x01, 0x0d, 0xb8, 0, 0, 0, 0, 0, 0, 0, 0, 0, 0, 0, 1] ++
    [58, 0, 1, 4, 0, 0, 0, 0] ++ [1, 0, 0, 0, 0, 0, 0, 0]

def padOptions : ExtensionHeader := ⟨.destinationOptions, 0, [1, 4, 0, 0, 0, 0], rfl⟩

theorem ipv6Chain_optionedError :
    Ipv6Chain optionedError [padOptions] 58 [1, 0, 0, 0, 0, 0, 0, 0] where
  version := by decide
  header := by decide
  stated := by decide
  announced := by decide
  payload := by decide

theorem parsePacket_extension_headers_optioned :
    Ipv6Chain optionedError [padOptions] 58 [1, 0, 0, 0, 0, 0, 0, 0] ∧
      parsePacket optionedError = .ok ⟨6, source optionedError, destination optionedError, 58⟩ := by
  have hfirst : ∀ h ∈ [padOptions].take 8, ¬ h.IsLaterFragment := by
    intro h hmem
    obtain rfl := List.mem_singleton.mp hmem
    rintro ⟨hkind, -⟩
    cases hkind
  exact ⟨ipv6Chain_optionedError, (parsePacket_extension_headers.2 _ _ _ _
    ipv6Chain_optionedError hfirst).1 (by decide) (by decide)⟩

end Packet

end Straw
