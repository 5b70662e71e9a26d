import Straw.IpParse
import Straw.Capsule.Codec

/-!
# The default gateway

`parse_default_gateway` reads the kernel's routing table as `/proc/net/route` prints it: a
header, then a line for each route, with the destination, the gateway and the mask as
hexadecimal words, least significant byte first. It goes by the destination alone, and a
line of fewer than three columns ends the search.
-/

namespace Straw.Portmap

open Outcome Text Percent
set_option autoImplicit false

/-- The octets of a word, the least significant first. -/
def toLeBytes (raw : UInt32) : Bytes := (BigEndian.ofNat 4 raw.toNat).reverse

def readGateway (gw : List Char) : Option Ipv4Addr :=
  match U32.fromStrRadix gw 16 with
  | .ok raw => some (Ipv4Addr.ofOctets (toLeBytes raw))
  | .error _ => none

def zeroColumn : List Char := "00000000".toList

/-- The loop over the lines behind the header. -/
def scanRoutes : List (List Char) → Option Ipv4Addr
  | [] => none
  | line :: rest =>
    match splitWhitespace line with
    | _iface :: dest :: gw :: _ => if dest = zeroColumn then readGateway gw else scanRoutes rest
    | _ => none

def parseDefaultGateway (table : String) : Option Ipv4Addr :=
  scanRoutes ((lines table.toList).drop 1)

/-- `table` is what could be read of the file. -/
def defaultGateway (table : Option String) : Option Ipv4Addr := table.bind parseDefaultGateway

def port : UInt16 := 5351

/-- The server `map_udp` turns to. -/
def mapUdpServer (table : Option String) : Outcome ProxyError SocketAddr :=
  match defaultGateway table with
  | some gateway => .ok (.v4 gateway port)
  | none => fail (.config "no default IPv4 gateway for port mapping")

/-! Routes -/

structure Row where
  destination : Ipv4Addr
  gateway : Ipv4Addr
  mask : Ipv4Addr
deriving DecidableEq

def Row.isDefault (r : Row) : Bool := r.destination = 0#32 && r.mask = 0#32

def hexOctet (high low : Char) : Option UInt8 := do
  let h ← toDigit 16 high
  let l ← toDigit 16 low
  return UInt8.ofNat (16 * h + l)

/-- Eight hexadecimal digits; the last two are the first octet. -/
def littleEndian : List Char → Option Ipv4Addr
  | [a, b, c, d, e, f, g, h] => do
    let fst ← hexOctet g h
    let snd ← hexOctet e f
    let trd ← hexOctet c d
    let fth ← hexOctet a b
    return Ipv4Addr.ofOctets [fst, snd, trd, fth]
  | _ => none

/-- A line is a route when it has eight columns at least, the second, the third and the
eighth of which are addresses. -/
def Row.ofLine (line : List Char) : Option Row :=
  match splitWhitespace line with
  | _ :: dest :: gw :: _ :: _ :: _ :: _ :: mask :: _ => do
    return ⟨← littleEndian dest, ← littleEndian gw, ← littleEndian mask⟩
  | _ => none

def rows (table : String) : List Row := ((lines table.toList).drop 1).filterMap Row.ofLine

/-! Words -/

theorem toDigit_lt {radix n : Nat} {c : Char} (h : toDigit radix c = some n) : n < radix :=
  (toDigit_eq_some_iff.mp h).2

theorem hexOctet_eq_some_iff {high low : Char} {o : UInt8} :
    hexOctet high low = some o ↔
      ∃ h l, toDigit 16 high = some h ∧ toDigit 16 low = some l ∧ o = UInt8.ofNat (16 * h + l) := by
  simp only [hexOctet, Option.bind_eq_bind, Option.bind_eq_some_iff, Option.pure_def,
    Option.some.injEq]
  constructor
  · rintro ⟨h, hh, l, hl, rfl⟩
    exact ⟨h, l, hh, hl, rfl⟩
  · rintro ⟨h, l, hh, hl, rfl⟩
    exact ⟨h, hh, l, hl, rfl⟩

theorem toDigit_zero_iff {c : Char} : toDigit 16 c = some 0 ↔ c = '0' := by
  rw [toDigit_eq_some_iff]
  constructor
  · rintro ⟨hvalue, -⟩
    have hnat : c.toNat = '0'.toNat := by
      unfold digitValue at hvalue
      show c.toNat = 48
      split at hvalue
      · omega
      · split at hvalue
        · omega
        · split at hvalue
          · omega
          · omega
    exact Char.toNat_inj.mp hnat
  · rintro rfl
    exact ⟨rfl, by decide⟩

theorem hexOctet_zero_iff {high low : Char} :
    hexOctet high low = some 0 ↔ high = '0' ∧ low = '0' := by
  rw [hexOctet_eq_some_iff, ← toDigit_zero_iff, ← toDigit_zero_iff]
  constructor
  · rintro ⟨h, l, hh, hl, ho⟩
    have hhlt := toDigit_lt hh
    have hllt := toDigit_lt hl
    have hzero : 16 * h + l = 0 := by
      have hnat := congrArg UInt8.toNat ho
      rw [UInt8.toNat_ofNat', UInt8.toNat_zero] at hnat
      omega
    obtain rfl : h = 0 := by omega
    obtain rfl : l = 0 := by omega
    exact ⟨hh, hl⟩
  · rintro ⟨hh, hl⟩
    exact ⟨0, 0, hh, hl, rfl⟩

theorem fromStrRadix_of_toDigit {bound d : Nat} {c : Char} (hc : toDigit 16 c = some d)
    (digits : List Char) :
    Unsigned.fromStrRadix bound (c :: digits) 16 =
      Unsigned.accumulate bound 16 0 (c :: digits) := by
  have hplus : c ≠ '+' := ne_of_toDigit hc (by decide)
  have hminus : c ≠ '-' := ne_of_toDigit hc (by decide)
  unfold Unsigned.fromStrRadix
  split
  · next h => exact absurd h (by simp)
  · next h => exact absurd (List.cons.inj h).1 hplus
  · next h => exact absurd (List.cons.inj h).1 hminus
  · next h => exact absurd (List.cons.inj h).1 hplus
  · rfl

theorem accumulate_digits {bound n : Nat} {cs : List Char} {ds : List Nat}
    (h : cs.map (toDigit 16) = ds.map some) (hroom : (n + 1) * 16 ^ cs.length ≤ bound) :
    Unsigned.accumulate bound 16 n cs = .ok (ds.foldl (fun n d => n * 16 + d) n) := by
  induction cs generalizing ds n with
  | nil =>
    obtain rfl := List.map_eq_nil_iff.mp h.symm
    rfl
  | cons c cs ih =>
    cases ds with
    | nil => cases h
    | cons d ds =>
      obtain ⟨hc, hcs⟩ := List.cons.inj h
      have hd := toDigit_lt hc
      have hnext : (n * 16 + d + 1) * 16 ^ cs.length ≤ bound := by
        calc (n * 16 + d + 1) * 16 ^ cs.length
            ≤ ((n + 1) * 16) * 16 ^ cs.length := Nat.mul_le_mul_right _ (by omega)
          _ = (n + 1) * 16 ^ (c :: cs).length := by
            rw [List.length_cons, Nat.pow_succ', Nat.mul_assoc]
          _ ≤ bound := hroom
      have hfits : n * 16 + d < bound := by
        have hpow : 1 ≤ 16 ^ cs.length := Nat.one_le_pow _ _ (by decide)
        have hmul := Nat.mul_le_mul_left (n * 16 + d + 1) hpow
        omega
      simp only [Unsigned.accumulate, hc, if_pos hfits, ih hcs hnext, List.foldl_cons]

theorem uint8_ofNat_congr {m n : Nat} (h : m % 256 = n % 256) : UInt8.ofNat m = UInt8.ofNat n := by
  apply UInt8.toNat_inj.mp
  rw [UInt8.toNat_ofNat', UInt8.toNat_ofNat']
  exact h

/-- Eight digits are read as the address they spell. -/
theorem readGateway_of_littleEndian {gw : List Char} {g : Ipv4Addr}
    (h : littleEndian gw = some g) : readGateway gw = some g := by
  unfold littleEndian at h
  split at h
  · next c₀ c₁ c₂ c₃ c₄ c₅ c₆ c₇ =>
    simp only [Option.bind_eq_bind, Option.bind_eq_some_iff, Option.pure_def,
      Option.some.injEq, hexOctet_eq_some_iff] at h
    obtain ⟨_, ⟨v₆, v₇, h₆, h₇, rfl⟩, _, ⟨v₄, v₅, h₄, h₅, rfl⟩, _, ⟨v₂, v₃, h₂, h₃, rfl⟩, _,
      ⟨v₀, v₁, h₀, h₁, rfl⟩, rfl⟩ := h
    obtain ⟨m, hm⟩ : ∃ m, m = [v₀, v₁, v₂, v₃, v₄, v₅, v₆, v₇].foldl (fun n d => n * 16 + d) 0 :=
      ⟨_, rfl⟩
    have hread : Unsigned.accumulate (2 ^ 32) 16 0 [c₀, c₁, c₂, c₃, c₄, c₅, c₆, c₇] = .ok m := by
      rw [hm]
      apply accumulate_digits
      · simp [h₀, h₁, h₂, h₃, h₄, h₅, h₆, h₇]
      · simp
    have hlt₀ := toDigit_lt h₀
    have hlt₁ := toDigit_lt h₁
    have hlt₂ := toDigit_lt h₂
    have hlt₃ := toDigit_lt h₃
    have hlt₄ := toDigit_lt h₄
    have hlt₅ := toDigit_lt h₅
    have hlt₆ := toDigit_lt h₆
    have hlt₇ := toDigit_lt h₇
    simp only [List.foldl_cons, List.foldl_nil] at hm
    have hbytes : toLeBytes (UInt32.ofNat m) =
        [UInt8.ofNat m, UInt8.ofNat (m / 256), UInt8.ofNat (m / 256 / 256),
          UInt8.ofNat (m / 256 / 256 / 256)] := by
      rw [toLeBytes, UInt32.toNat_ofNat', Nat.mod_eq_of_lt (by omega)]
      rfl
    rw [readGateway, U32.fromStrRadix, fromStrRadix_of_toDigit h₀, hread]
    show some (Ipv4Addr.ofOctets (toLeBytes (UInt32.ofNat m))) = _
    rw [hbytes, uint8_ofNat_congr (show m % 256 = (16 * v₆ + v₇) % 256 by omega),
      uint8_ofNat_congr (show m / 256 % 256 = (16 * v₄ + v₅) % 256 by omega),
      uint8_ofNat_congr (show m / 256 / 256 % 256 = (16 * v₂ + v₃) % 256 by omega),
      uint8_ofNat_congr (show m / 256 / 256 / 256 % 256 = (16 * v₀ + v₁) % 256 by omega)]
  · cases h

theorem littleEndian_zero_iff {dest : List Char} :
    littleEndian dest = some 0#32 ↔ dest = zeroColumn := by
  constructor
  · intro h
    unfold littleEndian at h
    split at h
    · simp only [Option.bind_eq_bind, Option.bind_eq_some_iff, Option.pure_def,
        Option.some.injEq] at h
      obtain ⟨fst, h₁, snd, h₂, trd, h₃, fth, h₄, hzero⟩ := h
      have hoctets := congrArg Ipv4Addr.octets hzero
      rw [Ipv4Addr.octets_ofOctets rfl] at hoctets
      obtain ⟨rfl, rfl, rfl, rfl⟩ : fst = 0 ∧ snd = 0 ∧ trd = 0 ∧ fth = 0 := by
        simpa [Ipv4Addr.octets, BigEndian.ofNat] using hoctets
      obtain ⟨rfl, rfl⟩ := hexOctet_zero_iff.mp h₁
      obtain ⟨rfl, rfl⟩ := hexOctet_zero_iff.mp h₂
      obtain ⟨rfl, rfl⟩ := hexOctet_zero_iff.mp h₃
      obtain ⟨rfl, rfl⟩ := hexOctet_zero_iff.mp h₄
      rfl
    · cases h
  · rintro rfl
    decide +kernel

/-! Where the search ends -/

/-- No line behind this one is looked at. -/
def stops (line : List Char) : Bool :=
  match splitWhitespace line with
  | _ :: dest :: _ :: _ => dest = zeroColumn
  | _ => true

def gatewayColumn (line : List Char) : Option Ipv4Addr :=
  match splitWhitespace line with
  | _ :: _ :: gw :: _ => readGateway gw
  | _ => none

theorem scanRoutes_eq (body : List (List Char)) :
    scanRoutes body = (body.find? stops).bind gatewayColumn := by
  induction body with
  | nil => rfl
  | cons line rest ih =>
    rw [scanRoutes, List.find?_cons]
    split
    · next dest gw tail hcols =>
      have hstops : stops line = decide (dest = zeroColumn) := by
        simp only [stops, hcols]
      have hgateway : gatewayColumn line = readGateway gw := by
        simp only [gatewayColumn, hcols]
      by_cases hdest : dest = zeroColumn
      · rw [hstops, if_pos hdest, decide_eq_true hdest, ← hgateway]
        rfl
      · rw [hstops, if_neg hdest, decide_eq_false hdest, ih]
    · next hshort =>
      have hstops : stops line = true := by
        unfold stops
        split
        · next dest gw tail hcols => exact absurd hcols (hshort _ _ _ _)
        · rfl
      have hgateway : gatewayColumn line = none := by
        unfold gatewayColumn
        split
        · next dest gw tail hcols => exact absurd hcols (hshort _ _ _ _)
        · rfl
      rw [hstops]
      exact hgateway.symm

theorem default_line {line : List Char} {r : Row} (h : Row.ofLine line = some r)
    (hr : r.isDefault = true) : stops line = true ∧ gatewayColumn line = some r.gateway := by
  unfold Row.ofLine at h
  split at h
  · next dest gw _ _ _ _ mask _ hcols =>
    simp only [Option.bind_eq_bind, Option.bind_eq_some_iff, Option.pure_def,
      Option.some.injEq] at h
    obtain ⟨destination, hdest, gateway, hgw, mask', -, rfl⟩ := h
    simp only [Row.isDefault, Bool.and_eq_true, decide_eq_true_eq] at hr
    rw [hr.1] at hdest
    simp only [stops, gatewayColumn, hcols, littleEndian_zero_iff.mp hdest, decide_true,
      readGateway_of_littleEndian hgw, and_self]
  · cases h

/-- A default route that ends the search is the first of the table. -/
theorem find?_rows {body : List (List Char)} {line : List Char} {r : Row}
    (hstop : body.find? stops = some line) (h : Row.ofLine line = some r)
    (hr : r.isDefault = true) : (body.filterMap Row.ofLine).find? Row.isDefault = some r := by
  induction body with
  | nil => cases hstop
  | cons first rest ih =>
    rw [List.find?_cons] at hstop
    split at hstop
    · obtain rfl := Option.some.inj hstop
      rw [List.filterMap_cons_some h, List.find?_cons_of_pos hr]
    · next hpass =>
      cases hfirst : Row.ofLine first with
      | none => rw [List.filterMap_cons_none hfirst, ih hstop]
      | some r' =>
        have hother : ¬ r'.isDefault = true := by
          intro hr'
          rw [(default_line hfirst hr').1] at hpass
          cases hpass
        rw [List.filterMap_cons_some hfirst, List.find?_cons_of_neg hother, ih hstop]

/-- The line has no third column, or none that is a hexadecimal number of 32 bits. -/
def Illegible (line : List Char) : Prop :=
  ∀ gw, (splitWhitespace line)[2]? = some gw → ∀ raw, U32.fromStrRadix gw 16 ≠ .ok raw

theorem gatewayColumn_eq_none_iff {line : List Char} :
    gatewayColumn line = none ↔ Illegible line := by
  unfold gatewayColumn Illegible
  split
  · next gw rest hcols =>
    rw [hcols]
    simp only [List.getElem?_cons_succ, List.getElem?_cons_zero, Option.some.injEq,
      forall_eq', readGateway]
    cases U32.fromStrRadix gw 16 with
    | ok raw => simp
    | error err => simp
  · next hshort =>
    refine iff_of_true rfl ?_
    intro gw hgw
    match hcols : splitWhitespace line, hgw with
    | _ :: _ :: gw :: rest, _ => exact absurd hcols (hshort _ _ _ _)

/-- No line ends the search before the table does; or the line that ends it is a default
route; or that line has no legible gateway and the table has no default route. -/
def EndsWell (table : String) : Prop :=
  (∀ line ∈ (lines table.toList).drop 1, stops line = false) ∨
    ∃ line, ((lines table.toList).drop 1).find? stops = some line ∧
      ((∃ r, Row.ofLine line = some r ∧ r.isDefault = true) ∨
        (Illegible line ∧ ∀ r ∈ rows table, r.isDefault = false))

/-- What is returned is the gateway of a default route, and of the first one if there is
any. -/
def FindsDefault (table : String) : Prop :=
  (∀ g, parseDefaultGateway table = some g →
      ∃ r ∈ rows table, r.isDefault = true ∧ r.gateway = g) ∧
    ∀ r, (rows table).find? Row.isDefault = some r → parseDefaultGateway table = some r.gateway

theorem mem_of_find?_rows {table : String} {r : Row}
    (h : (rows table).find? Row.isDefault = some r) : r ∈ rows table ∧ r.isDefault = true :=
  ⟨List.mem_of_find?_eq_some h, List.find?_some h⟩

section Search

variable {table : String} {line : List Char} {r : Row}

/-- What the search returns is all there is to say once the first default route is known. -/
theorem findsDefault_of_some (h : (rows table).find? Row.isDefault = some r)
    (hfound : parseDefaultGateway table = some r.gateway) : FindsDefault table := by
  obtain ⟨hmem, hr⟩ := mem_of_find?_rows h
  constructor
  · intro g hg
    exact ⟨r, hmem, hr, Option.some.inj (hfound.symm.trans hg)⟩
  · intro r' hr'
    obtain rfl := Option.some.inj (h.symm.trans hr')
    exact hfound

theorem findsDefault_of_none (h : ∀ r ∈ rows table, r.isDefault = false)
    (hfound : parseDefaultGateway table = none) : FindsDefault table := by
  constructor
  · intro g hg
    rw [hfound] at hg
    cases hg
  · intro r hfirst
    obtain ⟨hmem, hr⟩ := mem_of_find?_rows hfirst
    exact absurd (h r hmem) (by rw [hr]; decide)

theorem parseDefaultGateway_of_stop (h : ((lines table.toList).drop 1).find? stops = some line) :
    parseDefaultGateway table = gatewayColumn line := by
  rw [parseDefaultGateway, scanRoutes_eq, h, Option.bind_some]

theorem EndsWell.findsDefault (h : EndsWell table) : FindsDefault table := by
  rcases h with hpass | ⟨line, hstop, ⟨r, hrow, hr⟩ | ⟨hillegible, hnone⟩⟩
  · have hnone : ((lines table.toList).drop 1).find? stops = none := by
      rw [List.find?_eq_none]
      intro line hline
      rw [hpass line hline]
      exact Bool.false_ne_true
    apply findsDefault_of_none
    · intro r hr
      -- the line of a default route would have ended the search
      obtain ⟨line, hline, hrow⟩ := List.mem_filterMap.mp hr
      by_contra hdefault
      have hstops := (default_line hrow (eq_true_of_ne_false hdefault)).1
      rw [hpass line hline] at hstops
      cases hstops
    · rw [parseDefaultGateway, scanRoutes_eq, hnone, Option.bind_none]
  · apply findsDefault_of_some (find?_rows hstop hrow hr)
    rw [parseDefaultGateway_of_stop hstop]
    exact (default_line hrow hr).2
  · apply findsDefault_of_none hnone
    rw [parseDefaultGateway_of_stop hstop]
    exact gatewayColumn_eq_none_iff.mpr hillegible

/-- A search that does not end well and still returns the right gateway ends at a line that
is no default route and has the default route's gateway in its column. -/
theorem FindsDefault.coincidence (h : FindsDefault table) (hends : ¬ EndsWell table) :
    ∃ line r, ((lines table.toList).drop 1).find? stops = some line ∧
      (∀ r', Row.ofLine line = some r' → r'.isDefault = false) ∧
      (rows table).find? Row.isDefault = some r ∧ gatewayColumn line = some r.gateway := by
  cases hstop : ((lines table.toList).drop 1).find? stops with
  | none =>
    refine absurd (Or.inl ?_) hends
    intro line hline
    exact Bool.eq_false_iff.mpr (List.find?_eq_none.mp hstop line hline)
  | some line =>
    have hfound := parseDefaultGateway_of_stop hstop
    have hother : ∀ r', Row.ofLine line = some r' → r'.isDefault = false := by
      intro r' hrow
      by_contra hr
      exact hends (Or.inr ⟨line, hstop, Or.inl ⟨r', hrow, eq_true_of_ne_false hr⟩⟩)
    cases hdefault : (rows table).find? Row.isDefault with
    | some r => exact ⟨line, r, rfl, hother, rfl, hfound.symm.trans (h.2 r hdefault)⟩
    | none =>
      have hnone : ∀ r ∈ rows table, r.isDefault = false := fun r hr =>
        Bool.eq_false_iff.mpr (List.find?_eq_none.mp hdefault r hr)
      refine absurd (Or.inr ⟨line, hstop, Or.inr ⟨gatewayColumn_eq_none_iff.mp ?_, hnone⟩⟩) hends
      cases hgateway : gatewayColumn line with
      | none => rfl
      | some g =>
        obtain ⟨r, hmem, hr, -⟩ := h.1 g (hfound.trans hgateway)
        exact absurd (hnone r hmem) (by rw [hr]; decide)

end Search

/-- If the search ends well, what is returned is the gateway of the first default route; if
not, only by coincidence. -/
theorem parseDefaultGateway_default (table : String) :
    (EndsWell table → FindsDefault table) ∧
    (¬ EndsWell table → FindsDefault table →
      ∃ line r, ((lines table.toList).drop 1).find? stops = some line ∧
        (∀ r', Row.ofLine line = some r' → r'.isDefault = false) ∧
        (rows table).find? Row.isDefault = some r ∧ gatewayColumn line = some r.gateway) :=
  ⟨EndsWell.findsDefault, fun hends h => h.coincidence hends⟩

/-- The default route behind a route of its own network. -/
def plainTable : String :=
  "Iface\tDestination\tGateway\tFlags\n" ++
  "eth0\t0002A8C0\t00000000\t0001\t0\t0\t100\t00FFFFFF\n" ++
  "eth0\t00000000\t0102A8C0\t0003\t0\t0\t100\t00000000\n"

theorem parseDefaultGateway_plainTable :
    EndsWell plainTable ∧ parseDefaultGateway plainTable = some 0xc0a80201#32 := by
  have hfirst : (rows plainTable).find? Row.isDefault =
      some ⟨0x00000000#32, 0xc0a80201#32, 0x00000000#32⟩ := by decide +kernel
  have hends : EndsWell plainTable := by
    refine Or.inr ⟨"eth0\t00000000\t0102A8C0\t0003\t0\t0\t100\t00000000".toList, ?_,
      Or.inl ⟨⟨0x00000000#32, 0xc0a80201#32, 0x00000000#32⟩, ?_, ?_⟩⟩
    · decide +kernel
    · decide +kernel
    · decide +kernel
  exact ⟨hends, ((parseDefaultGateway_default plainTable).1 hends).2 _ hfirst⟩

/-- The routing table while the tunnel has the two halves of the default route. -/
def tunnelledTable : String :=
  "Iface\tDestination\tGateway \tFlags\tRefCnt\tUse\tMetric\tMask\t\tMTU\tWindow\tIRTT\n" ++
  "strawc0\t00000000\t00000000\t0001\t0\t0\t0\t00000080\t0\t0\t0\n" ++
  "eth0\t00000000\t0102A8C0\t0003\t0\t0\t100\t00000000\t0\t0\t0\n"

/-- A blank line between the header and the default route. -/
def interruptedTable : String :=
  "Iface\tDestination\tGateway\tFlags\n\neth0\t00000000\t0102A8C0\t0003\t0\t0\t0\t00000000\n"

/-- The first half of the split default route comes first in the table, and port mappings
are then asked of 0.0.0.0 and not of the gateway; a blank line hides the gateway. -/
theorem half_taken_for_default :
    rows tunnelledTable = [⟨0x00000000#32, 0x00000000#32, 0x80000000#32⟩,
      ⟨0x00000000#32, 0xc0a80201#32, 0x00000000#32⟩] ∧
    parseDefaultGateway tunnelledTable = some 0x00000000#32 ∧
    mapUdpServer (some tunnelledTable) = .ok (.v4 0x00000000#32 5351) ∧
    rows interruptedTable = [⟨0x00000000#32, 0xc0a80201#32, 0x00000000#32⟩] ∧
    parseDefaultGateway interruptedTable = none := by
  decide +kernel

end Straw.Portmap
