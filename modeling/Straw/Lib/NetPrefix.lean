import Straw.Lib.Word

/-!
# Address prefixes

A prefix of `w`-bit addresses is its first address and the number of leading bits
it fixes; the first address is aligned to the block the prefix covers. The block
`[network, broadcast]` therefore never wraps around.
-/

set_option autoImplicit false

structure NetPrefix (w : Nat) where
  network : BitVec w
  len : Nat
  len_le : len ≤ w
  aligned : 2 ^ (w - len) ∣ network.toNat
deriving DecidableEq

namespace NetPrefix

variable {w : Nat}

def size (n : NetPrefix w) : Nat := 2 ^ (w - n.len)

def broadcast (n : NetPrefix w) : BitVec w := BitVec.ofNat w (n.network.toNat + (n.size - 1))

def contains (n : NetPrefix w) (a : BitVec w) : Bool := n.network ≤ a && a ≤ n.broadcast

/-- The block of length `len` around an address: the host bits are cleared. -/
def ofAddr (a : BitVec w) (len : Nat) (h : len ≤ w) : NetPrefix w where
  network := BitVec.ofNat w (a.toNat / 2 ^ (w - len) * 2 ^ (w - len))
  len := len
  len_le := h
  aligned := by
    have hle : a.toNat / 2 ^ (w - len) * 2 ^ (w - len) < 2 ^ w :=
      Nat.lt_of_le_of_lt (Nat.div_mul_le_self _ _) a.isLt
    rw [BitVec.toNat_ofNat, Nat.mod_eq_of_lt hle]
    exact Nat.dvd_mul_left _ _

theorem size_pos (n : NetPrefix w) : 0 < n.size := Nat.two_pow_pos _

theorem network_add_size_le (n : NetPrefix w) : n.network.toNat + n.size ≤ 2 ^ w := by
  obtain ⟨k, hk⟩ := n.aligned
  have hlt := n.network.isLt
  have hw : 2 ^ w = n.size * 2 ^ n.len := by
    rw [size, ← Nat.pow_add, Nat.sub_add_cancel n.len_le]
  rw [hw, hk] at hlt
  have hk' : k < 2 ^ n.len := Nat.lt_of_mul_lt_mul_left hlt
  calc n.network.toNat + n.size = n.size * (k + 1) := by rw [hk, size, Nat.mul_add, Nat.mul_one]
    _ ≤ n.size * 2 ^ n.len := Nat.mul_le_mul_left _ hk'
    _ = 2 ^ w := hw.symm

theorem toNat_broadcast (n : NetPrefix w) :
    n.broadcast.toNat = n.network.toNat + (n.size - 1) := by
  have hpos := n.size_pos
  have hle := n.network_add_size_le
  rw [broadcast, BitVec.toNat_ofNat, Nat.mod_eq_of_lt (by omega)]

theorem contains_iff (n : NetPrefix w) (a : BitVec w) :
    n.contains a = true ↔
      n.network.toNat ≤ a.toNat ∧ a.toNat < n.network.toNat + n.size := by
  have hpos := n.size_pos
  simp only [contains, Bool.and_eq_true, decide_eq_true_eq, BitVec.le_def, toNat_broadcast]
  omega

theorem toNat_offset {net : NetPrefix w} {o : Nat} (ho : o < net.size) :
    (net.network + BitVec.ofNat w o).toNat = net.network.toNat + o := by
  have hle := net.network_add_size_le
  rw [BitVec.toNat_add, BitVec.toNat_ofNat, Nat.mod_eq_of_lt (a := o) (by omega),
    Nat.mod_eq_of_lt (by omega)]

theorem contains_offset {net : NetPrefix w} {o : Nat} (ho : o < net.size) :
    net.contains (net.network + BitVec.ofNat w o) = true := by
  rw [contains_iff, toNat_offset ho]
  omega

theorem exists_offset {net : NetPrefix w} {a : BitVec w} (h : net.contains a = true) :
    ∃ o, o < net.size ∧ a = net.network + BitVec.ofNat w o := by
  rw [contains_iff] at h
  refine ⟨a.toNat - net.network.toNat, by omega, ?_⟩
  apply BitVec.eq_of_toNat_eq
  rw [toNat_offset (by omega)]
  omega

theorem contains_network_of_common {a b : NetPrefix w} {x : BitVec w}
    (ha : a.contains x = true) (hb : b.contains x = true) :
    a.contains b.network = true ∨ b.contains a.network = true := by
  rw [contains_iff] at ha hb
  rw [contains_iff, contains_iff]
  omega

theorem ofAddr_full_contains_iff (a b : BitVec w) :
    (ofAddr a w (Nat.le_refl w)).contains b = true ↔ b = a := by
  have ha : (ofAddr a w (Nat.le_refl w)).network = a := by simp [ofAddr]
  rw [contains_iff, ha, BitVec.toNat_eq]
  simp only [size, ofAddr, Nat.sub_self, Nat.pow_zero]
  omega

theorem ext_toNat {a b : NetPrefix w} (hnetwork : a.network.toNat = b.network.toNat)
    (hlen : a.len = b.len) : a = b := by
  cases a
  cases b
  obtain rfl := BitVec.eq_of_toNat_eq hnetwork
  obtain rfl := hlen
  rfl

theorem contains_of_len_eq_zero {n : NetPrefix w} (h : n.len = 0) (a : BitVec w) :
    n.contains a = true := by
  have hle := n.network_add_size_le
  have hsize : n.size = 2 ^ w := by rw [size, h, Nat.sub_zero]
  have ha := a.isLt
  rw [contains_iff]
  omega

theorem network_ofAddr_of_dvd {a : BitVec w} {len : Nat} (h : len ≤ w)
    (hdvd : 2 ^ (w - len) ∣ a.toNat) : (ofAddr a len h).network = a := by
  apply BitVec.eq_of_toNat_eq
  show (BitVec.ofNat w (a.toNat / 2 ^ (w - len) * 2 ^ (w - len))).toNat = a.toNat
  rw [Nat.div_mul_cancel hdvd, BitVec.toNat_ofNat, Nat.mod_eq_of_lt a.isLt]

/-- The two prefixes of length one share out all addresses. -/
theorem halves_contain (h : 1 ≤ w) (hi : BitVec w) (hhi : hi.toNat = 2 ^ (w - 1)) (a : BitVec w) :
    (ofAddr 0#w 1 h).contains a = true ∨ (ofAddr hi 1 h).contains a = true := by
  have ha := a.isLt
  have hw : 2 ^ w = 2 ^ (w - 1) + 2 ^ (w - 1) := by
    rw [← Nat.two_mul, ← Nat.pow_succ', Nat.succ_eq_add_one, Nat.sub_add_cancel h]
  have hlow : (ofAddr 0#w 1 h).network.toNat = 0 := by
    rw [network_ofAddr_of_dvd h (by simp)]
    simp
  have hhigh : (ofAddr hi 1 h).network.toNat = 2 ^ (w - 1) := by
    rw [network_ofAddr_of_dvd h (hhi ▸ Nat.dvd_refl _), hhi]
  rw [contains_iff, contains_iff, hlow, hhigh]
  simp only [size, ofAddr]
  omega

end NetPrefix
