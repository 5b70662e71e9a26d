import Straw.Lib.Outcome
import Straw.Lib.Word

/-!
# Writing into a buffer

`splice xs i ys` is `xs` with the positions from `i` on replaced by `ys`, and
`field xs i n` the `n` entries from `i` on. A write in range changes nothing outside
the written positions, and a read of them gives what was written. `chunks k xs` cuts
a list into fields of length `k`, the last of which may be shorter. At the end, numbers
stored in a byte buffer, most significant byte first.
-/

set_option autoImplicit false

universe u

variable {α : Type u}

def splice (xs : List α) (i : Nat) (ys : List α) : List α :=
  xs.take i ++ (ys ++ xs.drop (i + ys.length))

def field (xs : List α) (i n : Nat) : List α := (xs.drop i).take n

section Splice

variable {xs ys zs : List α} {i j k n : Nat}

theorem getElem?_splice (h : i + ys.length ≤ xs.length) (j : Nat) :
    (splice xs i ys)[j]? =
      if i ≤ j ∧ j < i + ys.length then ys[j - i]? else xs[j]? := by
  have hlen : (xs.take i).length = i := by
    rw [List.length_take]
    omega
  unfold splice
  rcases Nat.lt_or_ge j i with hj | hj
  · rw [List.getElem?_append_left (by omega), List.getElem?_take_of_lt hj, if_neg (by omega)]
  · rw [List.getElem?_append_right (by omega), hlen]
    rcases Nat.lt_or_ge j (i + ys.length) with hin | hout
    · rw [List.getElem?_append_left (by omega), if_pos ⟨hj, hin⟩]
    · rw [List.getElem?_append_right (by omega), List.getElem?_drop, if_neg (by omega)]
      congr 1
      omega

theorem length_splice (h : i + ys.length ≤ xs.length) : (splice xs i ys).length = xs.length := by
  simp only [splice, List.length_append, List.length_take, List.length_drop]
  omega

theorem getElem?_splice_of_disjoint (h : i + ys.length ≤ xs.length)
    (hj : j < i ∨ i + ys.length ≤ j) : (splice xs i ys)[j]? = xs[j]? := by
  rw [getElem?_splice h, if_neg (by omega)]

theorem getElem?_field (xs : List α) (i n j : Nat) :
    (field xs i n)[j]? = if j < n then xs[i + j]? else none := by
  rw [field, List.getElem?_take, List.getElem?_drop]

theorem length_field (h : i + n ≤ xs.length) : (field xs i n).length = n := by
  rw [field, List.length_take, List.length_drop]
  omega

theorem length_field_le (xs : List α) (i n : Nat) : (field xs i n).length ≤ xs.length := by
  rw [field, List.length_take, List.length_drop]
  omega

theorem field_zero (xs : List α) (n : Nat) : field xs 0 n = xs.take n := rfl

theorem field_middle (hi : xs.length = i) (hn : ys.length = n) (zs : List α) :
    field (xs ++ (ys ++ zs)) i n = ys := by
  rw [field, List.drop_left' hi, List.take_left' hn]

theorem field_end (hi : xs.length = i) (hn : ys.length = n) : field (xs ++ ys) i n = ys := by
  have hmiddle := field_middle hi hn []
  rwa [List.append_nil] at hmiddle

theorem field_congr (h : ∀ j, i ≤ j → j < i + n → xs[j]? = ys[j]?) :
    field xs i n = field ys i n := by
  apply List.ext_getElem?
  intro j
  rw [getElem?_field, getElem?_field]
  split
  · exact h (i + j) (by omega) (by omega)
  · rfl

theorem getD_congr (h : xs[i]? = ys[i]?) (d : α) : xs.getD i d = ys.getD i d := by
  rw [List.getD_eq_getElem?_getD, List.getD_eq_getElem?_getD, h]

theorem field_take (h : i + n ≤ k) : field (xs.take k) i n = field xs i n := by
  apply field_congr
  intro j hij hj
  exact List.getElem?_take_of_lt (by omega)

theorem getD_take (h : i < k) (d : α) : (xs.take k).getD i d = xs.getD i d :=
  getD_congr (List.getElem?_take_of_lt h) d

theorem field_splice_self (h : i + n ≤ xs.length) (hn : ys.length = n) :
    field (splice xs i ys) i n = ys := by
  subst hn
  apply List.ext_getElem?
  intro j
  rw [getElem?_field, getElem?_splice h]
  split
  · rw [if_pos (by omega), Nat.add_sub_cancel_left]
  · exact (List.getElem?_eq_none (by omega)).symm

theorem field_splice_of_disjoint (h : i + ys.length ≤ xs.length)
    (hj : j + n ≤ i ∨ i + ys.length ≤ j) : field (splice xs i ys) j n = field xs j n := by
  apply field_congr
  intro k hjk hk
  exact getElem?_splice_of_disjoint h (by omega)

theorem take_splice (h : i + ys.length ≤ xs.length) (hk : i + ys.length ≤ k) :
    (splice xs i ys).take k = splice (xs.take k) i ys := by
  have htake : i + ys.length ≤ (xs.take k).length := by
    rw [List.length_take]
    omega
  apply List.ext_getElem?
  intro j
  rw [getElem?_splice htake, List.getElem?_take, List.getElem?_take, getElem?_splice h]
  by_cases hj : i ≤ j ∧ j < i + ys.length
  · rw [if_pos hj, if_pos hj, if_pos (by omega)]
  · rw [if_neg hj, if_neg hj]

theorem take_splice_of_le (h : i + ys.length ≤ xs.length) (hk : k ≤ i) :
    (splice xs i ys).take k = xs.take k := by
  apply List.ext_getElem?
  intro j
  rw [List.getElem?_take, List.getElem?_take]
  split
  · exact getElem?_splice_of_disjoint h (by omega)
  · rfl

theorem drop_splice (h : i + ys.length ≤ xs.length) (hk : k ≤ i) :
    (splice xs i ys).drop k = splice (xs.drop k) (i - k) ys := by
  have hdrop : i - k + ys.length ≤ (xs.drop k).length := by
    rw [List.length_drop]
    omega
  apply List.ext_getElem?
  intro j
  rw [List.getElem?_drop, getElem?_splice h, getElem?_splice hdrop, List.getElem?_drop]
  by_cases hj : i ≤ k + j ∧ k + j < i + ys.length
  · rw [if_pos hj, if_pos (by omega)]
    congr 1
    omega
  · rw [if_neg hj, if_neg (by omega)]

/-- The second of two writes to the same place is the one that stays. -/
theorem splice_splice (h : i + ys.length ≤ xs.length) (hlen : zs.length = ys.length) :
    splice (splice xs i ys) i zs = splice xs i zs := by
  have hover : i + zs.length ≤ (splice xs i ys).length := by
    rw [length_splice h]
    omega
  apply List.ext_getElem?
  intro j
  rw [getElem?_splice hover, getElem?_splice h, getElem?_splice (by omega)]
  split
  · rfl
  · rw [if_neg (by omega)]

/-- Two writes side by side are one. -/
theorem splice_adjacent (h : i + ys.length + zs.length ≤ xs.length) :
    splice (splice xs i ys) (i + ys.length) zs = splice xs i (ys ++ zs) := by
  have hfst : i + ys.length ≤ xs.length := by omega
  have hsnd : i + ys.length + zs.length ≤ (splice xs i ys).length := by
    rw [length_splice hfst]
    exact h
  have hboth : i + (ys ++ zs).length ≤ xs.length := by
    rw [List.length_append]
    omega
  apply List.ext_getElem?
  intro j
  rw [getElem?_splice hsnd, getElem?_splice hfst, getElem?_splice hboth, List.length_append]
  rcases Nat.lt_or_ge j i with hlow | hlow
  · rw [if_neg (by omega), if_neg (by omega), if_neg (by omega)]
  · rcases Nat.lt_or_ge j (i + ys.length) with hmid | hmid
    · rw [if_neg (by omega), if_pos ⟨hlow, hmid⟩, if_pos (by omega),
        List.getElem?_append_left (by omega)]
    · rcases Nat.lt_or_ge j (i + ys.length + zs.length) with hhigh | hhigh
      · rw [if_pos ⟨hmid, hhigh⟩, if_pos (by omega), List.getElem?_append_right (by omega)]
        congr 1
        omega
      · rw [if_neg (by omega), if_neg (by omega), if_neg (by omega)]

theorem splice_of_field (h : i + n ≤ xs.length) (hys : field xs i n = ys) :
    splice xs i ys = xs := by
  have hlen : ys.length = n := by
    rw [← hys, length_field h]
  apply List.ext_getElem?
  intro j
  rw [getElem?_splice (by omega)]
  split
  · rename_i hj
    rw [← hys, getElem?_field, if_pos (by omega)]
    congr 1
    omega
  · rfl

theorem splice_append (pre : List α) :
    splice (pre ++ xs) (pre.length + i) ys = pre ++ splice xs i ys := by
  rw [splice, splice, List.take_length_add_append, Nat.add_assoc, List.drop_length_add_append,
    List.append_assoc]

theorem set_eq_splice (h : i < xs.length) (x : α) : xs.set i x = splice xs i [x] := by
  apply List.ext_getElem?
  intro j
  rw [getElem?_splice (by rw [List.length_singleton]; omega), List.length_singleton,
    List.getElem?_set]
  by_cases hj : i = j
  · rw [if_pos hj, if_pos h, if_pos (by omega), ← hj, Nat.sub_self]
    rfl
  · rw [if_neg hj, if_neg (by omega)]

end Splice

def chunks (k : Nat) (xs : List α) : List (List α) :=
  (List.range ((xs.length + k - 1) / k)).map fun i => field xs (i * k) k

section Chunks

variable {k : Nat}

/-- Every field but the last is full. -/
theorem length_field_of_lt {i : Nat} {xs : List α} (h : i + 1 < (xs.length + k - 1) / k) :
    (field xs (i * k) k).length = k := by
  apply length_field
  have hk : 0 < k := by
    rcases Nat.eq_zero_or_pos k with rfl | hpos
    · rw [Nat.div_zero] at h
      omega
    · exact hpos
  have hmul := (Nat.le_div_iff_mul_le hk).mp (Nat.succ_le_of_lt h)
  rw [Nat.succ_mul, Nat.succ_mul] at hmul
  omega

theorem zipIdx_chunks (k : Nat) (xs : List α) : (chunks k xs).zipIdx =
    (List.range ((xs.length + k - 1) / k)).map fun i => (field xs (i * k) k, i) := by
  apply List.ext_getElem
  · simp [chunks]
  · intro i hi hi'
    simp [chunks]

theorem flatten_fields (k n : Nat) (xs : List α) :
    ((List.range n).map fun i => field xs (i * k) k).flatten = xs.take (n * k) := by
  induction n with
  | zero => simp
  | succ n ih =>
    rw [List.range_succ, List.map_append, List.flatten_append, ih, Nat.succ_mul, List.take_add]
    simp [field]

theorem flatten_chunks (hk : 0 < k) (xs : List α) : (chunks k xs).flatten = xs := by
  rw [chunks, flatten_fields]
  apply List.take_of_length_le
  have hdiv := Nat.div_add_mod (xs.length + k - 1) k
  have hmod := Nat.mod_lt (xs.length + k - 1) hk
  rw [Nat.mul_comm] at hdiv
  omega

end Chunks

namespace Outcome

variable {ε : Type u} {xs ys : List α} {i j : Nat}

/-- `xs[i..j].copy_from_slice(ys)`. -/
def overwrite (xs : List α) (i j : Nat) (ys : List α) : Outcome ε (List α) :=
  if i ≤ j ∧ j ≤ xs.length ∧ ys.length = j - i then .ok (splice xs i ys) else .error .panic

theorem overwrite_of_le (h : i + ys.length ≤ xs.length) (hj : j = i + ys.length) :
    (overwrite xs i j ys : Outcome ε (List α)) = .ok (splice xs i ys) :=
  if_pos (by omega)

theorem update_of_lt (h : i < xs.length) (x : α) :
    (update xs i x : Outcome ε (List α)) = .ok (splice xs i [x]) := by
  rw [update, if_pos h, set_eq_splice h]

/-- Two bytes set one after the other. -/
theorem update_update (h : i + 2 ≤ xs.length) (hj : j = i + 1) (x y : α) :
    (update xs i x >>= fun zs => update zs j y : Outcome ε (List α)) =
      .ok (splice xs i [x, y]) := by
  have hone : i + [x].length + [y].length ≤ xs.length := h
  have hlen : (splice xs i [x]).length = xs.length := length_splice (by omega)
  have hboth : splice (splice xs i [x]) (i + 1) [y] = splice xs i [x, y] := splice_adjacent hone
  rw [hj, update_of_lt (by omega), ok_bind, update_of_lt (by omega), hboth]

theorem update_update_bind {β : Type u} (h : i + 2 ≤ xs.length) (hj : j = i + 1) (x y : α)
    (f : List α → Outcome ε β) :
    (update xs i x >>= fun zs => update zs j y >>= f) = f (splice xs i [x, y]) := by
  rw [← bind_assoc, update_update h hj, ok_bind]

section Segments

variable {segs : List (List α)} {k : Nat}

theorem flatten_split {seg : List α} (hk : segs[k]? = some seg) :
    segs = segs.take k ++ seg :: segs.drop (k + 1) := by
  obtain ⟨hlt, rfl⟩ := List.getElem?_eq_some_iff.mp hk
  rw [← List.drop_eq_getElem_cons hlt, List.take_append_drop]

/-- A buffer laid out in segments, with a write that replaces one of them. -/
theorem overwrite_flatten (k : Nat) (seg : List α) (hk : segs[k]? = some seg) (hlen : ys.length = seg.length)
    (hi : (segs.take k).flatten.length = i) (hj : i + ys.length = j) :
    (overwrite segs.flatten i j ys : Outcome ε (List α)) = .ok (segs.set k ys).flatten := by
  have hset : segs.set k ys = segs.take k ++ ys :: segs.drop (k + 1) := by
    obtain ⟨hlt, -⟩ := List.getElem?_eq_some_iff.mp hk
    rw [List.set_eq_take_append_cons_drop, if_pos hlt]
  have hflat : segs.flatten = (segs.take k).flatten ++ (seg ++ (segs.drop (k + 1)).flatten) := by
    rw [← List.flatten_cons, ← List.flatten_append, ← flatten_split hk]
  have htotal : segs.flatten.length = i + (seg.length + (segs.drop (k + 1)).flatten.length) := by
    rw [hflat, List.length_append, List.length_append, hi]
  rw [overwrite_of_le (by omega) hj.symm, hset, List.flatten_append, List.flatten_cons, splice,
    hflat, List.take_left' hi, hlen, ← List.drop_drop, List.drop_left' hi, List.drop_left]

theorem field_flatten (k : Nat) (seg : List α) (hk : segs[k]? = some seg)
    (hi : (segs.take k).flatten.length = i) (hj : seg.length = j) : field segs.flatten i j = seg := by
  have hflat : segs.flatten = (segs.take k).flatten ++ (seg ++ (segs.drop (k + 1)).flatten) := by
    rw [← List.flatten_cons, ← List.flatten_append, ← flatten_split hk]
  rw [hflat, field_middle hi hj]

theorem update_flatten (k : Nat) (x : α) (hk : segs[k]? = some [x])
    (hi : (segs.take k).flatten.length = i) (y : α) :
    (update segs.flatten i y : Outcome ε (List α)) = .ok (segs.set k [y]).flatten := by
  have hwrite := overwrite_flatten (ε := ε) k [x] hk (show [y].length = [x].length from rfl) hi rfl
  rw [overwrite] at hwrite
  split at hwrite
  · rename_i hin
    rw [List.length_singleton] at hin
    rw [update_of_lt (by omega)]
    exact hwrite
  · cases hwrite

section Behind

variable {before : List (List α)} {b : Nat}

theorem length_flatten_take (hb : before.flatten.length = b)
    (hi : (segs.take k).flatten.length = i) :
    ((before ++ segs).take (before.length + k)).flatten.length = b + i := by
  rw [List.take_length_add_append, List.flatten_append, List.length_append, hb, hi]

theorem set_append_add (ys : List α) :
    (before ++ segs).set (before.length + k) ys = before ++ segs.set k ys := by
  rw [List.set_append_right _ _ (Nat.le_add_right _ _), Nat.add_sub_cancel_left]

theorem getElem?_append_add : (before ++ segs)[before.length + k]? = segs[k]? := by
  rw [List.getElem?_append_right (Nat.le_add_right _ _), Nat.add_sub_cancel_left]

/-- The same behind `b` bytes that stay as they are. -/
theorem overwrite_flatten_append (hb : before.flatten.length = b) (k : Nat) (seg : List α)
    (hk : segs[k]? = some seg) (hlen : ys.length = seg.length)
    (hi : (segs.take k).flatten.length = i) (hj : b + i + ys.length = j) :
    (overwrite (before ++ segs).flatten (b + i) j ys : Outcome ε (List α)) =
      .ok (before ++ segs.set k ys).flatten := by
  rw [overwrite_flatten (before.length + k) seg (getElem?_append_add.trans hk) hlen
    (length_flatten_take hb hi) hj, set_append_add]

theorem update_flatten_append (hb : before.flatten.length = b) (k : Nat) (x : α)
    (hk : segs[k]? = some [x]) (hi : (segs.take k).flatten.length = i) (y : α) :
    (update (before ++ segs).flatten (b + i) y : Outcome ε (List α)) =
      .ok (before ++ segs.set k [y]).flatten := by
  rw [update_flatten (before.length + k) x (getElem?_append_add.trans hk)
    (length_flatten_take hb hi), set_append_add]

theorem slice_flatten_before (hb : before.flatten.length = b) :
    (slice (before ++ segs).flatten 0 b : Outcome ε (List α)) = .ok before.flatten := by
  rw [List.flatten_append, slice, if_pos (by rw [List.length_append]; omega), List.drop_zero,
    Nat.sub_zero, List.take_left' hb]

theorem slice_flatten_behind (hb : before.flatten.length = b) :
    (slice (before ++ segs).flatten b (before ++ segs).flatten.length : Outcome ε (List α)) =
      .ok segs.flatten := by
  have htotal : (before ++ segs).flatten.length = b + segs.flatten.length := by
    rw [List.flatten_append, List.length_append, hb]
  rw [slice, if_pos (by omega), htotal, List.flatten_append, List.drop_left' hb,
    Nat.add_sub_cancel_left, List.take_length]

end Behind

end Segments

theorem slice_of_le (n : Nat) (hn : i + n = j) (hj : j ≤ xs.length) :
    (slice xs i j : Outcome ε (List α)) = .ok (field xs i n) := by
  obtain rfl : n = j - i := by omega
  exact if_pos ⟨by omega, hj⟩

theorem index_of_lt (h : i < xs.length) (d : α) :
    (index xs i : Outcome ε α) = .ok (xs.getD i d) := by
  rw [index, List.getD_eq_getElem?_getD, List.getElem?_eq_getElem h]
  rfl

end Outcome

section Numbers

open Outcome

variable {ε : Type}

def u16At (buf : List UInt8) (i : Nat) : Nat := BigEndian.toNat (field buf i 2)

def u32At (buf : List UInt8) (i : Nat) : Nat := BigEndian.toNat (field buf i 4)

def readU16 (buf : List UInt8) (i : Nat) : Outcome ε Nat := do
  let bytes ← slice buf i (i + 2)
  .ok (BigEndian.toNat bytes)

def readU32 (buf : List UInt8) (i : Nat) : Outcome ε Nat := do
  let bytes ← slice buf i (i + 4)
  .ok (BigEndian.toNat bytes)

theorem readU16_eq {buf : List UInt8} {i : Nat} (h : i + 2 ≤ buf.length) :
    (readU16 buf i : Outcome ε Nat) = .ok (u16At buf i) := by
  rw [readU16, slice_of_le 2 rfl h, ok_bind, u16At]

theorem readU32_eq {buf : List UInt8} {i : Nat} (h : i + 4 ≤ buf.length) :
    (readU32 buf i : Outcome ε Nat) = .ok (u32At buf i) := by
  rw [readU32, slice_of_le 4 rfl h, ok_bind, u32At]

theorem u16At_take {buf : List UInt8} {i stop : Nat} (h : i + 2 ≤ stop) :
    u16At (buf.take stop) i = u16At buf i := by
  rw [u16At, field_take h, u16At]

theorem u16At_ofNat (pre rest : List UInt8) {i n : Nat} (hi : pre.length = i) (hn : n < 65536) :
    u16At (pre ++ (BigEndian.ofNat 2 n ++ rest)) i = n := by
  rw [u16At, field_middle hi (BigEndian.ofNat_length 2 n), BigEndian.toNat_ofNat]
  exact Nat.mod_eq_of_lt hn

theorem u32At_ofNat (pre rest : List UInt8) {i n : Nat} (hi : pre.length = i) (hn : n < 2 ^ 32) :
    u32At (pre ++ (BigEndian.ofNat 4 n ++ rest)) i = n := by
  rw [u32At, field_middle hi (BigEndian.ofNat_length 4 n), BigEndian.toNat_ofNat]
  exact Nat.mod_eq_of_lt hn

end Numbers
