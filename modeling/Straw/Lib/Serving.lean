import Straw.Lib.Framing

/-!
# Serving a framed stream

A server pushes each chunk into a buffer and hands the messages in it to a handler, one
after the other. The handler may leave the loop early, and then what is left in the
buffer stays there. A message of the stream is completed when its last symbol arrives.
-/

set_option autoImplicit false

universe u v

/-- Go on with a new state, or leave the loop. -/
inductive Turn (σ ω : Type v) where
  | next (s : σ)
  | stop (o : ω)

def Turn.value {σ : Type v} : Turn σ σ → σ
  | .next s => s
  | .stop s => s

namespace Framer

variable {α β ε : Type u} {σ ω : Type v}

/-- The message or error that was taken, if one was. -/
def taken : Except ε (Option β) → Option (Except ε β)
  | .ok none => none
  | .ok (some m) => some (.ok m)
  | .error e => some (.error e)

theorem taken_map_some (r : Except ε β) : taken (r.map some) = some r := by
  cases r with
  | ok m => rfl
  | error e => rfl

theorem of_taken {r : Except ε (Option β)} {m : Except ε β} (h : taken r = some m) :
    r = m.map some := by
  match r with
  | .ok none => cases h
  | .ok (some m) =>
    obtain rfl := Option.some.inj h
    rfl
  | .error e =>
    obtain rfl := Option.some.inj h
    rfl

theorem of_taken_none {r : Except ε (Option β)} (h : taken r = none) : r = .ok none := by
  match r with
  | .ok none => rfl
  | .ok (some m) => cases h
  | .error e => cases h

variable (f : Framer α β ε) (handle : σ → List α → Except ε β → Turn σ ω)

/-- The handler is given the symbols that were taken and what they are. -/
def serveFuel : Nat → σ → List α → Turn σ ω × List α
  | 0, s, buf => (.next s, buf)
  | fuel + 1, s, buf =>
    match taken (f.next buf).1 with
    | none => (.next s, (f.next buf).2)
    | some r =>
      match handle s (buf.take (buf.length - (f.next buf).2.length)) r with
      | .next t => serveFuel fuel t (f.next buf).2
      | .stop o => (.stop o, (f.next buf).2)

/-- Handle the messages of a buffer until it is dry or the handler leaves. -/
def serve (s : σ) (buf : List α) : Turn σ ω × List α := serveFuel f handle buf.length s buf

variable {f handle}

theorem serveFuel_frame {w : List α} {r : Except ε β} (h : f.Frame w r) (fuel : Nat) (s : σ)
    (rest : List α) :
    serveFuel f handle (fuel + 1) s (w ++ rest) =
      match handle s w r with
      | .next t => serveFuel f handle fuel t rest
      | .stop o => (.stop o, rest) := by
  have hwire : (w ++ rest).take ((w ++ rest).length - rest.length) = w := by
    rw [List.length_append, Nat.add_sub_cancel, List.take_left]
  rw [serveFuel, h.next rest]
  simp only [taken_map_some, hwire]

theorem serveFuel_wait {buf : List α} (h : f.next buf = (.ok none, buf)) (fuel : Nat) (s : σ) :
    serveFuel f handle fuel s buf = (.next s, buf) := by
  cases fuel with
  | zero => rfl
  | succ fuel =>
    rw [serveFuel, h]
    rfl

/-- A buffer waits, or begins with a frame. -/
theorem wait_or_frame (f : Framer α β ε) (buf : List α) :
    f.next buf = (.ok none, buf) ∨ ∃ w r rest, buf = w ++ rest ∧ f.Frame w r := by
  rcases hnext : f.next buf with ⟨o, rest⟩
  cases htaken : taken o with
  | none =>
    obtain rfl := of_taken_none htaken
    obtain rfl := f.waits hnext
    exact Or.inl rfl
  | some r =>
    obtain rfl := of_taken htaken
    obtain ⟨w, hbuf, hframe⟩ := frame_of_next hnext
    exact Or.inr ⟨w, r, rest, hbuf, hframe⟩

theorem serveFuel_of_le {fuel : Nat} {buf : List α} (h : buf.length ≤ fuel) (s : σ) :
    serveFuel f handle fuel s buf = serve f handle s buf := by
  induction fuel using Nat.strongRecOn generalizing buf s with
  | ind fuel ih =>
    rcases f.wait_or_frame buf with hwait | ⟨w, r, rest, rfl, hframe⟩
    · rw [serve, serveFuel_wait hwait, serveFuel_wait hwait]
    · have hpos := List.length_pos_of_ne_nil hframe.ne_nil
      rw [List.length_append] at h
      obtain ⟨n, rfl⟩ : ∃ n, fuel = n + 1 := ⟨fuel - 1, by omega⟩
      obtain ⟨k, hk⟩ : ∃ k, (w ++ rest).length = k + 1 :=
        ⟨w.length + rest.length - 1, by rw [List.length_append]; omega⟩
      have hrest : rest.length ≤ k := by
        rw [List.length_append] at hk
        omega
      rw [serve, hk, serveFuel_frame hframe, serveFuel_frame hframe]
      cases handle s w r with
      | stop o => rfl
      | next t =>
        have hshort : k < n + 1 := by
          rw [List.length_append] at hk
          omega
        simp only
        rw [ih n (by omega) (by omega), ih k hshort hrest]

theorem serve_wait {buf : List α} (h : f.next buf = (.ok none, buf)) (s : σ) :
    serve f handle s buf = (.next s, buf) := serveFuel_wait h _ s

theorem serve_frame {w : List α} {r : Except ε β} (h : f.Frame w r) (s : σ) (rest : List α) :
    serve f handle s (w ++ rest) =
      match handle s w r with
      | .next t => serve f handle t rest
      | .stop o => (.stop o, rest) := by
  rw [← serveFuel_of_le (Nat.le_succ (w ++ rest).length), serveFuel_frame h]
  cases handle s w r with
  | stop o => rfl
  | next t =>
    simp only
    rw [serveFuel_of_le]
    rw [List.length_append]
    omega

/-- What a handler counts of the symbols it was given, and what is left, is no more than
there was. -/
theorem serve_weight {handle : σ → List α → Except ε β → Turn σ σ} (weight : σ → Nat)
    (h : ∀ s w r, weight (handle s w r).value ≤ weight s + w.length) (s : σ) (buf : List α) :
    weight (serve f handle s buf).1.value + (serve f handle s buf).2.length ≤
      weight s + buf.length := by
  induction hn : buf.length using Nat.strongRecOn generalizing buf s with
  | ind n ih =>
    subst hn
    rcases f.wait_or_frame buf with hwait | ⟨w, r, rest, rfl, hframe⟩
    · rw [serve_wait hwait]
      exact Nat.le_refl _
    · have hpos := List.length_pos_of_ne_nil hframe.ne_nil
      have hstep := h s w r
      rw [serve_frame hframe, List.length_append]
      cases hhandle : handle s w r with
      | stop t =>
        rw [hhandle] at hstep
        simp only [Turn.value] at hstep ⊢
        omega
      | next t =>
        have hrest := ih rest.length (by rw [List.length_append]; omega) t rest rfl
        rw [hhandle] at hstep
        simp only [Turn.value] at hstep
        simp only
        omega

section Items

variable {ι : Type v} {wire : ι → List α} {result : ι → Except ε β} {items : List ι}

theorem serve_items {go : σ → ι → σ} (hframes : ∀ x ∈ items, f.Frame (wire x) (result x))
    (hgo : ∀ x ∈ items, ∀ s, handle s (wire x) (result x) = .next (go s x)) (s : σ)
    (more : List α) :
    serve f handle s (items.flatMap wire ++ more) = serve f handle (items.foldl go s) more := by
  induction items generalizing s with
  | nil => rfl
  | cons x items ih =>
    rw [List.flatMap_cons, List.append_assoc, serve_frame (hframes x List.mem_cons_self),
      hgo x List.mem_cons_self, List.foldl_cons]
    simp only
    apply ih
    · intro y hy
      exact hframes y (List.mem_cons_of_mem x hy)
    · intro y hy
      exact hgo y (List.mem_cons_of_mem x hy)

end Items

end Framer

section CutAfter

variable {ι : Type v} {p : ι → Bool}

/-- The list up to and with the first element that satisfies `p`. -/
def cutAfter (p : ι → Bool) : List ι → List ι
  | [] => []
  | x :: xs => if p x then [x] else x :: cutAfter p xs

theorem cutAfter_eq_self {xs : List ι} : cutAfter p xs = xs ↔ ∀ x ∈ xs.dropLast, p x = false := by
  induction xs with
  | nil => simp [cutAfter]
  | cons x xs ih =>
    cases xs with
    | nil => simp [cutAfter]
    | cons y ys =>
      rw [cutAfter, List.dropLast_cons_cons, List.forall_mem_cons, ← ih]
      cases hp : p x with
      | true => simp
      | false => simp

theorem cutAfter_append {front back : List ι} {x : ι} (hfront : ∀ y ∈ front, p y = false)
    (hx : p x = true) : cutAfter p (front ++ x :: back) = front ++ [x] := by
  induction front with
  | nil => rw [List.nil_append, cutAfter, if_pos hx, List.nil_append]
  | cons y front ih =>
    have hy : ¬ p y = true := by simp [hfront y List.mem_cons_self]
    rw [List.cons_append, cutAfter, if_neg hy, ih]
    · rfl
    · intro z hz
      exact hfront z (List.mem_cons_of_mem y hz)

theorem exists_first {xs : List ι} (h : ∃ x ∈ xs, p x = true) :
    ∃ front x back, xs = front ++ x :: back ∧ (∀ y ∈ front, p y = false) ∧ p x = true := by
  obtain ⟨y, hy, hpy⟩ := h
  cases hfind : xs.find? p with
  | none => exact absurd hpy (List.find?_eq_none.mp hfind y hy)
  | some x =>
    obtain ⟨hx, front, back, hxs, hfront⟩ := List.find?_eq_some_iff_append.mp hfind
    exact ⟨front, x, back, hxs, by simpa using hfront, hx⟩

/-- A handler that leaves the loop after the first message with `p` has handled the
messages up to that one. -/
theorem Framer.serve_cutAfter {α β ε : Type u} {σ : Type v} {f : Framer α β ε}
    {handle : σ → List α → Except ε β → Turn σ σ} {wire : ι → List α}
    {result : ι → Except ε β} {go : σ → ι → σ} {items : List ι} {tail : List α}
    (hframes : ∀ x ∈ items, f.Frame (wire x) (result x))
    (hhandle : ∀ x ∈ items, ∀ s, handle s (wire x) (result x) =
      if p x then .stop (go s x) else .next (go s x))
    (htail : f.next tail = (.ok none, tail)) (s : σ) :
    (serve f handle s (items.flatMap wire ++ tail)).1.value = (cutAfter p items).foldl go s ∧
      (serve f handle s (items.flatMap wire ++ tail)).2 =
        (items.drop (cutAfter p items).length).flatMap wire ++ tail := by
  induction items generalizing s with
  | nil =>
    rw [List.flatMap_nil, List.nil_append, serve_wait htail]
    exact ⟨rfl, rfl⟩
  | cons x items ih =>
    rw [List.flatMap_cons, List.append_assoc, serve_frame (hframes x List.mem_cons_self),
      hhandle x List.mem_cons_self]
    cases hp : p x with
    | true =>
      simp only [cutAfter, if_pos hp]
      exact ⟨rfl, rfl⟩
    | false =>
      have hneg : ¬ p x = true := by simp [hp]
      simp only [cutAfter, if_neg hneg]
      exact ih (fun y hy => hframes y (List.mem_cons_of_mem x hy))
        (fun y hy => hhandle y (List.mem_cons_of_mem x hy)) (go s x)

end CutAfter

section Completed

variable {α : Type u} {ι : Type v} {wire : ι → List α}

/-- The messages whose symbols are all among the first `n` of the stream. -/
def completed (wire : ι → List α) : List ι → Nat → List ι
  | [], _ => []
  | x :: xs, n =>
    if (wire x).length ≤ n then x :: completed wire xs (n - (wire x).length) else []

theorem completed_append (done rest : List ι) (n : Nat) :
    completed wire (done ++ rest) ((done.flatMap wire).length + n) =
      done ++ completed wire rest n := by
  induction done with
  | nil => simp
  | cons x done ih =>
    have hn : ((x :: done).flatMap wire).length + n - (wire x).length =
        (done.flatMap wire).length + n := by
      rw [List.flatMap_cons, List.length_append]
      omega
    have hle : (wire x).length ≤ ((x :: done).flatMap wire).length + n := by
      rw [List.flatMap_cons, List.length_append]
      omega
    rw [List.cons_append, completed, if_pos hle, hn, ih, List.cons_append]

/-- What has arrived of a stream is its completed messages and the beginning of the next. -/
theorem completed_split (items : List ι) (buf future : List α)
    (h : items.flatMap wire = buf ++ future) :
    ∃ rest tail, items = completed wire items buf.length ++ rest ∧
      buf = (completed wire items buf.length).flatMap wire ++ tail ∧
      rest.flatMap wire = tail ++ future ∧ completed wire rest tail.length = [] := by
  induction items generalizing buf with
  | nil => exact ⟨[], buf, rfl, rfl, h, rfl⟩
  | cons x items ih =>
    by_cases hle : (wire x).length ≤ buf.length
    · rw [List.flatMap_cons] at h
      obtain ⟨buf', rfl⟩ := List.prefix_of_prefix_length_le ⟨_, h⟩ (List.prefix_append buf future) hle
      rw [List.append_assoc] at h
      obtain ⟨rest, tail, hitems, hbuf, hrest, hshort⟩ := ih buf' (List.append_cancel_left h)
      have hlen : (wire x ++ buf').length - (wire x).length = buf'.length := by
        rw [List.length_append]
        omega
      rw [completed, if_pos hle, hlen]
      refine ⟨rest, tail, ?_, ?_, hrest, hshort⟩
      · rw [List.cons_append, ← hitems]
      · rw [List.flatMap_cons, List.append_assoc, ← hbuf]
    · refine ⟨x :: items, buf, ?_, ?_, h, ?_⟩
      · rw [completed, if_neg hle, List.nil_append]
      · rw [completed, if_neg hle, List.flatMap_nil, List.nil_append]
      · rw [completed, if_neg hle]

/-- The beginning of a frame waits for its end. -/
theorem Framer.next_of_incomplete {β ε : Type u} {f : Framer α β ε} {result : ι → Except ε β}
    {rest : List ι} {tail future : List α} (hframes : ∀ x ∈ rest, f.Frame (wire x) (result x))
    (h : rest.flatMap wire = tail ++ future) (hshort : completed wire rest tail.length = []) :
    f.next tail = (.ok none, tail) := by
  cases rest with
  | nil =>
    obtain ⟨rfl, -⟩ := List.append_eq_nil_iff.mp h.symm
    exact f.starts
  | cons x rest =>
    have hlt : tail.length < (wire x).length := by
      by_contra hge
      rw [completed, if_pos (by omega)] at hshort
      cases hshort
    rcases f.wait_or_frame tail with hwait | ⟨w, r, more, rfl, hframe⟩
    · exact hwait
    · -- the frame at the front of the tail is the one that is not complete
      rw [List.flatMap_cons, List.append_assoc] at h
      have hnext := (hframes x List.mem_cons_self).next (rest.flatMap wire)
      rw [h, hframe.next] at hnext
      have hlen := congrArg List.length (Prod.mk.inj hnext).2
      have htotal := congrArg List.length h
      simp only [List.length_append] at hlen htotal hlt
      omega

end Completed
