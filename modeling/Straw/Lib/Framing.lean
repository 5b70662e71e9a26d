import Mathlib.Data.List.Forall2

/-!
# Messages framed in a byte stream

A framer takes the next message off the front of a buffer. It waits as long as the
message is not complete, and what it takes is a fixed block of symbols, whatever comes
after it. The messages read from a stream then depend on the stream alone, and not on
the chunks it arrives in.
-/

set_option autoImplicit false

universe u

structure Framer (α β ε : Type u) where
  next : List α → Except ε (Option β) × List α
  starts : next [] = (.ok none, [])
  waits : ∀ {buf rest}, next buf = (.ok none, rest) → rest = buf
  /-- A message, or an error, is decided by the block it takes. -/
  block : ∀ {buf rest r}, next buf = (r, rest) → r ≠ .ok none →
    ∃ frame, buf = frame ++ rest ∧ ∀ more, next (frame ++ more) = (r, more)

namespace Framer

variable {α β ε : Type u}

/-- What reading has produced: the messages, the error that ended it, the unread buffer. -/
structure Reading (α β ε : Type u) where
  messages : List β
  error : Option ε
  rest : List α

def Reading.after (r : Reading α β ε) (messages : List β) : Reading α β ε :=
  { r with messages := messages ++ r.messages }

def Reading.more (r : Reading α β ε) (symbols : List α) : Reading α β ε :=
  { r with rest := r.rest ++ symbols }

variable (f : Framer α β ε)

def drainFuel : Nat → List α → Reading α β ε
  | 0, buf => ⟨[], none, buf⟩
  | fuel + 1, buf =>
    match f.next buf with
    | (.ok none, rest) => ⟨[], none, rest⟩
    | (.ok (some m), rest) => (drainFuel fuel rest).after [m]
    | (.error e, rest) => ⟨[], some e, rest⟩

/-- Take messages until the framer waits or fails. Every message takes a symbol at least,
so the length of the buffer is fuel enough. -/
def drain (buf : List α) : Reading α β ε := drainFuel f buf.length buf

/-- Append the chunks one by one and drain after each, up to the first error. -/
def read : List α → List (List α) → Reading α β ε
  | buf, [] => ⟨[], none, buf⟩
  | buf, chunk :: chunks =>
    let r := f.drain (buf ++ chunk)
    match r.error with
    | some _ => r
    | none => (read r.rest chunks).after r.messages

variable {f}

theorem next_length {buf rest : List α} {m : β} (h : f.next buf = (.ok (some m), rest)) :
    rest.length < buf.length := by
  obtain ⟨frame, rfl, hmore⟩ := f.block h (by simp)
  cases frame with
  | nil =>
    have hempty := (hmore []).symm.trans f.starts
    simp at hempty
  | cons a frame =>
    simp only [List.length_append, List.length_cons]
    omega

theorem drainFuel_of_le {fuel : Nat} {buf : List α} (h : buf.length ≤ fuel) :
    f.drainFuel fuel buf = f.drain buf := by
  induction fuel using Nat.strongRecOn generalizing buf with
  | ind fuel ih =>
    cases fuel with
    | zero =>
      obtain rfl : buf = [] := List.eq_nil_of_length_eq_zero (by omega)
      rfl
    | succ fuel =>
      cases buf with
      | nil => simp only [drain, drainFuel, List.length_nil, f.starts]
      | cons a buf =>
        simp only [drain, List.length_cons, drainFuel]
        split
        · rfl
        · rename_i m rest hnext
          have hshort := next_length hnext
          simp only [List.length_cons] at h hshort
          rw [ih fuel (by omega) (by omega), ih buf.length (by omega) (by omega)]
        · rfl

theorem drain_eq (buf : List α) :
    f.drain buf = match f.next buf with
      | (.ok none, rest) => ⟨[], none, rest⟩
      | (.ok (some m), rest) => (f.drain rest).after [m]
      | (.error e, rest) => ⟨[], some e, rest⟩ := by
  rw [← drainFuel_of_le (Nat.le_succ buf.length), drainFuel]
  split
  · simp only [*]
  · rename_i m rest hnext
    have hshort := next_length hnext
    simp only [*, drainFuel_of_le (Nat.le_of_lt hshort)]
  · simp only [*]

theorem drain_of_wait {buf : List α} (h : f.next buf = (.ok none, buf)) :
    f.drain buf = ⟨[], none, buf⟩ := by
  rw [drain_eq, h]

/-- Draining a longer buffer goes on where draining the shorter one stopped. -/
theorem drain_append (buf more : List α) :
    f.drain (buf ++ more) =
      match (f.drain buf).error with
      | some _ => (f.drain buf).more more
      | none => (f.drain ((f.drain buf).rest ++ more)).after (f.drain buf).messages := by
  induction hn : buf.length using Nat.strongRecOn generalizing buf with
  | ind n ih =>
    subst hn
    rcases hnext : f.next buf with ⟨r, rest⟩
    match r with
    | .ok none =>
      obtain rfl := f.waits hnext
      simp [drain_of_wait hnext, Reading.after]
    | .ok (some m) =>
      obtain ⟨frame, rfl, hmore⟩ := f.block hnext (by simp)
      have hlong : f.next (frame ++ rest ++ more) = (.ok (some m), rest ++ more) := by
        rw [List.append_assoc]
        exact hmore (rest ++ more)
      have hrest := ih rest.length (next_length hnext) rest rfl
      have hshort : f.drain (frame ++ rest) = (f.drain rest).after [m] := by
        rw [drain_eq, hnext]
      rw [hshort, drain_eq, hlong]
      simp only [hrest, Reading.after]
      cases herror : (f.drain rest).error with
      | none => simp
      | some e => simp [Reading.more, herror]
    | .error e =>
      obtain ⟨frame, rfl, hmore⟩ := f.block hnext (by simp)
      have hlong : f.next (frame ++ rest ++ more) = (.error e, rest ++ more) := by
        rw [List.append_assoc]
        exact hmore (rest ++ more)
      have hshort : f.drain (frame ++ rest) = ⟨[], some e, rest⟩ := by
        rw [drain_eq, hnext]
      rw [hshort, drain_eq, hlong]
      simp [Reading.more]

variable (f) in
/-- A block that the framer takes as one message, or as one error. -/
def Frame (frame : List α) (r : Except ε β) : Prop := f.next frame = (r.map some, [])

theorem Frame.next {frame : List α} {r : Except ε β} (h : f.Frame frame r) (rest : List α) :
    f.next (frame ++ rest) = (r.map some, rest) := by
  obtain ⟨frame', hframe, hmore⟩ := f.block h (by cases r <;> simp [Except.map])
  rw [List.append_nil] at hframe
  exact hframe ▸ hmore rest

theorem Frame.ne_nil {frame : List α} {r : Except ε β} (h : f.Frame frame r) : frame ≠ [] := by
  rintro rfl
  have hwait := f.starts.symm.trans h
  cases r <;> simp [Except.map] at hwait

theorem frame_of_next {buf rest : List α} {r : Except ε β} (h : f.next buf = (r.map some, rest)) :
    ∃ frame, buf = frame ++ rest ∧ f.Frame frame r := by
  obtain ⟨frame, hbuf, hmore⟩ := f.block h (by cases r <;> simp [Except.map])
  refine ⟨frame, hbuf, ?_⟩
  have hself := hmore []
  rwa [List.append_nil] at hself

theorem exists_frames {P : Except ε β → Prop} {frames : List (List α)}
    (h : ∀ frame ∈ frames, ∃ r, f.Frame frame r ∧ P r) :
    ∃ rs, List.Forall₂ f.Frame frames rs ∧ ∀ r ∈ rs, P r := by
  induction frames with
  | nil => exact ⟨[], .nil, by simp⟩
  | cons frame frames ih =>
    obtain ⟨r, hframe, hr⟩ := h frame List.mem_cons_self
    obtain ⟨rs, hframes, hrs⟩ := ih fun x hx => h x (List.mem_cons_of_mem frame hx)
    exact ⟨r :: rs, .cons hframe hframes, List.forall_mem_cons.mpr ⟨hr, hrs⟩⟩

/-- A stream is cut into frames in one way only. -/
theorem frames_align {frames frames' : List (List α)} {rs rs' : List (Except ε β)} {more : List α}
    (h : List.Forall₂ f.Frame frames rs) (h' : List.Forall₂ f.Frame frames' rs')
    (heq : frames.flatten ++ more = frames'.flatten) :
    ∃ restFrames rest, frames' = frames ++ restFrames ∧ rs' = rs ++ rest ∧
      more = restFrames.flatten := by
  induction h generalizing frames' rs' with
  | nil => exact ⟨frames', rs', rfl, rfl, heq⟩
  | @cons frame r frames rs hframe htail ih =>
    rw [List.flatten_cons, List.append_assoc] at heq
    cases h' with
    | nil => exact absurd (List.append_eq_nil_iff.mp heq).1 hframe.ne_nil
    | @cons frame' r' frames' rs' hframe' htail' =>
      rw [List.flatten_cons] at heq
      have hnext := hframe.next (frames.flatten ++ more)
      rw [heq, hframe'.next] at hnext
      obtain ⟨hresult, hrest⟩ := Prod.mk.inj hnext
      rw [hrest] at heq
      obtain rfl := List.append_cancel_right heq
      have hsame : r' = r := by
        cases r <;> cases r' <;> simp [Except.map] at hresult ⊢ <;> exact hresult
      obtain ⟨restFrames, rest, rfl, rfl, hmore⟩ := ih htail' hrest.symm
      exact ⟨restFrames, rest, rfl, by rw [hsame, List.cons_append], hmore⟩

/-- Who has read a stream up to what follows one of its frames has read that frame. -/
theorem frames_reach {frames before after : List (List α)} {frame more : List α}
    {rs qs ps : List (Except ε β)} {r : Except ε β} (h : List.Forall₂ f.Frame frames rs)
    (hbefore : List.Forall₂ f.Frame before qs) (hframe : f.Frame frame r)
    (hafter : List.Forall₂ f.Frame after ps)
    (heq : frames.flatten ++ more = (before ++ frame :: after).flatten)
    (hmore : more.length ≤ after.flatten.length) :
    ∃ ps' rest, rs = qs ++ r :: ps' ∧ ps = ps' ++ rest := by
  have hall : List.Forall₂ f.Frame (before ++ frame :: after) (qs ++ r :: ps) :=
    List.rel_append hbefore (.cons hframe hafter)
  obtain ⟨restFrames, rest, hframes, hrs, rfl⟩ := frames_align h hall heq
  have hlong : before.length < frames.length := by
    by_contra hle
    have hrest : restFrames = (before ++ frame :: after).drop frames.length := by
      rw [hframes, List.drop_left]
    rw [hrest, List.drop_append_of_le_length (by omega), List.flatten_append, List.flatten_cons,
      List.length_append, List.length_append] at hmore
    have hpos := List.length_pos_of_ne_nil hframe.ne_nil
    omega
  rw [hbefore.length_eq, h.length_eq] at hlong
  rcases List.append_eq_append_iff.mp hrs with ⟨tail, rfl, htail⟩ | ⟨tail, rfl, -⟩
  · cases tail with
    | nil => simp at hlong
    | cons r' ps' =>
      obtain ⟨rfl, hps⟩ := List.cons.inj htail
      exact ⟨ps', rest, rfl, hps⟩
  · rw [List.length_append] at hlong
    omega

/-- Every frame that was taken, in order. -/
def Reading.outcomes (r : Reading α β ε) : List (Except ε β) :=
  r.messages.map .ok ++ (r.error.map .error).toList

/-- What was taken and the unread rest are the buffer cut into frames. -/
theorem drain_outcomes (buf : List α) :
    ∃ frames : List (List α), buf = frames.flatten ++ (f.drain buf).rest ∧
      List.Forall₂ f.Frame frames (f.drain buf).outcomes := by
  induction hn : buf.length using Nat.strongRecOn generalizing buf with
  | ind n ih =>
    subst hn
    rcases hnext : f.next buf with ⟨r, rest⟩
    match r with
    | .ok none =>
      obtain rfl := f.waits hnext
      rw [drain_of_wait hnext]
      exact ⟨[], by simp, .nil⟩
    | .ok (some m) =>
      have hdrain : f.drain buf = (f.drain rest).after [m] := by
        rw [drain_eq, hnext]
      obtain ⟨frames, hframes, hpairs⟩ := ih rest.length (next_length hnext) rest rfl
      obtain ⟨frame, hbuf, hframe⟩ := frame_of_next (f := f) (r := .ok m) hnext
      rw [hdrain]
      refine ⟨frame :: frames, ?_, .cons hframe hpairs⟩
      rw [List.flatten_cons, List.append_assoc, Reading.after, ← hframes]
      exact hbuf
    | .error e =>
      obtain ⟨frame, hbuf, hframe⟩ := frame_of_next (f := f) (r := .error e) hnext
      rw [drain_eq, hnext]
      exact ⟨[frame], by simpa using hbuf, .cons hframe .nil⟩

theorem exists_frame_of_mem {buf : List α} {m : β} (h : m ∈ (f.drain buf).messages) :
    ∃ frame, f.next frame = (.ok (some m), []) := by
  obtain ⟨frames, -, hpairs⟩ := f.drain_outcomes buf
  have hmem : .ok m ∈ (f.drain buf).outcomes := List.mem_append_left _ (List.mem_map_of_mem h)
  obtain ⟨i, hi, hr⟩ := List.getElem_of_mem hmem
  have hframe := hpairs.get (hpairs.length_eq ▸ hi) hi
  rw [List.get_eq_getElem, List.get_eq_getElem, hr] at hframe
  exact ⟨_, hframe⟩

theorem drain_dry {buf : List α} (h : (f.drain buf).error = none) :
    f.next (f.drain buf).rest = (.ok none, (f.drain buf).rest) := by
  induction hn : buf.length using Nat.strongRecOn generalizing buf with
  | ind n ih =>
    subst hn
    rcases hnext : f.next buf with ⟨r, rest⟩
    match r with
    | .ok none =>
      obtain rfl := f.waits hnext
      rw [drain_of_wait hnext]
      exact hnext
    | .ok (some m) =>
      have hdrain : f.drain buf = (f.drain rest).after [m] := by
        rw [drain_eq, hnext]
      rw [hdrain] at h ⊢
      exact ih rest.length (next_length hnext) h rfl
    | .error e =>
      rw [drain_eq, hnext] at h
      simp at h

theorem drain_frames {buf : List α} (h : (f.drain buf).error = none) :
    ∃ frames : List (List α), buf = frames.flatten ++ (f.drain buf).rest ∧
      List.Forall₂ (fun frame m => f.next frame = (.ok (some m), [])) frames
        (f.drain buf).messages := by
  obtain ⟨frames, hbuf, hpairs⟩ := f.drain_outcomes buf
  rw [Reading.outcomes, h, Option.map_none, Option.toList_none, List.append_nil,
    List.forall₂_map_right_iff] at hpairs
  exact ⟨frames, hbuf, hpairs⟩

/-- From the beginning of a stream of messages the complete ones are taken, and the rest
goes on with the others. -/
theorem drain_stream {frames : List (List α)} {ms : List β}
    (h : List.Forall₂ f.Frame frames (ms.map .ok)) {buf more : List α}
    (heq : buf ++ more = frames.flatten) :
    (f.drain buf).error = none ∧ ∃ restFrames rest, ms = (f.drain buf).messages ++ rest ∧
      List.Forall₂ f.Frame restFrames (rest.map .ok) ∧
      (f.drain buf).rest ++ more = restFrames.flatten := by
  obtain ⟨taken, hbuf, hpairs⟩ := f.drain_outcomes buf
  have hstream : taken.flatten ++ ((f.drain buf).rest ++ more) = frames.flatten := by
    rw [← List.append_assoc, ← hbuf, heq]
  obtain ⟨restFrames, outcomes, rfl, hms, hrest⟩ := frames_align hpairs h hstream
  have herror : (f.drain buf).error = none := by
    cases hcase : (f.drain buf).error with
    | none => rfl
    | some e =>
      have hmem : .error e ∈ ms.map (Except.ok (ε := ε)) := by
        rw [hms]
        refine List.mem_append_left _ (List.mem_append_right _ ?_)
        rw [hcase]
        exact List.mem_singleton_self _
      obtain ⟨m, -, hm⟩ := List.mem_map.mp hmem
      cases hm
  refine ⟨herror, restFrames, ?_⟩
  have hlen := hpairs.length_eq
  rw [Reading.outcomes, herror, Option.map_none, Option.toList_none, List.append_nil] at hms hlen
  obtain ⟨front, rest, rfl, hfront, hback⟩ := List.map_eq_append_iff.mp hms
  obtain rfl : front = (f.drain buf).messages :=
    (List.map_injective_iff.mpr fun _ _ hab => Except.ok.inj hab) hfront
  refine ⟨rest, rfl, ?_, hrest⟩
  rw [List.map_append] at h
  have hdrop := List.forall₂_drop_append _ _ _ h
  rwa [← hlen, List.drop_left] at hdrop

/-- Reading a stream in chunks yields the messages and the error of the whole stream, and
the same rest when nothing failed. -/
theorem read_eq_drain {buf : List α} (hdry : f.next buf = (.ok none, buf))
    (chunks : List (List α)) :
    (f.read buf chunks).messages = (f.drain (buf ++ chunks.flatten)).messages ∧
      (f.read buf chunks).error = (f.drain (buf ++ chunks.flatten)).error ∧
      ((f.read buf chunks).error = none →
        (f.read buf chunks).rest = (f.drain (buf ++ chunks.flatten)).rest) := by
  induction chunks generalizing buf with
  | nil => simp [read, drain_of_wait hdry]
  | cons chunk chunks ih =>
    rw [List.flatten_cons, ← List.append_assoc, drain_append (buf ++ chunk)]
    simp only [read]
    cases herror : (f.drain (buf ++ chunk)).error with
    | some e => simp [Reading.more, herror]
    | none =>
      obtain ⟨hmessages, hrest, hsame⟩ := ih (drain_dry herror)
      exact ⟨congrArg ((f.drain (buf ++ chunk)).messages ++ ·) hmessages, hrest, hsame⟩

end Framer
