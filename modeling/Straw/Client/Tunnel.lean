import Straw.Capsule.Buffer

/-!
# The client's end of a tunnel

The client folds every capsule it reads into its view of the tunnel; an ADDRESS_ASSIGN
replaces the whole list of addresses. The result depends on the stream alone, not on the
chunks it comes in nor on the calls that read it.
-/

namespace Straw.Client

set_option autoImplicit false

structure Tunnel where
  capsules : CapsuleBuffer
  assigned : List AssignedAddress
  routes : List IpAddressRange

namespace Tunnel

def new : Tunnel := ⟨.new, [], []⟩

def applyCapsule (t : Tunnel) : Capsule → Tunnel
  | .addressAssign addrs => { t with assigned := addrs }
  | .routeAdvertisement ranges => { t with routes := ranges }
  | _ => t

/-- Push one chunk and fold in the complete capsules, up to the first that does not decode. -/
def receive (t : Tunnel) (chunk : Bytes) : Tunnel :=
  let r := (t.capsules.push chunk).drain
  { r.messages.foldl applyCapsule t with capsules := ⟨r.rest⟩ }

/-- The result, the tunnel and the chunks that are still to come. -/
def processNextCapsules : Tunnel → List Bytes →
    Except ProxyError (List Capsule) × Tunnel × List Bytes
  | t, [] => (.error (.http "proxy closed the tunnel"), t, [])
  | t, chunk :: chunks =>
    let r := (t.capsules.push chunk).drain
    match r.error with
    | some e => (.error (.decode e), t.receive chunk, chunks)
    | none =>
      if r.messages.isEmpty then processNextCapsules (t.receive chunk) chunks
      else (.ok r.messages, t.receive chunk, chunks)

def processCalls : Nat → Tunnel → List Bytes → Tunnel × List Bytes
  | 0, t, chunks => (t, chunks)
  | n + 1, t, chunks =>
    let r := t.processNextCapsules chunks
    processCalls n r.2.1 r.2.2

theorem processNextCapsules_receive (t : Tunnel) (chunks : List Bytes) :
    ∃ used, chunks = used ++ (t.processNextCapsules chunks).2.2 ∧
      (t.processNextCapsules chunks).2.1 = used.foldl receive t := by
  induction chunks generalizing t with
  | nil => exact ⟨[], rfl, rfl⟩
  | cons chunk chunks ih =>
    simp only [processNextCapsules]
    split
    · exact ⟨[chunk], rfl, rfl⟩
    · split
      · obtain ⟨used, hchunks, hstate⟩ := ih (t.receive chunk)
        exact ⟨chunk :: used, congrArg (chunk :: ·) hchunks, hstate⟩
      · exact ⟨[chunk], rfl, rfl⟩

theorem processCalls_receive (n : Nat) (t : Tunnel) (chunks : List Bytes) :
    ∃ used, chunks = used ++ (processCalls n t chunks).2 ∧
      (processCalls n t chunks).1 = used.foldl receive t := by
  induction n generalizing t chunks with
  | zero => exact ⟨[], rfl, rfl⟩
  | succ n ih =>
    obtain ⟨used, hchunks, hstate⟩ := t.processNextCapsules_receive chunks
    obtain ⟨used', hchunks', hstate'⟩ :=
      ih (t.processNextCapsules chunks).2.1 (t.processNextCapsules chunks).2.2
    refine ⟨used ++ used', ?_, ?_⟩
    · rw [List.append_assoc]
      exact hchunks.trans (congrArg (used ++ ·) hchunks')
    · rw [List.foldl_append, ← hstate]
      exact hstate'

/-- The assigned addresses after one frame of the stream. -/
def assignedAfter (addrs : List AssignedAddress) : Except DecodeError Capsule → List AssignedAddress
  | .ok (.addressAssign addrs') => addrs'
  | _ => addrs

theorem assigned_foldl_applyCapsule (capsules : List Capsule) (t : Tunnel) :
    (capsules.foldl applyCapsule t).assigned =
      (capsules.map .ok).foldl assignedAfter t.assigned := by
  induction capsules generalizing t with
  | nil => rfl
  | cons c capsules ih =>
    rw [List.foldl_cons, ih, List.map_cons, List.foldl_cons]
    cases c <;> rfl

theorem receive_frames (t : Tunnel) (chunk : Bytes) :
    ∃ frames rs, t.capsules.buf ++ chunk = frames.flatten ++ (t.receive chunk).capsules.buf ∧
      List.Forall₂ CapsuleBuffer.framer.Frame frames rs ∧
      (t.receive chunk).assigned = rs.foldl assignedAfter t.assigned := by
  obtain ⟨frames, hbuf, hpairs⟩ := CapsuleBuffer.framer.drain_outcomes (t.capsules.buf ++ chunk)
  refine ⟨frames, _, hbuf, hpairs, ?_⟩
  simp only [receive, assigned_foldl_applyCapsule, Framer.Reading.outcomes, List.foldl_append]
  change _ = List.foldl assignedAfter _ ((t.capsules.push chunk).drain.error.map .error).toList
  cases (t.capsules.push chunk).drain.error <;> rfl

theorem foldl_receive_frames (t : Tunnel) (chunks : List Bytes) :
    ∃ frames rs,
      t.capsules.buf ++ chunks.flatten = frames.flatten ++ (chunks.foldl receive t).capsules.buf ∧
      List.Forall₂ CapsuleBuffer.framer.Frame frames rs ∧
      (chunks.foldl receive t).assigned = rs.foldl assignedAfter t.assigned := by
  induction chunks generalizing t with
  | nil => exact ⟨[], [], by simp, .nil, rfl⟩
  | cons chunk chunks ih =>
    obtain ⟨frames, rs, hbuf, hpairs, hassigned⟩ := t.receive_frames chunk
    obtain ⟨frames', rs', hbuf', hpairs', hassigned'⟩ := ih (t.receive chunk)
    refine ⟨frames ++ frames', rs ++ rs', ?_, List.rel_append hpairs hpairs', ?_⟩
    · rw [List.flatten_cons, ← List.append_assoc, hbuf, List.append_assoc, hbuf',
        List.flatten_append, List.append_assoc]
      rfl
    · rw [List.foldl_append, ← hassigned]
      exact hassigned'

/-- A client that has read the last ADDRESS_ASSIGN of a stream has its list, wherever the
chunks end and however many calls it took. -/
theorem assigned_of_last {before after : List Bytes} {b : Bytes}
    {qs ps : List (Except DecodeError Capsule)} {addrs : List AssignedAddress}
    (hbefore : List.Forall₂ CapsuleBuffer.framer.Frame before qs)
    (hlast : CapsuleBuffer.framer.Frame b (.ok (.addressAssign addrs)))
    (hafter : List.Forall₂ CapsuleBuffer.framer.Frame after ps)
    (hsame : ∀ r ∈ ps, ∀ addrs', assignedAfter addrs' r = addrs') {chunks : List Bytes} {n : Nat}
    (hchunks : chunks.flatten = (before ++ b :: after).flatten)
    (hread : (processCalls n new chunks).1.capsules.buf.length +
      (processCalls n new chunks).2.flatten.length ≤ after.flatten.length) :
    (processCalls n new chunks).1.assigned = addrs := by
  obtain ⟨used, hsplit, hstate⟩ := processCalls_receive n new chunks
  obtain ⟨frames, rs, hbuf, hpairs, hassigned⟩ := foldl_receive_frames new used
  rw [← hstate] at hbuf hassigned
  generalize processCalls n new chunks = r at hsplit hread hbuf hassigned ⊢
  obtain ⟨t, left⟩ := r
  have hstream : frames.flatten ++ (t.capsules.buf ++ left.flatten) =
      (before ++ b :: after).flatten := by
    rw [← hchunks, hsplit, List.flatten_append, ← List.append_assoc, ← hbuf]
    rfl
  obtain ⟨ps', rest, rfl, hps⟩ := Framer.frames_reach hpairs hbefore hlast hafter hstream (by
    rw [List.length_append]
    exact hread)
  have hfold : ∀ l : List (Except DecodeError Capsule), (∀ r ∈ l, r ∈ ps) →
      l.foldl assignedAfter addrs = addrs := by
    intro l hl
    induction l with
    | nil => rfl
    | cons r l ih =>
      rw [List.foldl_cons, hsame r (hl r List.mem_cons_self)]
      exact ih fun q hq => hl q (List.mem_cons_of_mem r hq)
  rw [hassigned, List.foldl_append, List.foldl_cons]
  exact hfold ps' fun r hr => hps ▸ List.mem_append_left _ hr

end Tunnel

end Straw.Client
