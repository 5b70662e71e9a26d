import Straw.Client.Bind

/-!
# From the first capsule loop to the pump

What the two loops process between them, over a whole stream and however it is cut. The
first loop loses the bytes behind its acknowledgement; the pump stops at a capsule of a
known type and leaves the rest of the chunk for later.
-/

namespace Straw.Client

open CapsuleBuffer Framer
set_option autoImplicit false

section Arrived

variable {stream : List SentCapsule} {n : Nat}

theorem arrived_mono (stream : List SentCapsule) (n : Nat) : arrived stream n <+: stream := by
  induction stream generalizing n with
  | nil => exact List.prefix_refl _
  | cons x stream ih =>
    rw [arrived, completed]
    split
    · exact List.cons_prefix_cons.mpr ⟨rfl, ih _⟩
    · exact List.nil_prefix

/-- Where the first acknowledgement of the uncompressed context stands. -/
theorem untilAck_spec (h : ∃ x ∈ stream, acksUncompressed x.2 = true) :
    ∃ front x back, stream = front ++ x :: back ∧ untilAck stream = front ++ [x] ∧
      (∀ y ∈ front, acksUncompressed y.2 = false) ∧ acksUncompressed x.2 = true := by
  obtain ⟨front, x, back, hstream, hfront, hx⟩ :=
    exists_first (p := fun x : SentCapsule => acksUncompressed x.2) h
  refine ⟨front, x, back, hstream, ?_, hfront, hx⟩
  rw [untilAck, hstream]
  exact cutAfter_append hfront hx

/-- Once the acknowledgement has arrived, everything up to it has. -/
theorem arrived_of_le (h : ∃ x ∈ stream, acksUncompressed x.2 = true)
    (hn : (wireOf (untilAck stream)).length ≤ n) :
    ∃ more, arrived stream n = untilAck stream ++ more := by
  obtain ⟨front, x, back, hstream, huntil, -⟩ := untilAck_spec h
  have hsplit : stream = untilAck stream ++ back := by
    rw [huntil, List.append_assoc]
    exact hstream
  have hlen : n = ((untilAck stream).flatMap Prod.fst).length +
      (n - (wireOf (untilAck stream)).length) := by
    rw [← wireOf]
    omega
  refine ⟨completed Prod.fst back (n - (wireOf (untilAck stream)).length), ?_⟩
  rw [← completed_append, ← hsplit, ← hlen, arrived]

theorem length_arrived_le (stream : List SentCapsule) (n : Nat) :
    (wireOf (arrived stream n)).length ≤ n := by
  induction stream generalizing n with
  | nil => exact Nat.zero_le n
  | cons x stream ih =>
    rw [arrived, completed]
    split
    · have hrest := ih (n - x.1.length)
      rw [wireOf, List.flatMap_cons, List.length_append]
      rw [wireOf, arrived] at hrest
      omega
    · exact Nat.zero_le n

theorem arrived_of_lt (hn : n < (wireOf (untilAck stream)).length) :
    ∀ x ∈ arrived stream n, acksUncompressed x.2 = false := by
  by_contra hsome
  obtain ⟨front, x, back, hsplit, hfront, hx⟩ :=
    exists_first (p := fun x : SentCapsule => acksUncompressed x.2) (by simpa using hsome)
  obtain ⟨rest, hrest⟩ := arrived_mono stream n
  have huntil : untilAck stream = front ++ [x] := by
    rw [untilAck, ← hrest, hsplit, List.append_assoc, List.cons_append]
    exact cutAfter_append hfront hx
  have hle := length_arrived_le stream n
  rw [hsplit, List.append_cons, wireOf, List.flatMap_append, List.length_append] at hle
  rw [huntil, wireOf] at hn
  omega

end Arrived

namespace BindSession

open BindClient

variable {stream : List SentCapsule} {got data future : Bytes} {s : BindSession}

/-- Nothing is missing: what is complete has been processed and the rest is buffered. -/
structure Current (stream : List SentCapsule) (got : Bytes) (s : BindSession) : Prop where
  processed : s.client.processed = arrived stream got.length
  buffer : wireOf s.client.processed ++ s.capsules.buf = got

/-- The next chunk completes some capsules and leaves the beginning of another. -/
theorem Current.push (h : Current stream got s) (hstream : WellFormed stream)
    (hcut : wireOf stream = got ++ data ++ future) :
    ∃ newly tail, arrived stream (got ++ data).length = arrived stream got.length ++ newly ∧
      (s.capsules.push data).buf = wireOf newly ++ tail ∧ framer.next tail = (.ok none, tail) ∧
      ∀ x ∈ newly, x ∈ stream := by
  obtain ⟨rest, hrest⟩ := arrived_mono stream got.length
  have hgot : got ++ data = wireOf (arrived stream got.length) ++ (s.capsules.buf ++ data) := by
    rw [← List.append_assoc, ← h.processed, h.buffer]
  have hwire : rest.flatMap Prod.fst = s.capsules.buf ++ data ++ future := by
    have hall : wireOf (arrived stream got.length) ++ rest.flatMap Prod.fst =
        wireOf (arrived stream got.length) ++ (s.capsules.buf ++ data ++ future) := by
      rw [← List.append_assoc, ← hgot, ← hcut, wireOf, wireOf, ← List.flatMap_append, hrest]
    exact List.append_cancel_left hall
  obtain ⟨later, tail, hitems, hbuf, hlater, hshort⟩ := completed_split rest _ future hwire
  have hmem : ∀ x ∈ rest, x ∈ stream := by
    intro x hx
    rw [← hrest]
    exact List.mem_append_right _ hx
  have hframes : ∀ x ∈ later, framer.Frame x.1 (.ok x.2) := by
    intro x hx
    apply hstream.frames x (hmem x _)
    rw [hitems]
    exact List.mem_append_right _ hx
  refine ⟨_, tail, ?_, hbuf, next_of_incomplete hframes hlater hshort, ?_⟩
  · rw [hgot, List.length_append, wireOf, ← completed_append, hrest]
    rfl
  · intro x hx
    apply hmem
    rw [hitems]
    exact List.mem_append_left _ hx

section Steps

variable {newly : List SentCapsule} {tail : Bytes}

theorem receive_waits (hstream : WellFormed stream) (hphase : s.phase = .connecting)
    (hbuf : (s.capsules.push data).buf = wireOf newly ++ tail)
    (htail : framer.next tail = (.ok none, tail)) (hnewly : ∀ x ∈ newly, x ∈ stream)
    (hack : ∀ x ∈ newly, acksUncompressed x.2 = false) :
    s.receive data = ⟨.connecting, ⟨tail⟩, newly.foldl note s.client⟩ := by
  have hserve : framer.serve ackStep s.client (wireOf newly ++ tail) =
      framer.serve ackStep (newly.foldl note s.client) tail := by
    apply serve_items
    · intro x hx
      exact hstream.frames x (hnewly x hx)
    · intro x hx c
      exact ackStep_next hstream (hnewly x hx) (hack x hx) c
  simp only [receive, hphase, hbuf, hserve, serve_wait htail]

theorem receive_handover {front back : List SentCapsule} {x : SentCapsule}
    (hstream : WellFormed stream) (hphase : s.phase = .connecting)
    (hcontexts : s.client.contexts = awaiting)
    (hbuf : (s.capsules.push data).buf = wireOf (front ++ x :: back) ++ tail)
    (hnewly : ∀ y ∈ front ++ x :: back, y ∈ stream)
    (hfront : ∀ y ∈ front, acksUncompressed y.2 = false) (hx : acksUncompressed x.2 = true) :
    (s.receive data).phase = .pumping ∧ (s.receive data).capsules.buf = [] ∧
      (s.receive data).client.processed = s.client.processed ++ (front ++ [x]) ∧
      (s.receive data).client.contexts = LockdownSys.uncompressedOnly := by
  have hbuf' : (s.capsules.push data).buf = wireOf front ++ (x.1 ++ (wireOf back ++ tail)) := by
    rw [hbuf, wireOf, List.flatMap_append, List.flatMap_cons, List.append_assoc, List.append_assoc]
    rfl
  have hserve : framer.serve ackStep s.client (s.capsules.push data).buf =
      framer.serve ackStep (front.foldl note s.client) (x.1 ++ (wireOf back ++ tail)) := by
    rw [hbuf']
    apply serve_items
    · intro y hy
      exact hstream.frames y (hnewly y (List.mem_append_left _ hy))
    · intro y hy c
      exact ackStep_next hstream (hnewly y (List.mem_append_left _ hy)) (hfront y hy) c
  have hnoted := foldl_note s.client front
  have hstop := ackStep_stop hx (hnoted.1.trans hcontexts)
  have hframe := hstream.frames x (hnewly x (by simp))
  rw [serve_frame hframe, hstop] at hserve
  simp only [receive, hphase, hserve]
  refine ⟨trivial, rfl, ?_, trivial⟩
  rw [record, hnoted.2, List.append_assoc]

theorem receive_pumps (hstream : WellFormed stream) (hphase : s.phase = .pumping)
    (hbuf : (s.capsules.push data).buf = wireOf newly ++ tail)
    (htail : framer.next tail = (.ok none, tail)) (hnewly : ∀ x ∈ newly, x ∈ stream) :
    (s.receive data).phase = .pumping ∧
      (s.receive data).client =
        (cutAfter (fun x : SentCapsule => !isUnknown x.2) newly).foldl apply s.client ∧
      (s.receive data).capsules.buf =
        wireOf (newly.drop (cutAfter (fun x : SentCapsule => !isUnknown x.2) newly).length) ++
          tail := by
  have hserve := serve_cutAfter (f := framer) (p := fun x : SentCapsule => !isUnknown x.2)
    (fun x hx => hstream.frames x (hnewly x hx)) (fun x _ c => pumpStep_eq c x) htail s.client
  simp only [receive, hphase, hbuf]
  exact ⟨trivial, hserve.1, hserve.2⟩

end Steps

/-- Nothing is missing, and `connect` waits exactly until its acknowledgement arrives. -/
structure Tracking (stream : List SentCapsule) (got : Bytes) (s : BindSession) : Prop where
  current : Current stream got s
  phase : (s.phase = .connecting ∧ s.client.contexts = awaiting ∧
      got.length < (wireOf (untilAck stream)).length) ∨
    (s.phase = .pumping ∧ (wireOf (untilAck stream)).length ≤ got.length)

/-- Bytes of the stream have been lost. -/
structure Behind (got : Bytes) (s : BindSession) : Prop where
  phase : s.phase = .pumping
  short : (wireOf s.client.processed).length + s.capsules.buf.length < got.length

theorem change_phase (s : BindSession) (changes : List TableChange) :
    (s.change changes).phase = s.phase := by
  unfold change
  split
  · rfl
  · rfl

theorem change_client (s : BindSession) (changes : List TableChange) :
    (s.change changes).capsules = s.capsules ∧
      (s.change changes).client.processed = s.client.processed := by
  unfold change
  split
  · exact ⟨rfl, rfl⟩
  · exact ⟨rfl, rfl⟩

theorem change_connecting (h : s.phase = .connecting) (changes : List TableChange) :
    s.change changes = s := by
  simp only [change, h]

theorem Current.change (h : Current stream got s) (changes : List TableChange) :
    Current stream got (s.change changes) := by
  obtain ⟨hcapsules, hprocessed⟩ := change_client s changes
  exact ⟨hprocessed.trans h.processed, by rw [hprocessed, hcapsules, h.buffer]⟩

/-- The bytes at hand after a chunk, split at the capsules it completes. -/
theorem Current.got_append (h : Current stream got s) {newly : List SentCapsule} {tail : Bytes}
    (hbuf : (s.capsules.push data).buf = wireOf newly ++ tail) :
    got ++ data = wireOf (arrived stream got.length ++ newly) ++ tail := by
  have hpush : (s.capsules.push data).buf = s.capsules.buf ++ data := rfl
  rw [wireOf, List.flatMap_append, List.append_assoc, ← wireOf, ← wireOf, ← hbuf, hpush,
    ← List.append_assoc, ← h.processed, h.buffer]

theorem Behind.deliver (h : Behind got s) (d : Delivery) :
    Behind (got ++ d.data) (s.deliver d) := by
  obtain ⟨hcapsules, hprocessed⟩ := change_client s d.changes
  have hphase := (change_phase s d.changes).trans h.phase
  have hweight := serve_weight (f := framer) (fun c => (wireOf c.processed).length) pumpStep_length
    (s.change d.changes).client ((s.change d.changes).capsules.push d.data).buf
  have hshort := h.short
  rw [hprocessed, hcapsules] at hweight
  simp only [CapsuleBuffer.push, List.length_append] at hweight
  refine ⟨?_, ?_⟩
  · simp only [BindSession.deliver, receive, hphase]
  · simp only [BindSession.deliver, receive, hphase, hcapsules, CapsuleBuffer.push,
      List.length_append]
    omega

theorem wireOf_eq_nil {xs : List SentCapsule} (hstream : WellFormed stream)
    (hxs : ∀ x ∈ xs, x ∈ stream) (h : (wireOf xs).length = 0) : xs = [] := by
  cases xs with
  | nil => rfl
  | cons x xs =>
    have hx := (hstream.frames x (hxs x List.mem_cons_self)).ne_nil
    have hpos := List.length_pos_of_ne_nil hx
    rw [wireOf, List.flatMap_cons, List.length_append] at h
    omega

/-- What a chunk does to a session that has everything so far: a clean cut keeps it so,
and any other cut loses bytes or leaves a capsule behind. -/
structure Kept (stream : List SentCapsule) (got : Bytes) (s : BindSession) (d : Delivery) :
    Prop where
  tracking : Tracking stream (got ++ d.data) (s.deliver d)
  applied : ∀ newly,
    arrived stream (got ++ d.data).length = arrived stream got.length ++ newly →
    (s.deliver d).client.contexts =
      (newly.map Prod.snd).foldl acknowledge (s.change d.changes).client.contexts

def Dropped (stream : List SentCapsule) (got : Bytes) (s : BindSession) : Prop :=
  Behind got s ∨ s.client.processed ≠ arrived stream got.length

theorem deliver_connecting {d : Delivery} (hstream : WellFormed stream)
    (hack : ∃ x ∈ stream, acksUncompressed x.2 = true) (h : Current stream got s)
    (hphase : s.phase = .connecting) (hcontexts : s.client.contexts = awaiting)
    (hgot : got.length < (wireOf (untilAck stream)).length)
    (hcut : wireOf stream = got ++ d.data ++ future) :
    (CleanCut stream got d.data ∧ Kept stream got s d) ∨
      (¬ CleanCut stream got d.data ∧ Dropped stream (got ++ d.data) (s.deliver d)) := by
  obtain ⟨newly, tail, harrived, hbuf, htail, hnewly⟩ := h.push hstream hcut
  have hdeliver : s.deliver d = s.receive d.data := by
    rw [BindSession.deliver, change_connecting hphase]
  have hbytes := h.got_append hbuf
  have hsame : ∀ newly', arrived stream (got ++ d.data).length =
      arrived stream got.length ++ newly' → newly' = newly := by
    intro newly' hnewly'
    exact List.append_cancel_left (hnewly'.symm.trans harrived)
  by_cases hwaits : (got ++ d.data).length < (wireOf (untilAck stream)).length
  · have hnone : ∀ x ∈ newly, acksUncompressed x.2 = false := by
      intro x hx
      apply arrived_of_lt hwaits
      rw [harrived]
      exact List.mem_append_right _ hx
    have hstep := receive_waits hstream hphase hbuf htail hnewly hnone
    have hnoted := foldl_note s.client newly
    refine Or.inl ⟨⟨?_, ?_⟩, ⟨⟨⟨?_, ?_⟩, Or.inl ⟨?_, ?_, hwaits⟩⟩, ?_⟩⟩
    · intro _ hle
      omega
    · intro hle
      omega
    · rw [hdeliver, hstep, harrived, ← h.processed]
      exact hnoted.2
    · rw [hdeliver, hstep, hbytes, hnoted.2, h.processed]
    · rw [hdeliver, hstep]
    · rw [hdeliver, hstep]
      exact hnoted.1.trans hcontexts
    · intro newly' hnewly'
      obtain rfl := hsame newly' hnewly'
      rw [hdeliver, hstep, change_connecting hphase, hcontexts, foldl_acknowledge_awaiting hnone]
      exact hnoted.1.trans hcontexts
  · -- the acknowledgement is among the new capsules
    obtain ⟨more, hmore⟩ := arrived_of_le hack (Nat.le_of_not_lt hwaits)
    have hsome : ∃ x ∈ newly, acksUncompressed x.2 = true := by
      obtain ⟨front, x, back, -, huntil, -, hx⟩ := untilAck_spec hack
      refine ⟨x, ?_, hx⟩
      have hmem : x ∈ arrived stream got.length ++ newly := by
        rw [← harrived, hmore, huntil]
        simp
      rcases List.mem_append.mp hmem with hold | hnew
      · rw [arrived_of_lt hgot x hold] at hx
        cases hx
      · exact hnew
    obtain ⟨front, x, back, rfl, hfront, hx⟩ :=
      exists_first (p := fun x : SentCapsule => acksUncompressed x.2) hsome
    have huntil : untilAck stream = arrived stream got.length ++ (front ++ [x]) := by
      obtain ⟨rest, hrest⟩ := arrived_mono stream (got ++ d.data).length
      have hstart : ∀ y ∈ arrived stream got.length ++ front, acksUncompressed y.2 = false := by
        intro y hy
        rcases List.mem_append.mp hy with hold | hnew
        · exact arrived_of_lt hgot y hold
        · exact hfront y hnew
      have hsplit : stream = (arrived stream got.length ++ front) ++ x :: (back ++ rest) := by
        refine hrest.symm.trans ?_
        rw [harrived]
        simp
      calc untilAck stream
          = untilAck ((arrived stream got.length ++ front) ++ x :: (back ++ rest)) :=
            congrArg untilAck hsplit
        _ = (arrived stream got.length ++ front) ++ [x] := cutAfter_append hstart hx
        _ = arrived stream got.length ++ (front ++ [x]) := List.append_assoc _ _ _
    obtain ⟨hpumping, hempty, hprocessed, htable⟩ :=
      receive_handover hstream hphase hcontexts hbuf hnewly hfront hx
    rw [h.processed, ← huntil] at hprocessed
    have hlength : (got ++ d.data).length =
        (wireOf (untilAck stream)).length + (wireOf back).length + tail.length := by
      rw [hbytes, huntil]
      simp only [wireOf, List.flatMap_append, List.flatMap_cons, List.flatMap_nil,
        List.length_append, List.length_nil]
      omega
    by_cases hexact : (got ++ d.data).length = (wireOf (untilAck stream)).length
    · obtain rfl : back = [] := by
        apply wireOf_eq_nil hstream _ (by omega)
        intro y hy
        exact hnewly y (List.mem_append_right _ (List.mem_cons_of_mem x hy))
      obtain rfl : tail = [] := List.eq_nil_of_length_eq_zero (by omega)
      refine Or.inl ⟨⟨fun _ _ => hexact, ?_⟩, ⟨⟨⟨?_, ?_⟩, Or.inr ⟨?_, ?_⟩⟩, ?_⟩⟩
      · intro hle
        omega
      · rw [hdeliver, hprocessed, harrived, huntil]
      · rw [hdeliver, hempty, hprocessed, huntil, hbytes]
      · rw [hdeliver, hpumping]
      · exact Nat.le_of_eq hexact.symm
      · intro newly' hnewly'
        obtain rfl := hsame newly' hnewly'
        rw [hdeliver, htable, change_connecting hphase, hcontexts, List.map_append,
          List.foldl_append, foldl_acknowledge_awaiting hfront]
        exact (acknowledge_ack hx).symm
    · refine Or.inr ⟨?_, Or.inl ⟨?_, ?_⟩⟩
      · intro hclean
        exact hexact (hclean.handover hgot (by omega))
      · rw [hdeliver, hpumping]
      · rw [hdeliver, hprocessed, hempty, List.length_nil]
        omega

theorem deliver_pumping {d : Delivery} (hstream : WellFormed stream) (h : Current stream got s)
    (hphase : s.phase = .pumping) (hgot : (wireOf (untilAck stream)).length ≤ got.length)
    (hcut : wireOf stream = got ++ d.data ++ future) :
    (CleanCut stream got d.data ∧ Kept stream got s d) ∨
      (¬ CleanCut stream got d.data ∧ Dropped stream (got ++ d.data) (s.deliver d)) := by
  have hchanged := h.change d.changes
  obtain ⟨newly, tail, harrived, hbuf, htail, hnewly⟩ := hchanged.push hstream hcut
  obtain ⟨hpumping, hclient, hrest⟩ := receive_pumps hstream
    ((change_phase s d.changes).trans hphase) hbuf htail hnewly
  have happlied := foldl_apply (s.change d.changes).client
    (cutAfter (fun x : SentCapsule => !isUnknown x.2) newly)
  rw [← hclient, hchanged.processed] at happlied
  have hsame : ∀ newly', arrived stream (got ++ d.data).length =
      arrived stream got.length ++ newly' → newly' = newly := by
    intro newly' hnewly'
    exact List.append_cancel_left (hnewly'.symm.trans harrived)
  by_cases hall : cutAfter (fun x : SentCapsule => !isUnknown x.2) newly = newly
  · rw [hall, List.drop_length] at hrest
    rw [hall] at happlied
    refine Or.inl ⟨⟨?_, ?_⟩, ⟨⟨⟨?_, ?_⟩, Or.inr ⟨hpumping, ?_⟩⟩, ?_⟩⟩
    · intro hlt
      omega
    · intro _ newly' hnewly' x hx
      obtain rfl := hsame newly' hnewly'
      simpa using cutAfter_eq_self.mp hall x hx
    · exact happlied.2.trans harrived.symm
    · rw [BindSession.deliver, happlied.2, hrest, hchanged.got_append hbuf]
      rfl
    · rw [List.length_append]
      omega
    · intro newly' hnewly'
      obtain rfl := hsame newly' hnewly'
      exact happlied.1
  · refine Or.inr ⟨?_, Or.inr ?_⟩
    · intro hclean
      apply hall
      rw [cutAfter_eq_self]
      intro x hx
      simpa using hclean.known hgot newly harrived x hx
    · intro hprocessed
      rw [BindSession.deliver, happlied.2, harrived] at hprocessed
      exact hall (List.append_cancel_left hprocessed)

theorem deliver_tracking {d : Delivery} (hstream : WellFormed stream)
    (hack : ∃ x ∈ stream, acksUncompressed x.2 = true) (h : Tracking stream got s)
    (hcut : wireOf stream = got ++ d.data ++ future) :
    (CleanCut stream got d.data ∧ Kept stream got s d) ∨
      (¬ CleanCut stream got d.data ∧ Dropped stream (got ++ d.data) (s.deliver d)) := by
  rcases h.phase with ⟨hphase, hcontexts, hgot⟩ | ⟨hphase, hgot⟩
  · exact deliver_connecting hstream hack h.current hphase hcontexts hgot hcut
  · exact deliver_pumping hstream h.current hphase hgot hcut

theorem run_append (before : List Delivery) (d : Delivery) :
    run (before ++ [d]) = (run before).deliver d := by
  rw [run, List.foldl_append]
  rfl

theorem received_append (before : List Delivery) (d : Delivery) :
    received (before ++ [d]) = received before ++ d.data := by
  rw [received, List.flatMap_append, List.flatMap_singleton]
  rfl

theorem initial_tracking (hack : ∃ x ∈ stream, acksUncompressed x.2 = true)
    (hstream : WellFormed stream) : Tracking stream [] initial := by
  obtain ⟨front, x, back, hsplit, huntil, -⟩ := untilAck_spec hack
  have hx := (hstream.frames x (by rw [hsplit]; simp)).ne_nil
  have hpos := List.length_pos_of_ne_nil hx
  have harrived : arrived stream 0 = [] :=
    wireOf_eq_nil hstream (fun y hy => (arrived_mono stream 0).subset hy)
      (Nat.le_zero.mp (length_arrived_le stream 0))
  refine ⟨⟨harrived.symm, rfl⟩, Or.inl ⟨rfl, rfl, ?_⟩⟩
  rw [huntil, wireOf, List.flatMap_append, List.flatMap_singleton, List.length_append,
    List.length_nil]
  omega

/-- A property that each delivery of a run hands on holds at every wait. -/
theorem run_induction {ds : List Delivery} {P : List Delivery → Prop} (hnil : P [])
    (hstep : ∀ before d, before ++ [d] <+: ds → P before → P (before ++ [d])) :
    ∀ before, before <+: ds → P before := by
  intro before
  induction before using List.reverseRecOn with
  | nil => exact fun _ => hnil
  | append_singleton before d ih =>
    intro hbefore
    exact hstep before d hbefore (ih ((List.prefix_append before [d]).trans hbefore))

/-- Bytes that are lost stay lost. -/
theorem run_behind {before : List Delivery} (h : Behind (received before) (run before))
    (after : List Delivery) :
    Behind (received (before ++ after)) (run (before ++ after)) := by
  induction after using List.reverseRecOn with
  | nil => rwa [List.append_nil]
  | append_singleton after d ih =>
    rw [← List.append_assoc, received_append, run_append]
    exact ih.deliver d

theorem not_behind_of_processed
    (h : s.client.processed = arrived stream (wireOf stream).length) :
    ¬ Behind (wireOf stream) s := by
  intro hbehind
  have hall : arrived stream (wireOf stream).length = stream := by
    have happend : completed Prod.fst (stream ++ []) ((stream.flatMap Prod.fst).length + 0) =
        stream ++ completed Prod.fst [] 0 := completed_append stream [] 0
    rw [List.append_nil, Nat.add_zero, completed, List.append_nil] at happend
    exact happend
  have hshort := hbehind.short
  rw [h, hall] at hshort
  omega

end BindSession

section Whole

open BindSession

variable {stream : List SentCapsule} {ds : List Delivery}

theorem cut_of_prefix {before : List Delivery} {d : Delivery} (hcut : received ds = wireOf stream)
    (h : before ++ [d] <+: ds) :
    ∃ future, wireOf stream = received before ++ d.data ++ future := by
  obtain ⟨after, rfl⟩ := h
  refine ⟨received after, ?_⟩
  rw [← hcut, received, List.flatMap_append, ← received, received_append]
  rfl

/-- Every capsule of the stream reaches the client, at every wait, exactly when each chunk
is cut cleanly. -/
theorem run_reaches (hstream : WellFormed stream)
    (hack : ∃ x ∈ stream, acksUncompressed x.2 = true) (hcut : received ds = wireOf stream) :
    Reaches stream ds ↔
      ∀ before d, before ++ [d] <+: ds → CleanCut stream (received before) d.data := by
  have hinitial : Tracking stream (received []) (run []) := initial_tracking hack hstream
  constructor
  · intro h
    have hclean : ∀ before d, before ++ [d] <+: ds →
        Tracking stream (received before) (run before) →
        CleanCut stream (received before) d.data ∧
          Kept stream (received before) (run before) d := by
      intro before d hbefore htracking
      obtain ⟨future, hfuture⟩ := cut_of_prefix hcut hbefore
      rcases deliver_tracking hstream hack htracking hfuture with hkept | ⟨-, hbehind | hmissing⟩
      · exact hkept
      · obtain ⟨after, rfl⟩ := hbefore
        rw [← run_append, ← received_append] at hbehind
        have hend := run_behind hbehind after
        have hprocessed := h.processed _ (List.prefix_refl _)
        rw [hcut] at hend hprocessed
        exact absurd hend (not_behind_of_processed hprocessed)
      · refine absurd ?_ hmissing
        rw [← run_append, ← received_append]
        exact h.processed _ hbefore
    have htracking := run_induction (P := fun before =>
      Tracking stream (received before) (run before)) hinitial (by
        intro before d hbefore hbase
        rw [run_append, received_append]
        exact (hclean before d hbefore hbase).2.tracking)
    intro before d hbefore
    exact (hclean before d hbefore (htracking before
      ((List.prefix_append before [d]).trans hbefore))).1
  · intro hclean
    have hkept : ∀ before d, before ++ [d] <+: ds →
        Tracking stream (received before) (run before) →
        Kept stream (received before) (run before) d := by
      intro before d hbefore htracking
      obtain ⟨future, hfuture⟩ := cut_of_prefix hcut hbefore
      rcases deliver_tracking hstream hack htracking hfuture with ⟨-, hkept⟩ | ⟨hnot, -⟩
      · exact hkept
      · exact absurd (hclean before d hbefore) hnot
    have htracking := run_induction (P := fun before =>
      Tracking stream (received before) (run before)) hinitial (by
        intro before d hbefore hbase
        rw [run_append, received_append]
        exact (hkept before d hbefore hbase).tracking)
    refine ⟨?_, ?_⟩
    · intro before hbefore
      exact (htracking before hbefore).current.processed
    · intro before d newly hbefore hnewly
      rw [received_append] at hnewly
      rw [run_append]
      exact (hkept before d hbefore (htracking before
        ((List.prefix_append before [d]).trans hbefore))).applied newly hnewly

/-! A reserved capsule begins in the chunk of the acknowledgement. Its first byte is lost
with the first buffer, and what follows is read from the wrong byte on. -/

def ackCapsule (id : UInt8) : SentCapsule :=
  ([0x12, 1, id], .unknown capsuleCompressionAck [id])

def reservedCapsule : SentCapsule := ([0x17, 1, 0x40], .unknown 0x17 [0x40])

def testCapsules : List SentCapsule := [ackCapsule 2, reservedCapsule, ackCapsule 4]

theorem testCapsules_wellFormed : WellFormed testCapsules := by
  refine ⟨?_, ?_⟩
  · intro x hx
    simp only [testCapsules, List.mem_cons, List.not_mem_nil, or_false] at hx
    rcases hx with rfl | rfl | rfl
    · rfl
    · rfl
    · rfl
  · intro x hx data hdata
    simp only [testCapsules, List.mem_cons, List.not_mem_nil, or_false] at hx
    rcases hx with rfl | rfl | rfl
    · obtain rfl := (Capsule.unknown.inj hdata).2
      exact ⟨2, rfl⟩
    · exact absurd (Capsule.unknown.inj hdata).1 (by decide)
    · obtain rfl := (Capsule.unknown.inj hdata).2
      exact ⟨4, rfl⟩

def proposePeer : TableChange := .register ⟨4, .compressed (.v4 0x0A000009#32 4433)⟩

def cleanChunks : List Delivery :=
  [⟨[], [0x12, 1, 2]⟩, ⟨[], [0x17, 1]⟩, ⟨[proposePeer], [0x40, 0x12, 1, 4]⟩]

theorem run_reaches_clean : Reaches testCapsules cleanChunks := by
  refine (run_reaches testCapsules_wellFormed ⟨ackCapsule 2, List.mem_cons_self, rfl⟩ rfl).mpr ?_
  rintro before d ⟨after, h⟩
  rcases before with _ | ⟨first, _ | ⟨second, _ | ⟨third, rest⟩⟩⟩
  · obtain ⟨rfl, -⟩ := List.cons.inj h
    exact ⟨fun _ _ => rfl, fun hle => absurd hle (by decide)⟩
  · obtain ⟨rfl, h₂⟩ := List.cons.inj h
    obtain ⟨rfl, -⟩ := List.cons.inj h₂
    refine ⟨fun hlt => absurd hlt (by decide), ?_⟩
    intro _ newly hnewly x hx
    have hnone : [ackCapsule 2] ++ [] = [ackCapsule 2] ++ newly := hnewly
    obtain rfl := List.append_cancel_left hnone
    cases hx
  · obtain ⟨rfl, h₂⟩ := List.cons.inj h
    obtain ⟨rfl, h₃⟩ := List.cons.inj h₂
    obtain ⟨rfl, -⟩ := List.cons.inj h₃
    refine ⟨fun hlt => absurd hlt (by decide), ?_⟩
    intro _ newly hnewly x hx
    have hboth : [ackCapsule 2] ++ [reservedCapsule, ackCapsule 4] = [ackCapsule 2] ++ newly :=
      hnewly
    obtain rfl := List.append_cancel_left hboth
    obtain rfl := List.mem_singleton.mp hx
    rfl
  · simp [cleanChunks] at h

def splitChunks : List Delivery :=
  [⟨[], [0x12, 1, 2, 0x17]⟩, ⟨[], [1, 0x40]⟩, ⟨[proposePeer], [0x12, 1, 4]⟩]

theorem ack_lost_after_handover :
    WellFormed testCapsules ∧ received splitChunks = wireOf testCapsules ∧
      (run splitChunks).client.processed = [ackCapsule 2] ∧
      (run splitChunks).client.contexts.pending.lookup 4 =
        some (.compressed (.v4 0x0A000009#32 4433)) ∧
      (run splitChunks).client.contexts.binding 4 = none :=
  ⟨testCapsules_wellFormed, rfl, rfl, rfl, rfl⟩

end Whole

end Straw.Client
