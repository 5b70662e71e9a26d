import Straw.Lib.Serving
import Straw.Capsule.Buffer
import Straw.P2p.Lockdown

/-!
# The capsules of a bind session

`BindClient::connect` reads the request stream until the relay acknowledges the
uncompressed context, and the pump of `into_relay_parts` reads on from there. Each has a
capsule buffer of its own. Every capsule is recorded with the bytes it was read from.
-/

namespace Straw.Client

open Outcome CapsuleBuffer Framer
set_option autoImplicit false

abbrev SentCapsule := Bytes × Capsule

def isUnknown : Capsule → Bool
  | .unknown _ _ => true
  | _ => false

/-- What the relay's capsules have done to a client so far. -/
structure BindClient where
  contexts : ContextTable
  observed : Option SocketAddr
  processed : List SentCapsule

namespace BindClient

/-- The table once `connect` has registered the uncompressed context, before it reads. -/
def awaiting : ContextTable := ⟨∅, AList.singleton firstUncompressedContext .uncompressed⟩

example : ContextTable.empty.register ⟨firstUncompressedContext, .uncompressed⟩ = .ok awaiting :=
  rfl

def initial : BindClient := ⟨awaiting, none, []⟩

def record (c : BindClient) (x : SentCapsule) : BindClient :=
  { c with processed := c.processed ++ [x] }

/-- The body of the loop in `connect`. -/
def ackStep (c : BindClient) (wire : Bytes) :
    Except DecodeError Capsule → Turn BindClient (Outcome ProxyError BindClient)
  | .error e => .stop (fail (.decode e))
  | .ok (.unknown typeId data) =>
    let c := c.record (wire, .unknown typeId data)
    if typeId = capsuleObservedAddress then
      .next { c with observed := (decodeObservedAddress data).toOption }
    else if typeId = capsuleCompressionAck then
      match decodeContextCapsule data with
      | .error e => .stop (fail (.decode e))
      | .ok id =>
        if id = firstUncompressedContext then
          .stop do
            let contexts ← expect (c.contexts.ack firstUncompressedContext)
            .ok { c with contexts }
        else .next c
    else .next c
  | .ok capsule => .next (c.record (wire, capsule))

/-- The pump applies an acknowledgement; one that it cannot read, or of a context that is
not pending, changes nothing. -/
def acknowledge (contexts : ContextTable) (capsule : Capsule) : ContextTable :=
  match capsule with
  | .unknown typeId data =>
    if typeId = capsuleCompressionAck then
      match decodeContextCapsule data with
      | .error _ => contexts
      | .ok id =>
        match contexts.ack id with
        | .error _ => contexts
        | .ok table => table
    else contexts
  | _ => contexts

def apply (c : BindClient) (x : SentCapsule) : BindClient :=
  { c.record x with contexts := acknowledge c.contexts x.2 }

/-- The body of the pump's loop, `while let Ok(Some(Capsule::Unknown { .. }))`. A capsule
of another type has left the buffer when the pattern fails. -/
def pumpStep (c : BindClient) (wire : Bytes) :
    Except DecodeError Capsule → Turn BindClient BindClient
  | .error _ => .stop c
  | .ok (.unknown typeId data) => .next (c.apply (wire, .unknown typeId data))
  | .ok capsule => .stop (c.apply (wire, capsule))

end BindClient

inductive BindPhase where
  | connecting
  | failed (fault : Fault ProxyError)
  | pumping

/-- A change of the shared table by the lockdown. -/
inductive TableChange where
  | register (assign : CompressionAssign)
  | close (contextId : Nat)

def TableChange.apply (contexts : ContextTable) : TableChange → ContextTable
  | .register assign =>
    match contexts.register assign with
    | .error _ => contexts
    | .ok table => table
  | .close contextId => contexts.close contextId

/-- A chunk of the stream, and what the lockdown did to the table before it came. -/
structure Delivery where
  changes : List TableChange
  data : Bytes

structure BindSession where
  phase : BindPhase
  capsules : CapsuleBuffer
  client : BindClient

namespace BindSession

def initial : BindSession := ⟨.connecting, .new, .initial⟩

/-- Only the pump shares its table. -/
def change (s : BindSession) (changes : List TableChange) : BindSession :=
  match s.phase with
  | .pumping =>
    { s with client := { s.client with
        contexts := changes.foldl TableChange.apply s.client.contexts } }
  | _ => s

def receive (s : BindSession) (data : Bytes) : BindSession :=
  match s.phase with
  | .connecting =>
    match framer.serve BindClient.ackStep s.client (s.capsules.push data).buf with
    | (.next client, rest) => ⟨.connecting, ⟨rest⟩, client⟩
    -- the pump starts with an empty buffer of its own
    | (.stop (.ok client), _) => ⟨.pumping, .new, client⟩
    | (.stop (.error fault), rest) => ⟨.failed fault, ⟨rest⟩, s.client⟩
  | .failed _ => s
  | .pumping =>
    let r := framer.serve BindClient.pumpStep s.client (s.capsules.push data).buf
    ⟨.pumping, ⟨r.2⟩, r.1.value⟩

def deliver (s : BindSession) (d : Delivery) : BindSession := (s.change d.changes).receive d.data

def run (ds : List Delivery) : BindSession := ds.foldl deliver initial

end BindSession

section Stream

open BindClient

def received (ds : List Delivery) : Bytes := ds.flatMap Delivery.data

def wireOf (stream : List SentCapsule) : Bytes := stream.flatMap Prod.fst

/-- A COMPRESSION_ACK of the uncompressed context. -/
def acksUncompressed : Capsule → Bool
  | .unknown typeId data =>
    match decodeContextCapsule data with
    | .error _ => false
    | .ok id => typeId == capsuleCompressionAck && id == firstUncompressedContext
  | _ => false

/-- Complete capsules, and every COMPRESSION_ACK among them can be read. -/
structure WellFormed (stream : List SentCapsule) : Prop where
  frames : ∀ x ∈ stream, framer.Frame x.1 (.ok x.2)
  acks : ∀ x ∈ stream, ∀ data, x.2 = .unknown capsuleCompressionAck data →
    ∃ id, decodeContextCapsule data = .ok id

/-- The stream up to the acknowledgement that `connect` waits for. -/
def untilAck (stream : List SentCapsule) : List SentCapsule :=
  cutAfter (fun x => acksUncompressed x.2) stream

/-- The capsules that are complete after the first `n` bytes. -/
def arrived (stream : List SentCapsule) (n : Nat) : List SentCapsule :=
  completed Prod.fst stream n

/-- At every wait the capsules processed are those of the stream that are complete, and
the acknowledgements among the new ones have been applied to the table. -/
structure Reaches (stream : List SentCapsule) (ds : List Delivery) : Prop where
  processed : ∀ before, before <+: ds →
    (BindSession.run before).client.processed = arrived stream (received before).length
  applied : ∀ before d newly, before ++ [d] <+: ds →
    arrived stream (received (before ++ [d])).length =
      arrived stream (received before).length ++ newly →
    (BindSession.run (before ++ [d])).client.contexts =
      (newly.map Prod.snd).foldl acknowledge
        ((BindSession.run before).change d.changes).client.contexts

/-- A chunk that no loop leaves unread bytes behind: the acknowledgement that ends
`connect` ends its chunk, and in a later chunk only the last capsule that it completes may
be of a known type. -/
structure CleanCut (stream : List SentCapsule) (got data : Bytes) : Prop where
  handover : got.length < (wireOf (untilAck stream)).length →
    (wireOf (untilAck stream)).length ≤ (got ++ data).length →
    (got ++ data).length = (wireOf (untilAck stream)).length
  known : (wireOf (untilAck stream)).length ≤ got.length →
    ∀ newly, arrived stream (got ++ data).length = arrived stream got.length ++ newly →
      ∀ x ∈ newly.dropLast, isUnknown x.2 = true

end Stream

namespace BindClient

/-- What the loop in `connect` does with a capsule that does not end it. -/
def note (c : BindClient) (x : SentCapsule) : BindClient :=
  match x.2 with
  | .unknown typeId data =>
    if typeId = capsuleObservedAddress then
      { c.record x with observed := (decodeObservedAddress data).toOption }
    else c.record x
  | _ => c.record x

theorem note_contexts (c : BindClient) (x : SentCapsule) : (c.note x).contexts = c.contexts := by
  unfold note
  split
  · split <;> rfl
  · rfl

theorem note_processed (c : BindClient) (x : SentCapsule) :
    (c.note x).processed = c.processed ++ [x] := by
  unfold note
  split
  · split <;> rfl
  · rfl

theorem foldl_note (c : BindClient) (xs : List SentCapsule) :
    (xs.foldl note c).contexts = c.contexts ∧ (xs.foldl note c).processed = c.processed ++ xs := by
  induction xs generalizing c with
  | nil => simp
  | cons x xs ih =>
    rw [List.foldl_cons, (ih (c.note x)).1, (ih (c.note x)).2, note_contexts, note_processed,
      List.append_assoc]
    exact ⟨rfl, rfl⟩

theorem foldl_apply (c : BindClient) (xs : List SentCapsule) :
    (xs.foldl apply c).contexts = (xs.map Prod.snd).foldl acknowledge c.contexts ∧
      (xs.foldl apply c).processed = c.processed ++ xs := by
  induction xs generalizing c with
  | nil => simp
  | cons x xs ih =>
    rw [List.foldl_cons, (ih (c.apply x)).1, (ih (c.apply x)).2]
    exact ⟨rfl, List.append_assoc _ _ _⟩

theorem pumpStep_eq (c : BindClient) (x : SentCapsule) :
    pumpStep c x.1 (.ok x.2) =
      if !isUnknown x.2 then .stop (c.apply x) else .next (c.apply x) := by
  obtain ⟨wire, capsule⟩ := x
  cases capsule with
  | addressAssign _ => rfl
  | addressRequest _ => rfl
  | routeAdvertisement _ => rfl
  | unknown _ _ => rfl

theorem pumpStep_length (c : BindClient) (wire : Bytes) (r : Except DecodeError Capsule) :
    (wireOf (pumpStep c wire r).value.processed).length ≤
      (wireOf c.processed).length + wire.length := by
  cases r with
  | error e => exact Nat.le_add_right _ _
  | ok capsule =>
    have happly : (pumpStep c wire (.ok capsule)).value = c.apply (wire, capsule) := by
      rw [pumpStep_eq c (wire, capsule)]
      cases isUnknown capsule with
      | true => rfl
      | false => rfl
    rw [happly]
    simp [apply, record, wireOf]

variable {stream : List SentCapsule} {x : SentCapsule}

theorem ackStep_next (h : WellFormed stream) (hx : x ∈ stream)
    (hack : acksUncompressed x.2 = false) (c : BindClient) :
    ackStep c x.1 (.ok x.2) = .next (c.note x) := by
  obtain ⟨wire, capsule⟩ := x
  cases capsule with
  | addressAssign _ => rfl
  | addressRequest _ => rfl
  | routeAdvertisement _ => rfl
  | unknown typeId data =>
    simp only [ackStep, note]
    by_cases hobserved : typeId = capsuleObservedAddress
    · rw [if_pos hobserved, if_pos hobserved]
    · rw [if_neg hobserved, if_neg hobserved]
      by_cases htype : typeId = capsuleCompressionAck
      · obtain ⟨id, hid⟩ := h.acks _ hx data (by rw [htype])
        have hother : ¬ id = firstUncompressedContext := by
          rintro rfl
          simp [acksUncompressed, hid, htype] at hack
        rw [if_pos htype, hid]
        simp only [if_neg hother]
      · rw [if_neg htype]

theorem acks_spec (h : acksUncompressed x.2 = true) :
    ∃ data, x.2 = .unknown capsuleCompressionAck data ∧
      decodeContextCapsule data = .ok firstUncompressedContext := by
  obtain ⟨wire, capsule⟩ := x
  cases capsule with
  | addressAssign _ => cases h
  | addressRequest _ => cases h
  | routeAdvertisement _ => cases h
  | unknown typeId data =>
    simp only [acksUncompressed] at h
    cases hid : decodeContextCapsule data with
    | error e => simp [hid] at h
    | ok id =>
      simp only [hid, Bool.and_eq_true, beq_iff_eq] at h
      exact ⟨data, by rw [h.1], by rw [hid, h.2]⟩

theorem ackStep_stop (hack : acksUncompressed x.2 = true) {c : BindClient}
    (hc : c.contexts = awaiting) :
    ackStep c x.1 (.ok x.2) =
      .stop (.ok { c.record x with contexts := LockdownSys.uncompressedOnly }) := by
  obtain ⟨data, hcapsule, hid⟩ := acks_spec hack
  obtain ⟨wire, capsule⟩ := x
  obtain rfl : capsule = .unknown capsuleCompressionAck data := hcapsule
  have hobserved : ¬ capsuleCompressionAck = capsuleObservedAddress := by decide
  simp only [ackStep, if_neg hobserved, if_pos, hid, record, hc]
  rfl

theorem acknowledge_ack (hack : acksUncompressed x.2 = true) :
    acknowledge awaiting x.2 = LockdownSys.uncompressedOnly := by
  obtain ⟨data, hcapsule, hid⟩ := acks_spec hack
  simp only [hcapsule, acknowledge, if_pos, hid]
  rfl

/-- While `connect` waits, no other acknowledgement could change the table. -/
theorem acknowledge_awaiting {capsule : Capsule} (hack : acksUncompressed capsule = false) :
    acknowledge awaiting capsule = awaiting := by
  cases capsule with
  | addressAssign _ => rfl
  | addressRequest _ => rfl
  | routeAdvertisement _ => rfl
  | unknown typeId data =>
    simp only [acknowledge]
    by_cases htype : typeId = capsuleCompressionAck
    · rw [if_pos htype]
      cases hid : decodeContextCapsule data with
      | error e => rfl
      | ok id =>
        have hother : id ≠ firstUncompressedContext := by
          rintro rfl
          simp [acksUncompressed, hid, htype] at hack
        have hnone : awaiting.pending.lookup id = none := by
          rw [AList.lookup_eq_none]
          intro hmem
          exact hother (List.mem_singleton.mp hmem)
        simp only [ContextTable.ack, hnone]
    · rw [if_neg htype]

theorem foldl_acknowledge_awaiting {xs : List SentCapsule}
    (h : ∀ x ∈ xs, acksUncompressed x.2 = false) :
    (xs.map Prod.snd).foldl acknowledge awaiting = awaiting := by
  induction xs with
  | nil => rfl
  | cons x xs ih =>
    rw [List.map_cons, List.foldl_cons, acknowledge_awaiting (h x List.mem_cons_self)]
    exact ih fun y hy => h y (List.mem_cons_of_mem x hy)

end BindClient

end Straw.Client
