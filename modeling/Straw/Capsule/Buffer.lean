import Straw.Capsule.Wire
import Straw.Lib.Framing

/-!
# The capsule buffer

The two varints in front of a payload and the payload itself are a block that does not
depend on what follows, so the capsules of a stream do not depend on how the stream is
cut into chunks.
-/

namespace Straw

open Codec
set_option autoImplicit false

theorem readVarint_block {buf rest : Bytes} {val : Nat} (h : readVarint buf = .ok (val, rest)) :
    ∃ head, buf = head ++ rest ∧ ∀ more, readVarint (head ++ more) = .ok (val, more) := by
  cases buf with
  | nil => cases h
  | cons first tail =>
    simp only [readVarint] at h
    split at h
    · cases h
    · rename_i hlong
      obtain ⟨rfl, rfl⟩ := Prod.mk.inj (Except.ok.inj h)
      have hlen := List.length_take_of_le (Nat.le_of_not_lt hlong)
      refine ⟨first :: tail.take (1 <<< (first >>> 6).toNat - 1), by simp, ?_⟩
      intro more
      have hfits : ¬ (tail.take (1 <<< (first >>> 6).toNat - 1) ++ more).length <
          1 <<< (first >>> 6).toNat - 1 := by
        rw [List.length_append, hlen]
        omega
      simp only [List.cons_append, readVarint, if_neg hfits, List.take_left' hlen,
        List.drop_left' hlen]

/-- Type, payload and remainder of a buffer that starts with a complete capsule. -/
def envelope (buf : Bytes) : Option (Nat × Bytes × Bytes) :=
  match readVarint buf with
  | .error _ => none
  | .ok (capsuleType, view) =>
    match readVarint view with
    | .error _ => none
    | .ok (capsuleLength, view) =>
      if view.length < capsuleLength then none
      else some (capsuleType, view.take capsuleLength, view.drop capsuleLength)

theorem envelope_block {buf payload rest : Bytes} {capsuleType : Nat}
    (h : envelope buf = some (capsuleType, payload, rest)) :
    ∃ frame, buf = frame ++ rest ∧
      ∀ more, envelope (frame ++ more) = some (capsuleType, payload, more) := by
  unfold envelope at h
  split at h
  · cases h
  · rename_i type view htype
    split at h
    · cases h
    · rename_i length view' hlength
      split at h
      · cases h
      · rename_i hlong
        obtain ⟨rfl, hpair⟩ := Prod.mk.inj (Option.some.inj h)
        obtain ⟨rfl, rfl⟩ := Prod.mk.inj hpair
        obtain ⟨front, rfl, hfront⟩ := readVarint_block htype
        obtain ⟨back, rfl, hback⟩ := readVarint_block hlength
        have hlen := List.length_take_of_le (Nat.le_of_not_lt hlong)
        refine ⟨front ++ (back ++ view'.take length), by simp, ?_⟩
        intro more
        have hfits : ¬ (view'.take length ++ more).length < length := by
          rw [List.length_append, hlen]
          omega
        simp only [envelope, List.append_assoc, hfront, hback, if_neg hfits,
          List.take_left' hlen, List.drop_left' hlen]

theorem nextCapsule_eq (buf : Bytes) :
    nextCapsule buf = match envelope buf with
      | none => (.ok none, buf)
      | some (capsuleType, payload, rest) =>
        ((decodePayload capsuleType payload).map some, rest) := by
  unfold nextCapsule envelope
  cases htype : readVarint buf with
  | error e => rfl
  | ok p =>
    obtain ⟨type, view⟩ := p
    simp only
    cases hlength : readVarint view with
    | error e => rfl
    | ok q =>
      obtain ⟨length, view'⟩ := q
      by_cases hshort : view'.length < length
      · simp only [if_pos hshort]
      · have hdecode : decodeCapsule buf =
            (decodePayload type (view'.take length)).map fun c => (c, view'.drop length) := by
          simp only [decodeCapsule, htype, hlength, bind, Except.bind, if_neg hshort]
          rfl
        simp only [if_neg hshort, hdecode]
        cases decodePayload type (view'.take length) with
        | error e => rfl
        | ok capsule => rfl

theorem nextCapsule_payload {capsuleType : Nat} {type length payload : Bytes}
    (htype : writeVarint capsuleType = .ok type)
    (hlength : writeVarint payload.length = .ok length) (rest : Bytes) :
    nextCapsule (type ++ length ++ payload ++ rest) =
      ((decodePayload capsuleType payload).map some, rest) := by
  have hread : readVarint (type ++ length ++ payload ++ rest) =
      .ok (capsuleType, length ++ (payload ++ rest)) := by
    simp only [List.append_assoc, readVarint_writeVarint htype]
  have hfits : ¬ (payload ++ rest).length < payload.length := by simp
  have henvelope : envelope (type ++ length ++ payload ++ rest) =
      some (capsuleType, payload, rest) := by
    simp only [envelope, hread, readVarint_writeVarint hlength, if_neg hfits, List.take_left,
      List.drop_left]
  rw [nextCapsule_eq, henvelope]

theorem nextCapsule_waits {buf rest : Bytes} (h : nextCapsule buf = (.ok none, rest)) :
    rest = buf := by
  rw [nextCapsule_eq] at h
  split at h
  · exact (Prod.mk.inj h).2.symm
  · rename_i capsuleType payload rest' _
    cases hpayload : decodePayload capsuleType payload with
    | error e => simp [hpayload, Except.map] at h
    | ok capsule => simp [hpayload, Except.map] at h

theorem nextCapsule_block {buf rest : Bytes} {r : Except DecodeError (Option Capsule)}
    (h : nextCapsule buf = (r, rest)) (hr : r ≠ .ok none) :
    ∃ frame, buf = frame ++ rest ∧ ∀ more, nextCapsule (frame ++ more) = (r, more) := by
  rw [nextCapsule_eq] at h
  split at h
  · exact absurd (Prod.mk.inj h).1.symm hr
  · rename_i capsuleType payload rest' henvelope
    obtain ⟨rfl, rfl⟩ := Prod.mk.inj h
    obtain ⟨frame, hbuf, hmore⟩ := envelope_block henvelope
    refine ⟨frame, hbuf, ?_⟩
    intro more
    rw [nextCapsule_eq, hmore]

structure CapsuleBuffer where
  buf : Bytes
deriving DecidableEq

namespace CapsuleBuffer

def new : CapsuleBuffer := ⟨[]⟩

def push (b : CapsuleBuffer) (chunk : Bytes) : CapsuleBuffer := ⟨b.buf ++ chunk⟩

def nextCapsule (b : CapsuleBuffer) : Except DecodeError (Option Capsule) × CapsuleBuffer :=
  let r := Straw.nextCapsule b.buf
  (r.1, ⟨r.2⟩)

def framer : Framer UInt8 Capsule DecodeError where
  next := Straw.nextCapsule
  starts := rfl
  waits := nextCapsule_waits
  block := nextCapsule_block

abbrev Reading := Framer.Reading UInt8 Capsule DecodeError

/-- `while let Some(capsule) = capsules.next_capsule()?`. -/
def drain (b : CapsuleBuffer) : Reading := framer.drain b.buf

/-- Push the chunks one by one and drain the buffer after each, up to the first error. -/
def receive : CapsuleBuffer → List Bytes → Reading
  | b, [] => ⟨[], none, b.buf⟩
  | b, chunk :: chunks =>
    let r := (b.push chunk).drain
    match r.error with
    | some _ => r
    | none => (receive ⟨r.rest⟩ chunks).after r.messages

theorem receive_eq_read (b : CapsuleBuffer) (chunks : List Bytes) :
    b.receive chunks = framer.read b.buf chunks := by
  induction chunks generalizing b with
  | nil => rfl
  | cons chunk chunks ih =>
    have hdrain : (b.push chunk).drain = framer.drain (b.buf ++ chunk) := rfl
    simp only [receive, Framer.read, ih, hdrain]
    cases (framer.drain (b.buf ++ chunk)).error with
    | none => rfl
    | some e => rfl

theorem receive_new (chunks : List Bytes) :
    (new.receive chunks).messages = (CapsuleBuffer.mk chunks.flatten).drain.messages ∧
      (new.receive chunks).error = (CapsuleBuffer.mk chunks.flatten).drain.error ∧
      ((new.receive chunks).error = none →
        (new.receive chunks).rest = (CapsuleBuffer.mk chunks.flatten).drain.rest) :=
  receive_eq_read new chunks ▸ Framer.read_eq_drain (f := framer) rfl chunks

/-- Two ways of cutting a stream give the same capsules and the same first error. Without
an error the bytes left over are what follows the last complete capsule, and a buffer
that waits is not touched. -/
theorem receive_chunking {chunks chunks' : List Bytes} (h : chunks.flatten = chunks'.flatten) :
    (new.receive chunks).messages = (new.receive chunks').messages ∧
      (new.receive chunks).error = (new.receive chunks').error ∧
      ((new.receive chunks).error = none →
        (new.receive chunks).rest = (new.receive chunks').rest ∧
        (∃ frames : List Bytes, chunks.flatten = frames.flatten ++ (new.receive chunks).rest ∧
          List.Forall₂ (fun frame c => Straw.nextCapsule frame = (.ok (some c), [])) frames
            (new.receive chunks).messages) ∧
        Straw.nextCapsule (new.receive chunks).rest = (.ok none, (new.receive chunks).rest)) ∧
      ∀ b b' : CapsuleBuffer, b.nextCapsule = (.ok none, b') → b' = b := by
  obtain ⟨hmessages, herror, hrest⟩ := receive_new chunks
  obtain ⟨hmessages', herror', hrest'⟩ := receive_new chunks'
  rw [← h] at hmessages' herror' hrest'
  refine ⟨hmessages.trans hmessages'.symm, herror.trans herror'.symm, ?_, ?_⟩
  · intro hnone
    have hclean : (CapsuleBuffer.mk chunks.flatten).drain.error = none := herror ▸ hnone
    rw [hmessages, hrest hnone, hrest' (herror'.trans hclean)]
    exact ⟨rfl, Framer.drain_frames (f := framer) hclean, Framer.drain_dry (f := framer) hclean⟩
  · intro b b' hwait
    obtain ⟨hresult, rfl⟩ := Prod.mk.inj hwait
    have hsame : (Straw.nextCapsule b.buf).2 = b.buf := nextCapsule_waits (Prod.ext hresult rfl)
    exact congrArg CapsuleBuffer.mk hsame

/-- An unknown capsule, an empty ADDRESS_ASSIGN and the first byte of a third capsule. -/
def testStream : Bytes := [0x1f, 2, 7, 8, 1, 0, 3]

theorem receive_chunking_single_bytes :
    (new.receive [testStream, []]).messages =
        (new.receive (testStream.map fun b => [b])).messages ∧
      (new.receive (testStream.map fun b => [b])).rest = [3] := by
  have hsame : (testStream.map fun b => [b]).flatten = [testStream, []].flatten := by decide
  exact ⟨(receive_chunking hsame).1.symm, by decide +kernel⟩

end CapsuleBuffer

end Straw
