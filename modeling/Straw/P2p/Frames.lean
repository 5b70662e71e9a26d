import Straw.P2p.Lockdown
import Straw.UdpBind.Table

/-!
# Bind datagrams there and back

Relay and client pick a context on their own, any of those that fit. Whichever they pick,
the other end finds the remote and the payload as long as its active contexts are the
same.
-/

namespace Straw

open Codec Outcome
set_option autoImplicit false

/-- No IPv6 flow label and no scope: all of the address goes on the wire. -/
def SocketAddr.Plain : SocketAddr → Prop
  | .v4 _ _ => True
  | .v6 _ _ flowinfo scopeId => flowinfo = 0 ∧ scopeId = 0

theorem SocketAddr.Plain.onWire_eq {addr : SocketAddr} (h : addr.Plain) : addr.onWire = addr := by
  cases addr with
  | v4 ip port => rfl
  | v6 ip port flowinfo scopeId =>
    obtain ⟨rfl, rfl⟩ := h
    rfl

namespace ContextTable

variable {t t' : ContextTable} {id : Nat} {remote : SocketAddr}

theorem encodeDatagram_id_lt {payload body : Bytes}
    (h : t.encodeDatagram id remote payload = .ok body) : id < 2 ^ 62 := by
  obtain ⟨head, hhead, -⟩ := bind_eq_ok.mp h
  rcases writeVarint_cases (expect_eq_ok.mp hhead) with ⟨h, -⟩ | ⟨h, -⟩ | ⟨h, -⟩ | ⟨h, -⟩ <;> omega

theorem decodeDatagram_encodeDatagram (hsame : ∀ id, t'.binding id = t.binding id)
    (hplain : remote.Plain) {payload body : Bytes}
    (hchosen : (t.compressedContextFor remote).or t.uncompressedContext = some id)
    (h : t.encodeDatagram id remote payload = .ok body) :
    t'.decodeDatagram body = .ok ⟨id, remote, payload⟩ := by
  have hid := encodeDatagram_id_lt h
  rcases binding_of_chosen hchosen with ht | ht
  · obtain ⟨body', hbody', hdecode⟩ :=
      carried_compressed hid ht ((hsame id).trans ht) remote payload
    obtain rfl := Except.ok.inj (h.symm.trans hbody')
    exact hdecode
  · obtain ⟨body', hbody', hdecode⟩ :=
      carried_uncompressed hid ht ((hsame id).trans ht) remote payload
    obtain rfl := Except.ok.inj (h.symm.trans hbody')
    rw [hplain.onWire_eq] at hdecode
    exact hdecode

end ContextTable

theorem discardErr_eq_some {ε δ α : Type} {x : Outcome ε α} {a : α}
    (h : (discardErr x : Outcome δ (Option α)) = .ok (some a)) : x = .ok a := by
  cases x with
  | ok b =>
    obtain rfl := Option.some.inj (Except.ok.inj h)
    rfl
  | error e =>
    cases e with
    | err e => cases h
    | panic => cases h

variable {t t' : ContextTable} {remote : SocketAddr}

theorem encapsulate_chosen {payload body : Bytes}
    (h : encapsulate t remote payload = .ok (some body)) :
    ∃ id, (t.compressedContextFor remote).or t.uncompressedContext = some id ∧
      t.encodeDatagram id remote payload = .ok body := by
  cases hchosen : (t.compressedContextFor remote).or t.uncompressedContext with
  | none =>
    rw [encapsulate_of_none hchosen] at h
    cases h
  | some id =>
    rw [encapsulate_of_some hchosen] at h
    exact ⟨id, rfl, discardErr_eq_some h⟩

theorem frameBind_chosen {qsid : UInt64} {payload wire : Bytes}
    (h : frameBind qsid t remote payload = .ok (some wire)) :
    ∃ id body, (t.compressedContextFor remote).or t.uncompressedContext = some id ∧
      t.encodeDatagram id remote payload = .ok body ∧
      readVarint wire = .ok (qsid.toNat, body) := by
  unfold frameBind at h
  cases hchosen : (t.compressedContextFor remote).or t.uncompressedContext with
  | none =>
    rw [hchosen] at h
    cases h
  | some id =>
    rw [hchosen] at h
    obtain ⟨framed, hframed, h⟩ := bind_eq_ok.mp h
    cases framed with
    | none => cases h
    | some body =>
      obtain ⟨head, hhead, h⟩ := bind_eq_ok.mp h
      obtain rfl := Option.some.inj (Except.ok.inj h)
      exact ⟨id, body, rfl, discardErr_eq_some hframed,
        readVarint_writeVarint (expect_eq_ok.mp hhead) body⟩

/-- Whatever relay or client frame for a remote is decoded to that remote and payload by
any table with the same active contexts, and an uncompressed context is framed as without
a table. -/
theorem boundDatagram_roundTrip (hsame : ∀ id, t'.binding id = t.binding id)
    (hplain : remote.Plain) (payload : Bytes) :
    (∀ body, encapsulate t remote payload = .ok (some body) →
      (∃ id, t'.decodeDatagram body = .ok ⟨id, remote, payload⟩) ∧
        ∀ qsid, qsid < 2 ^ 62 → ∃ head, writeVarint qsid = .ok head ∧
          readVarint (head ++ body) = .ok (qsid, body)) ∧
    (∀ qsid wire, frameBind qsid t remote payload = .ok (some wire) →
      ∃ body, readVarint wire = .ok (qsid.toNat, body) ∧
        ∃ id, t'.decodeDatagram body = .ok ⟨id, remote, payload⟩) ∧
    (∀ id, t.binding id = some .uncompressed →
      t.encodeDatagram id remote payload = encodeUncompressedBody id remote payload) ∧
    ∀ body, (∀ id rest, readVarint body = .ok (id, rest) → t.binding id = some .uncompressed) →
      t.decodeDatagram body =
        ((decodeUncompressedBody body).map fun r => ⟨r.1, r.2.1, r.2.2⟩).mapError .decode := by
  refine ⟨?_, ?_, ?_, ?_⟩
  · intro body h
    obtain ⟨id, hchosen, hencode⟩ := encapsulate_chosen h
    refine ⟨⟨id, ContextTable.decodeDatagram_encodeDatagram hsame hplain hchosen hencode⟩, ?_⟩
    intro qsid hqsid
    obtain ⟨head, hhead⟩ := writeVarint_ok hqsid
    exact ⟨head, hhead, readVarint_writeVarint hhead body⟩
  · intro qsid wire h
    obtain ⟨id, body, hchosen, hencode, hread⟩ := frameBind_chosen h
    exact ⟨body, hread, id,
      ContextTable.decodeDatagram_encodeDatagram hsame hplain hchosen hencode⟩
  · intro id h
    exact ContextTable.encodeDatagram_uncompressed h remote payload
  · intro body h
    exact ContextTable.decodeDatagram_uncompressed h

/-- `[::1]:443`. -/
def testHost : SocketAddr := .v6 1#128 443 0 0

/-- An uncompressed context and two contexts of one remote. -/
def testTable : ContextTable where
  contexts := ((AList.insert 2 .uncompressed ∅).insert 4 (.compressed testHost)).insert 6
    (.compressed testHost)
  pending := ∅

/-- The same contexts in another order, with a proposal of its own. -/
def testMirror : ContextTable where
  contexts := ((AList.insert 6 (.compressed testHost) ∅).insert 4 (.compressed testHost)).insert 2
    .uncompressed
  pending := AList.insert 8 .uncompressed ∅

theorem boundDatagram_roundTrip_testTable :
    encapsulate testTable testHost [2, 4] = .ok (some [6, 2, 4]) ∧
      ∃ id, testMirror.decodeDatagram [6, 2, 4] = .ok ⟨id, testHost, [2, 4]⟩ := by
  have hframe : encapsulate testTable testHost [2, 4] = .ok (some [6, 2, 4]) := rfl
  have hsame : ∀ id, testMirror.binding id = testTable.binding id := by
    intro id
    simp only [testMirror, testTable, ContextTable.binding]
    by_cases h2 : id = 2
    · subst h2
      rfl
    by_cases h4 : id = 4
    · subst h4
      rfl
    by_cases h6 : id = 6
    · subst h6
      rfl
    rw [AList.lookup_insert_ne h2, AList.lookup_insert_ne h4, AList.lookup_insert_ne h6,
      AList.lookup_insert_ne h6, AList.lookup_insert_ne h4, AList.lookup_insert_ne h2]
  have hplain : testHost.Plain := ⟨rfl, rfl⟩
  exact ⟨hframe, ((boundDatagram_roundTrip hsame hplain [2, 4]).1 _ hframe).1⟩

end Straw
