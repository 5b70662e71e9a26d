import Straw.P2p.Stun.Mapping

/-!
# Binding tests among stray datagrams

The network may delay, repeat and reorder the responses of an honest server and inject
datagrams of its own, as long as these do not carry the id of a transaction. A
transaction survives this exactly when nothing comes ahead of its response.
-/

namespace Straw.Stun

open Outcome Proc DatagramSocket
set_option autoImplicit false

/-- A success response to the request. -/
def Query.Answered (q : Query) (datagram : Bytes) : Prop := Matching (datagram.take 1500) q.txid

instance (q : Query) (datagram : Bytes) : Decidable (q.Answered datagram) :=
  inferInstanceAs (Decidable (Matching _ _))

/-- Only the server makes success responses with the ids of the probe. -/
def Honest (txids : List Txid) (arrivals : List (Arrival Bytes)) : Prop :=
  ∀ a ∈ arrivals, ∀ txid ∈ txids, Matching (a.datagram.take 1500) txid →
    ∃ mapped other : Ipv4Addr × UInt16, a.datagram =
      encodeBindingResponse txid (.v4 mapped.1 mapped.2) (some (.v4 other.1 other.2))

variable {txids : List Txid} {arrivals : List (Arrival Bytes)}

/-- The record of a run whose transactions have ids from `txids`. -/
abbrev Tested (txids : List Txid) (arrivals : List (Arrival Bytes)) : ProbeSocket → Prop :=
  Recorded attempts attemptTimeout (fun q => q.txid ∈ txids) arrivals

theorem exchangesKeep_tested {txid : Txid} (h : txid ∈ txids) :
    ExchangesKeep (Tested txids arrivals) txid :=
  fun _ => exchange_recorded (by decide) h

/-- A response of the server that ends its transaction ends it well. -/
theorem transactionResult_of_answered {s : ProbeSocket} {e : Exchange Query Bytes} {d : Bytes}
    (hs : Tested txids arrivals s) (hhonest : Honest txids arrivals) (he : e ∈ s.exchanges)
    (hgot : e.got = some d) (hanswered : e.request.Answered d) :
    ∃ mapped other : Ipv4Addr × UInt16,
      transactionResult e = .ok (.v4 mapped.1 mapped.2, some (.v4 other.1 other.2)) := by
  obtain ⟨a, ha, rfl⟩ := hs.arrival he hgot
  obtain ⟨mapped, other, hdatagram⟩ :=
    hhonest a ha e.request.txid (hs.request e he) hanswered
  refine ⟨mapped, other, ?_⟩
  rw [transactionResult, hgot, hdatagram]
  exact parse_answer e.request mapped.1 mapped.2 other.1 other.2

/-- The response to a transaction reaches the socket within its attempts. -/
def InTime (e : Exchange Query Bytes) : Prop :=
  ∃ d ∈ e.arrived attempts attemptTimeout, e.request.Answered d

/-- Stray datagrams do not count. -/
structure Robust (run : Outcome ProxyError NatMapping × ProbeSocket) : Prop where
  /-- No transaction is ended by anything but its response. -/
  ended : ∀ e ∈ run.2.exchanges, ∀ d, e.got = some d → e.request.Answered d
  /-- A transaction fails only when its response does not come in time. -/
  failed : ∀ e ∈ run.2.exchanges, ∀ f, transactionResult e = .error f → ¬ InTime e
  detected : (∀ e ∈ run.2.exchanges, InTime e) → ∃ m, run.1 = .ok m

/-- The first datagram to reach the socket in a transaction is its response. -/
def ResponseFirst (e : Exchange Query Bytes) : Prop :=
  ∀ d, (e.arrived attempts attemptTimeout).head? = some d → e.request.Answered d

theorem result_of_inTime {s : ProbeSocket} {e : Exchange Query Bytes}
    (hs : Tested txids arrivals s) (hhonest : Honest txids arrivals) (he : e ∈ s.exchanges)
    (hfirst : ResponseFirst e) (hin : InTime e) :
    ∃ mapped other : Ipv4Addr × UInt16,
      transactionResult e = .ok (.v4 mapped.1 mapped.2, some (.v4 other.1 other.2)) := by
  obtain ⟨d, hd, -⟩ := hin
  obtain ⟨first, hhead⟩ : ∃ first, (e.arrived attempts attemptTimeout).head? = some first := by
    cases harrived : e.arrived attempts attemptTimeout with
    | nil =>
      rw [harrived] at hd
      cases hd
    | cons first rest => exact ⟨first, rfl⟩
  exact transactionResult_of_answered hs hhonest he ((hs.got e he).trans hhead)
    (hfirst first hhead)

section Runs

variable {localAddr primary : SocketAddr} {txid₁ txid₂ txid₃ : Txid} {s : ProbeSocket}

theorem thirdTest_ok {other ma1 : SocketAddr}
    (h : ∀ e ∈ ((thirdTest primary other ma1 txid₃).exec s).2.exchanges,
      ∃ r, transactionResult e = .ok r) :
    ∃ m, ((thirdTest primary other ma1 txid₃).exec s).1 = .ok m := by
  obtain ⟨t, ht, -, hexec⟩ := thirdTest_exec primary other ma1 txid₃ s
  rw [hexec] at h ⊢
  obtain ⟨r, hr⟩ := h _ (mem_of_follows ht (Follows.refl t))
  rw [hr]
  exact ⟨_, rfl⟩

theorem secondTest_ok {other ma1 : SocketAddr}
    (h : ∀ e ∈ ((secondTest primary other ma1 txid₂ txid₃).exec s).2.exchanges,
      ∃ r, transactionResult e = .ok r) :
    ∃ m, ((secondTest primary other ma1 txid₂ txid₃).exec s).1 = .ok m := by
  obtain ⟨t, ht, -, hexec, hfollows⟩ := secondTest_exec primary other ma1 txid₂ txid₃ s
  obtain ⟨r, hr⟩ := h _ (mem_of_follows ht hfollows)
  simp only [hr] at hexec
  by_cases hsame : ma1 = r.1
  · rw [hexec, if_pos hsame]
    exact ⟨_, rfl⟩
  · rw [if_neg hsame] at hexec
    rw [hexec] at h ⊢
    exact thirdTest_ok h

/-- When every transaction brings both addresses, there is a verdict. -/
theorem detectMapping_ok
    (h : ∀ e ∈ ((detectMapping localAddr primary txid₁ txid₂ txid₃).exec s).2.exchanges,
      ∃ mapped other, transactionResult e = .ok (mapped, some other)) :
    ∃ m, ((detectMapping localAddr primary txid₁ txid₂ txid₃).exec s).1 = .ok m := by
  obtain ⟨t, ht, -, hexec, hfollows⟩ := detectMapping_exec localAddr primary txid₁ txid₂ txid₃ s
  obtain ⟨ma1, other, hr⟩ := h _ (mem_of_follows ht hfollows)
  simp only [hr] at hexec
  by_cases hsame : ma1 = localAddr
  · rw [hexec, if_pos hsame]
    exact ⟨_, rfl⟩
  · rw [if_neg hsame] at hexec
    rw [hexec] at h ⊢
    apply secondTest_ok
    intro e he
    obtain ⟨mapped, other, hr⟩ := h e he
    exact ⟨_, hr⟩

/-- The tests survive a schedule exactly when no datagram reaches the socket ahead of the
response to the transaction under way. -/
theorem detectMapping_robust (hnew : s.exchanges = [])
    (hhonest : Honest [txid₁, txid₂, txid₃] s.arrivals) :
    Robust ((detectMapping localAddr primary txid₁ txid₂ txid₃).exec s) ↔
      ∀ e ∈ ((detectMapping localAddr primary txid₁ txid₂ txid₃).exec s).2.exchanges,
        ResponseFirst e := by
  have hids : txid₁ ∈ [txid₁, txid₂, txid₃] ∧ txid₂ ∈ [txid₁, txid₂, txid₃] ∧
      txid₃ ∈ [txid₁, txid₂, txid₃] := by simp
  have hrecorded := detectMapping_maintains (exchangesKeep_tested hids.1)
    (exchangesKeep_tested hids.2.1) (exchangesKeep_tested hids.2.2) localAddr primary s
    (recorded_of_new hnew)
  constructor
  · intro h e he d hhead
    exact h.ended e he d ((hrecorded.got e he).trans hhead)
  · intro h
    refine ⟨?_, ?_, ?_⟩
    · intro e he d hgot
      exact h e he d ((hrecorded.got e he).symm.trans hgot)
    · intro e he f hfailed hin
      obtain ⟨mapped, other, hok⟩ := result_of_inTime hrecorded hhonest he (h e he) hin
      rw [hok] at hfailed
      cases hfailed
    · intro hin
      apply detectMapping_ok
      intro e he
      obtain ⟨mapped, other, hok⟩ := result_of_inTime hrecorded hhonest he (h e he) (hin e he)
      exact ⟨_, _, hok⟩

end Runs

/-- A response carries one transaction id only. -/
theorem txid_of_matching {txid id : Txid} {mapped other : Ipv4Addr × UInt16}
    (h : Matching ((encodeBindingResponse txid (.v4 mapped.1 mapped.2)
      (some (.v4 other.1 other.2))).take 1500) id) : id = txid := by
  rw [List.take_of_length_le (response_fits txid _ _ _ _)] at h
  have hheader : ∃ len body, encodeBindingResponse txid (.v4 mapped.1 mapped.2)
      (some (.v4 other.1 other.2)) = responseHeader txid len ++ body := by
    simp only [encodeBindingResponse, responseHeader, List.append_assoc]
    exact ⟨_, _, rfl⟩
  obtain ⟨len, body, heq⟩ := hheader
  rw [heq] at h
  have hbytes := h.2.2.2.symm.trans (responseHeader_matching txid len body).2.2.2
  cases id
  cases txid
  simpa using hbytes

theorem honest_cons (txid : Txid) (mapped other : Ipv4Addr × UInt16) (time : Nat)
    (h : Honest txids arrivals) :
    Honest txids (⟨time, encodeBindingResponse txid (.v4 mapped.1 mapped.2)
      (some (.v4 other.1 other.2))⟩ :: arrivals) := by
  intro a ha id hid hmatch
  rcases List.mem_cons.mp ha with rfl | hold
  · exact ⟨mapped, other, by rw [txid_of_matching hmatch]⟩
  · exact h a hold id hid hmatch

theorem honest_nil : Honest txids [] := by
  intro a ha
  cases ha

theorem honest_testSocket : Honest [testTxid, testTxid, testTxid] testSocket.arrivals :=
  honest_cons testTxid (0xCB007109#32, 50000) testAlternate 20
    (honest_cons testTxid (0xCB007109#32, 50000) testPrimary 45 honest_nil)

theorem detectMapping_robust_cone :
    Robust ((detectMapping (.v4 0#32 40000) (.v4 testPrimary.1 testPrimary.2) testTxid testTxid
      testTxid).exec testSocket) := by
  refine (detectMapping_robust rfl honest_testSocket).mpr ?_
  rw [testSocket_detects]
  intro e he d hhead
  simp only [testDone, List.mem_cons, List.not_mem_nil, or_false] at he
  rcases he with rfl | rfl
  · obtain rfl : primaryAnswer = d := Option.some.inj hhead
    decide
  · obtain rfl : alternateAnswer = d := Option.some.inj hhead
    decide

/-! The response to the first test comes after the first timeout, so there are two; the
second one is the first datagram of the second test. -/

def secondTxid : Txid := ⟨List.replicate 12 9, rfl⟩
def thirdTxid : Txid := ⟨List.replicate 12 11, rfl⟩

def secondAnswer : Bytes :=
  encodeBindingResponse secondTxid testMapped (some (.v4 testPrimary.1 testPrimary.2))

def lateSocket : ProbeSocket :=
  ⟨0, [⟨310, primaryAnswer⟩, ⟨350, primaryAnswer⟩, ⟨360, secondAnswer⟩], [], []⟩

def lateRun : Outcome ProxyError NatMapping × ProbeSocket :=
  (detectMapping (.v4 0#32 40000) (.v4 testPrimary.1 testPrimary.2) testTxid secondTxid
    thirdTxid).exec lateSocket

def lateDone : ProbeSocket :=
  let first : Query := ⟨.v4 testPrimary.1 testPrimary.2, testTxid⟩
  let second : Query := ⟨.v4 testAlternate.1 testAlternate.2, secondTxid⟩
  ⟨350, [⟨360, secondAnswer⟩], [(0, first), (300, first), (310, second)],
    [⟨first, 0, lateSocket.arrivals, some primaryAnswer⟩,
      ⟨second, 310, [⟨350, primaryAnswer⟩, ⟨360, secondAnswer⟩], some primaryAnswer⟩]⟩

theorem lateRun_eq :
    lateRun = (fail (.quic "not a matching STUN success response"), lateDone) := by
  let mid : ProbeSocket := ⟨310, [⟨350, primaryAnswer⟩, ⟨360, secondAnswer⟩],
    lateDone.sent.take 2, lateDone.exchanges.take 1⟩
  have hfirst : (binding (.v4 testPrimary.1 testPrimary.2) testTxid).exec lateSocket =
      (.ok (testMapped, some (.v4 testAlternate.1 testAlternate.2)), mid) :=
    Prod.ext (parse_answer ⟨_, testTxid⟩ _ _ _ _) rfl
  have hstray : Query.parse ⟨.v4 testAlternate.1 testAlternate.2, secondTxid⟩ primaryAnswer =
      fail (.quic "not a matching STUN success response") :=
    parse_of_not_matching (by decide +kernel) (by decide +kernel)
  have hsecond : (binding (.v4 testAlternate.1 testAlternate.2) secondTxid).exec mid =
      (fail (.quic "not a matching STUN success response"), lateDone) := Prod.ext hstray rfl
  have hlocal : ¬ testMapped = .v4 0#32 40000 := by decide
  rw [lateRun, detectMapping, exec_bind, hfirst]
  simp only [if_neg hlocal]
  rw [secondTest, exec_bind, hsecond]
  rfl

theorem late_duplicate_ends_test :
    Honest [testTxid, secondTxid, thirdTxid] lateSocket.arrivals ∧
      lateRun.2.sent.map Prod.fst = [0, 300, 310] ∧ (∀ e ∈ lateRun.2.exchanges, InTime e) ∧
      lateRun.1 = fail (.quic "not a matching STUN success response") := by
  rw [lateRun_eq]
  refine ⟨?_, rfl, ?_, rfl⟩
  · exact honest_cons testTxid (0xCB007109#32, 50000) testAlternate 310
      (honest_cons testTxid (0xCB007109#32, 50000) testAlternate 350
        (honest_cons secondTxid (0xCB007109#32, 50000) testPrimary 360 honest_nil))
  · intro e he
    simp only [lateDone, List.mem_cons, List.not_mem_nil, or_false] at he
    rcases he with rfl | rfl
    · exact ⟨primaryAnswer, by decide +kernel, by decide +kernel⟩
    · exact ⟨secondAnswer, by decide +kernel, by decide +kernel⟩

end Straw.Stun
