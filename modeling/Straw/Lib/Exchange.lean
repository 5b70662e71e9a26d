import Straw.Lib.Outcome

/-!
# Request and response over a datagram socket

A client sends a request and waits for a datagram. When none comes in time it sends the
request again, up to a number of attempts, and it takes the first datagram that comes,
whatever it is. The datagrams that will reach the socket are given in their order, each
with its time. The windows of the attempts follow each other without a gap, so all of
them together are one long wait.
-/

set_option autoImplicit false

universe u v

structure Arrival (δ : Type u) where
  time : Nat
  datagram : δ

section Window

variable {δ : Type u}

/-- The datagrams that reach the socket up to a moment. -/
def Arrival.upTo (arrivals : List (Arrival δ)) (deadline : Nat) : List δ :=
  (arrivals.takeWhile fun a => a.time ≤ deadline).map Arrival.datagram

theorem Arrival.upTo_cons (a : Arrival δ) (arrivals : List (Arrival δ)) (deadline : Nat) :
    upTo (a :: arrivals) deadline =
      if a.time ≤ deadline then a.datagram :: upTo arrivals deadline else [] := by
  by_cases h : a.time ≤ deadline
  · simp [upTo, h]
  · simp [upTo, h]

theorem Arrival.mem_of_mem_upTo {arrivals : List (Arrival δ)} {deadline : Nat} {d : δ}
    (h : d ∈ upTo arrivals deadline) : ∃ a ∈ arrivals, a.datagram = d := by
  obtain ⟨a, ha, rfl⟩ := List.mem_map.mp h
  exact ⟨a, (List.takeWhile_sublist _).subset ha, rfl⟩

end Window

/-- The record of an exchange: when it began, what was still to come then, and what it
took. -/
structure Exchange (ρ : Type u) (δ : Type u) where
  request : ρ
  start : Nat
  pending : List (Arrival δ)
  got : Option δ

/-- The datagrams that reach the socket during an exchange. -/
def Exchange.arrived {ρ δ : Type u} (e : Exchange ρ δ) (attempts timeout : Nat) : List δ :=
  Arrival.upTo e.pending (e.start + attempts * timeout)

/-- The clock, the datagrams still to come, the requests sent so far with their times,
and the record of the exchanges that are over. -/
structure DatagramSocket (ρ : Type u) (δ : Type u) where
  clock : Nat
  arrivals : List (Arrival δ)
  sent : List (Nat × ρ)
  exchanges : List (Exchange ρ δ)

namespace DatagramSocket

open Arrival

variable {ρ δ : Type u} {ε : Type v}

def send (s : DatagramSocket ρ δ) (request : ρ) : DatagramSocket ρ δ :=
  { s with sent := s.sent ++ [(s.clock, request)] }

/-- Wait for a datagram, for `timeout` at most. -/
def recv (s : DatagramSocket ρ δ) (timeout : Nat) : Option δ × DatagramSocket ρ δ :=
  match s.arrivals with
  | [] => (none, { s with clock := s.clock + timeout })
  | a :: rest =>
    if a.time ≤ s.clock + timeout then
      (some a.datagram, { s with clock := max s.clock a.time, arrivals := rest })
    else (none, { s with clock := s.clock + timeout })

def attempt (request : ρ) (timeout : Nat) :
    Nat → DatagramSocket ρ δ → Option δ × DatagramSocket ρ δ
  | 0, s => (none, s)
  | n + 1, s =>
    match (s.send request).recv timeout with
    | (some d, t) => (some d, t)
    | (none, t) => attempt request timeout n t

def exchange (attempts timeout : Nat) (request : ρ) :
    Proc (DatagramSocket ρ δ) ε (Option δ) := fun s =>
  let r := attempt request timeout attempts s
  (.ok r.1, { r.2 with exchanges := r.2.exchanges ++ [⟨request, s.clock, s.arrivals, r.1⟩] })

/-- Nothing comes for the whole window, or the first datagram is taken. -/
theorem recv_cases (s : DatagramSocket ρ δ) (timeout : Nat) :
    (upTo s.arrivals (s.clock + timeout) = [] ∧
        s.recv timeout = (none, { s with clock := s.clock + timeout })) ∨
      ∃ a rest, s.arrivals = a :: rest ∧ a.time ≤ s.clock + timeout ∧
        s.recv timeout =
          (some a.datagram, { s with clock := max s.clock a.time, arrivals := rest }) := by
  unfold recv
  cases s.arrivals with
  | nil => exact Or.inl ⟨rfl, rfl⟩
  | cons a rest =>
    by_cases hin : a.time ≤ s.clock + timeout
    · exact Or.inr ⟨a, rest, rfl, hin, if_pos hin⟩
    · refine Or.inl ⟨?_, if_neg hin⟩
      rw [upTo_cons, if_neg hin]

/-- What the attempts take is the first datagram to come before the last window ends. -/
theorem attempt_fst (request : ρ) (timeout n : Nat) (s : DatagramSocket ρ δ) (hn : 0 < n) :
    (attempt request timeout n s).1 = (upTo s.arrivals (s.clock + n * timeout)).head? := by
  induction n generalizing s with
  | zero => omega
  | succ n ih =>
    have hlast : s.clock + timeout ≤ s.clock + (n + 1) * timeout := by
      rw [Nat.succ_mul]
      omega
    rw [attempt]
    rcases recv_cases (s.send request) timeout with ⟨hnone, hrecv⟩ | ⟨a, rest, hs, hin, hrecv⟩
    · rw [hrecv]
      simp only [send] at hnone ⊢
      by_cases hmore : 0 < n
      · rw [ih _ hmore, Nat.add_assoc, Nat.succ_mul, Nat.add_comm timeout]
      · obtain rfl : n = 0 := by omega
        rw [attempt, Nat.zero_add, Nat.one_mul, hnone, List.head?_nil]
    · rw [hrecv]
      simp only [send] at hs hin
      rw [hs, upTo_cons, if_pos (by omega), List.head?_cons]

/-- What the attempts leave: the arrivals behind the datagram taken. -/
theorem attempt_snd (request : ρ) (timeout n : Nat) (s : DatagramSocket ρ δ) :
    (attempt request timeout n s).2.arrivals <:+ s.arrivals ∧
      (attempt request timeout n s).2.exchanges = s.exchanges := by
  induction n generalizing s with
  | zero => exact ⟨List.suffix_refl _, rfl⟩
  | succ n ih =>
    rw [attempt]
    rcases recv_cases (s.send request) timeout with ⟨-, hrecv⟩ | ⟨a, rest, hs, -, hrecv⟩
    · rw [hrecv]
      exact ih _
    · rw [hrecv]
      have hsplit : s.arrivals = a :: rest := hs
      exact ⟨hsplit ▸ List.suffix_cons a rest, rfl⟩

/-- The record that an exchange leaves. -/
def record (attempts timeout : Nat) (request : ρ) (s : DatagramSocket ρ δ) : Exchange ρ δ :=
  ⟨request, s.clock, s.arrivals, (upTo s.arrivals (s.clock + attempts * timeout)).head?⟩

theorem got_record (attempts timeout : Nat) (request : ρ) (s : DatagramSocket ρ δ) :
    (record attempts timeout request s).got =
      ((record attempts timeout request s).arrived attempts timeout).head? := rfl

theorem exchange_exec {attempts : Nat} (h : 0 < attempts) (timeout : Nat) (request : ρ)
    (s : DatagramSocket ρ δ) :
    ∃ t, (exchange attempts timeout request : Proc (DatagramSocket ρ δ) ε _).exec s =
        (.ok (record attempts timeout request s).got, t) ∧
      t.exchanges = s.exchanges ++ [record attempts timeout request s] ∧
      t.arrivals <:+ s.arrivals := by
  have hgot := attempt_fst request timeout attempts s h
  obtain ⟨harrivals, hexchanges⟩ := attempt_snd request timeout attempts s
  have hexec : (exchange attempts timeout request : Proc (DatagramSocket ρ δ) ε _).exec s =
      (.ok (record attempts timeout request s).got,
        { (attempt request timeout attempts s).2 with
          exchanges := s.exchanges ++ [record attempts timeout request s] }) := by
    simp only [Proc.exec, exchange, record, hgot, hexchanges]
  exact ⟨_, hexec, rfl, harrivals⟩

/-! What every client keeps that only works through exchanges -/

/-- The record grows and the datagrams still to come are some of those before. -/
def Follows (s t : DatagramSocket ρ δ) : Prop :=
  s.exchanges <+: t.exchanges ∧ t.arrivals <:+ s.arrivals

theorem Follows.refl (s : DatagramSocket ρ δ) : Follows s s :=
  ⟨List.prefix_refl _, List.suffix_refl _⟩

theorem Follows.trans {s t u : DatagramSocket ρ δ} (h : Follows s t) (h' : Follows t u) :
    Follows s u :=
  ⟨h.1.trans h'.1, h'.2.trans h.2⟩

theorem mem_of_follows {s t u : DatagramSocket ρ δ} {e : Exchange ρ δ}
    (ht : t.exchanges = s.exchanges ++ [e]) (h : Follows t u) : e ∈ u.exchanges := by
  apply h.1.subset
  rw [ht]
  exact List.mem_append_right _ (List.mem_singleton_self e)

theorem exchange_follows {attempts : Nat} (h : 0 < attempts) (timeout : Nat) (request : ρ)
    (s : DatagramSocket ρ δ) :
    (exchange attempts timeout request : Proc (DatagramSocket ρ δ) ε _).Maintains (Follows s) := by
  intro t ht
  obtain ⟨u, hexec, hexchanges, harrivals⟩ := exchange_exec (ε := ε) h timeout request t
  rw [hexec]
  exact ht.trans ⟨⟨_, hexchanges.symm⟩, harrivals⟩

/-- What is known of the record of a run that began with `arrivals` to come and sent only
requests that satisfy `P`. -/
structure Recorded (attempts timeout : Nat) (P : ρ → Prop) (arrivals : List (Arrival δ))
    (s : DatagramSocket ρ δ) : Prop where
  suffix : s.arrivals <:+ arrivals
  pending : ∀ e ∈ s.exchanges, e.pending <:+ arrivals
  request : ∀ e ∈ s.exchanges, P e.request
  got : ∀ e ∈ s.exchanges, e.got = (e.arrived attempts timeout).head?

variable {attempts timeout : Nat} {P : ρ → Prop} {arrivals : List (Arrival δ)}

theorem recorded_of_new {s : DatagramSocket ρ δ} (h : s.exchanges = []) :
    Recorded attempts timeout P s.arrivals s := by
  refine ⟨List.suffix_refl _, ?_, ?_, ?_⟩
  all_goals
    rw [h]
    intro e he
    cases he

theorem exchange_recorded (h : 0 < attempts) {request : ρ} (hrequest : P request) :
    (exchange attempts timeout request : Proc (DatagramSocket ρ δ) ε _).Maintains
      (Recorded attempts timeout P arrivals) := by
  intro s hs
  obtain ⟨t, hexec, hexchanges, harrivals⟩ := exchange_exec (ε := ε) h timeout request s
  rw [hexec]
  refine ⟨harrivals.trans hs.suffix, ?_, ?_, ?_⟩
  all_goals
    rw [hexchanges]
    intro e he
    rcases List.mem_append.mp he with hold | hnew
  · exact hs.pending e hold
  · obtain rfl := List.mem_singleton.mp hnew
    exact hs.suffix
  · exact hs.request e hold
  · obtain rfl := List.mem_singleton.mp hnew
    exact hrequest
  · exact hs.got e hold
  · obtain rfl := List.mem_singleton.mp hnew
    exact got_record _ _ _ _

/-- A datagram that an exchange took was among those to come. -/
theorem Recorded.arrival {s : DatagramSocket ρ δ} (hs : Recorded attempts timeout P arrivals s)
    {e : Exchange ρ δ} (he : e ∈ s.exchanges) {d : δ} (hgot : e.got = some d) :
    ∃ a ∈ arrivals, a.datagram = d := by
  have hhead := (hs.got e he).symm.trans hgot
  obtain ⟨a, ha, hdatagram⟩ := Arrival.mem_of_mem_upTo (List.mem_of_head? hhead)
  exact ⟨a, (hs.pending e he).subset ha, hdatagram⟩

end DatagramSocket
