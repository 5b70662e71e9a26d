import Straw.Session.Ledger
import Straw.Session.Wakeup

/-!
# Teardown of a session

Whatever ended its tunnel, a session whose handler has returned is in none of the
server's tables, and the steps that take it out of them touch no other session.
-/

namespace Straw

open Transition AddressPool
set_option autoImplicit false

/-- Nothing in the server belongs to the session. -/
structure Forgotten (s : SessionId) (hub : Hub) : Prop where
  allocations : hub.server.pool.allocations s = none
  allocated : ∀ a, hub.server.pool.allocated a ≠ some s
  clientAddrs : ∀ a, hub.server.engine.routeTable.clientAddrs a ≠ some s
  routes : ∀ r ∈ hub.server.engine.routeTable.routes, r.sessionId ≠ s
  engine : Unregistered s hub.server
  notify : hub.sessionNotify s = none
  session : hub.server.sessions.sessions.lookup s = none
  snapshot : hub.server.sessions.assigned s = none

theorem Ledger.forgotten {s : SessionId} {hub : Hub} (h : Ledger s hub.server Stage.idle.facts)
    (hnotify : hub.sessionNotify s = none) : Forgotten s hub := by
  have hheld : hub.server.pool.held s = [] := h.held (by simp [Stage.facts, Stage.phase])
  obtain ⟨installed, hsplit, hiff⟩ :=
    h.addrs (by simp [Stage.facts, Stage.phase]) (by simp [Stage.facts, Stage.phase])
  obtain ⟨rfl, -⟩ := List.append_eq_nil_iff.mp hsplit.symm
  obtain ⟨hsession, hsnapshot⟩ := h.absent rfl
  refine ⟨?_, ?_, ?_, h.routes rfl, h.engine rfl, hnotify, hsession, hsnapshot⟩
  · cases hentry : hub.server.pool.allocations s with
    | none => rfl
    | some addrs =>
      have hempty : addrs = [] := by simpa [AddressPool.held, hentry] using hheld
      exact absurd (hempty ▸ hentry) h.entry
  · intro a ha
    have hmem := (h.consistent.iff a s).mp ha
    rw [hheld] at hmem
    cases hmem
  · intro a ha
    cases (hiff a).mp ha

namespace Stage

def tearing : Stage → Bool
  | release => true
  | removeRoutes => true
  | unregister => true
  | remove => true
  | _ => false

theorem toInstall_of_tearing {stage : Stage} (h : stage.tearing = true) : stage.toInstall = [] := by
  cases stage <;> first | rfl | cases h

def isIdle : Stage → Bool
  | idle => true
  | _ => false

theorem isIdle_iff {stage : Stage} : stage.isIdle = true ↔ stage = .idle := by
  cases stage <;> simp [isIdle]

end Stage

section Steps

variable {s t : SessionId} {hub hub' : Hub} {link link' : Link} {act : LinkAct}

/-- A step of the teardown leaves what the server has for other sessions as it is. -/
theorem Link.Effect.keeps (h : link.Effect s hub act hub' link')
    (hcons : hub.server.pool.Consistent) (htearing : link.stage.tearing = true) (hts : t ≠ s) :
    Keeps t hub.server hub'.server := by
  rcases h.view with ⟨hsame, -⟩ | ⟨act', hstep⟩
  · rw [hsame]
    exact .refl t _
  · rcases (handle_operation hstep).frame hcons with ⟨a, ha, -⟩ | hkeeps
    · rw [Stage.toInstall_of_tearing htearing] at ha
      cases ha
    · exact hkeeps t hts

/-- A handler that panics does so while it sends. -/
theorem Link.Effect.panicked (h : link.Effect s hub act hub' link')
    (hbefore : link.panicked = false) :
    link'.panicked = false ∨ link'.stage.outgoing.isSome := by
  cases h with
  | start => exact Or.inl rfl
  | tick =>
    refine Or.inl ?_
    unfold Link.keep
    split <;> exact hbefore
  | unwind _ hout => exact Or.inr (by simp [hout])
  | send | enter | recv | finish | notified | refreshMtu => exact Or.inl hbefore

/-- From the end of the tunnel the handler gets through its teardown. -/
theorem teardown_solo (hpanicked : link.panicked = false) (hfuture : link.future = none)
    (hrelease : link.stage = .release) (ok : Bool) (now : Nat) :
    ∃ hub' link', Tasks.solo Link.handle s (List.replicate 4 (.tick ok now)) hub link =
      some (hub', link') ∧ link'.stage = .idle := by
  obtain ⟨stage, closed, future, capsules, sent, panicked⟩ := link
  cases hpanicked
  cases hfuture
  cases hrelease
  exact ⟨_, _, rfl, rfl⟩

end Steps

section Runs

variable {config : ProxyConfig} {ipv4 : Ipv4Net} {ipv6 : Option Ipv6Net}
  {tunTx : Option (Bytes → Bool)} {icmpSource : IcmpSource} {limits : RateLimits}
  {maxSessions timeout : Nat}

theorem panicked_run {labels : List LinkLabel} {σ : LinkSys}
    (h : Run (Fires linkStep)
      (Hub.initial config ipv4 ipv6 tunTx icmpSource limits maxSessions timeout) labels σ)
    (s : SessionId) : (σ.task s).panicked = false ∨ (σ.task s).stage.outgoing.isSome := by
  refine Tasks.run_keeps_all
    (J := fun _ _ link => link.panicked = false ∨ link.stage.outgoing.isSome)
    ?_ ?_ ?_ h (fun _ => Or.inl rfl) s
  · intro k act hub hub' link link' _ hstep
    obtain ⟨hbefore, heffect⟩ := Link.handle_effect hstep
    exact heffect.panicked hbefore
  · exact fun _ _ hi _ => hi
  · exact fun hi _ => hi

/-- A session whose handler has returned is in none of the server's tables. The steps of the
teardown change nothing of another session, and once the tunnel is over four of them bring
the handler to its return. -/
theorem teardown_complete {labels : List LinkLabel} {σ : LinkSys}
    (h : Run (Fires linkStep)
      (Hub.initial config ipv4 ipv6 tunTx icmpSource limits maxSessions timeout) labels σ)
    (s : SessionId) :
    ((σ.task s).stage = .idle → Forgotten s σ.shared) ∧
      ((σ.task s).stage.tearing = true → ∀ act τ, Fires linkStep σ (.task s act) τ → ∀ t, t ≠ s →
        Keeps t σ.shared.server τ.shared.server ∧
          τ.shared.sessionNotify t = σ.shared.sessionNotify t) ∧
      ((σ.task s).stage = .release → ∀ ok now, ∃ τ,
        Run (Fires linkStep) σ (List.replicate 4 (.task s (.tick ok now))) τ ∧
          (τ.task s).stage = .idle) := by
  obtain ⟨labels', hserver⟩ := run_server h
  have hledger : Ledger s σ.shared.server (σ.task s).stage.facts := ledger_run hserver s
  have hwired := wired_run h s
  refine ⟨?_, ?_, ?_⟩
  · intro hidle
    rw [hidle] at hledger
    exact hledger.forgotten (hwired.registered (by rw [hidle]; rfl))
  · intro htearing act τ hstep t hts
    obtain ⟨⟨hub, link⟩, hhandle, rfl⟩ := Option.map_eq_some_iff.mp hstep
    have heffect := (Link.handle_effect hhandle).2
    exact ⟨heffect.keeps hledger.consistent htearing hts, heffect.sessionNotify_of_ne hts⟩
  · intro hrelease ok now
    have hpanicked : (σ.task s).panicked = false := by
      rcases panicked_run h s with hok | hsending
      · exact hok
      · simp [hrelease, Stage.outgoing] at hsending
    have hfuture : (σ.task s).future = none := by
      rw [Option.eq_none_iff_forall_ne_some]
      intro calls hsome
      obtain ⟨t, assigned, hloop⟩ := hwired.parked calls hsome
      rw [hrelease] at hloop
      cases hloop
    obtain ⟨hub, link, hsolo, hidle⟩ := teardown_solo hpanicked hfuture hrelease ok now
    have hexec : exec linkStep σ (List.replicate 4 (.task s (.tick ok now))) = _ :=
      Tasks.exec_solo s _ σ hsolo
    refine ⟨_, run_of_exec hexec, ?_⟩
    simpa using hidle

end Runs

/-- A second address is requested and the stream fails under the answer. -/
theorem teardown_complete_failed_reply :
    ∃ σ, Run (Fires linkStep) reapingHub
        (acceptTunnel 0 ++ [.task ⟨0⟩ .enter, .task ⟨0⟩ (.recv addressRequest)] ++
          List.replicate 4 (.task ⟨0⟩ (.tick true 1)) ++
          List.replicate 5 (.task ⟨0⟩ (.tick false 1))) σ ∧
      Forgotten ⟨0⟩ σ.shared := by
  have hexec : (exec linkStep reapingHub
      (acceptTunnel 0 ++ [.task ⟨0⟩ .enter, .task ⟨0⟩ (.recv addressRequest)] ++
        List.replicate 4 (.task ⟨0⟩ (.tick true 1)) ++
        List.replicate 5 (.task ⟨0⟩ (.tick false 1)))).map
      (fun σ => (σ.task ⟨0⟩).stage.isIdle) = some true := by decide +kernel
  obtain ⟨σ, hσ, hidle⟩ := Option.map_eq_some_iff.mp hexec
  exact ⟨σ, run_of_exec hσ, (teardown_complete (run_of_exec hσ) ⟨0⟩).1 (Stage.isIdle_iff.mp hidle)⟩

end Straw
