import Straw.Session.Link
import Straw.Session.Ownership

/-!
# Waking a session whose engine entry is gone

`notify_waiters` reaches the futures that exist when it is called and leaves nothing for
later ones. A reaped session therefore ends only if its handler was in its select when
the reaper called, and if the select then takes the branch that was woken.
-/

namespace Straw

open Transition
set_option autoImplicit false

namespace Hub

variable (hub : Hub) (s : SessionId)

@[simp] theorem withServer_sessionNotify (server : Server) :
    (hub.withServer server).sessionNotify = hub.sessionNotify := rfl

@[simp] theorem withServer_notifyCalls (server : Server) :
    (hub.withServer server).notifyCalls = hub.notifyCalls := rfl

theorem notifyWaiters_sessionNotify :
    (hub.notifyWaiters s).sessionNotify = hub.sessionNotify.remove s := by
  unfold notifyWaiters
  split
  · rename_i hnone
    funext t
    rw [Table.remove_apply]
    split
    · rename_i ht
      exact ht ▸ hnone
    · rfl
  · rfl

theorem notifyCalls_le (n : Nat) : hub.notifyCalls n ≤ (hub.notifyWaiters s).notifyCalls n := by
  unfold notifyWaiters
  split
  · exact Nat.le_refl _
  · rename_i m _
    by_cases hn : n = m
    · simp [hn]
    · simp [Function.update_of_ne hn]

theorem notifyCalls_lt {hub : Hub} {s : SessionId} {n : Nat} (h : hub.sessionNotify s = some n) :
    hub.notifyCalls n < (hub.notifyWaiters s).notifyCalls n := by
  simp [notifyWaiters, h]

end Hub

namespace Stage

/-- The handler is registered and has not ended its tunnel. -/
def listening : Stage → Bool
  | publish _ _ => true
  | loop _ _ => true
  | capsules _ _ _ => true
  | request _ _ _ _ => true
  | installOne _ _ _ _ _ => true
  | reply _ _ _ => true
  | _ => false

theorem listening_orTeardown {ok : Bool} {next : Stage}
    (h : (orTeardown ok next).listening = true) : next.listening = true := by
  unfold orTeardown at h
  split at h
  · exact h
  · cases h

theorem tick_listening {s : SessionId} {srv srv' : Server} {stage stage' : Stage} {ok : Bool}
    {now : Nat} (h : stage.tick s ok now srv = some (srv', stage'))
    (hnext : stage'.listening = true) :
    stage.listening = true ∨ ∃ t assigned, stage = .register t assigned := by
  cases tick_cases h with
  | register t assigned => exact Or.inr ⟨t, assigned, rfl⟩
  | accept | sendAssign | sendRoutes => cases listening_orTeardown hnext
  | allocateV4 | installed | install | release | removeRoutes | unregister | remove => cases hnext
  | allocateV6 => split at hnext <;> cases hnext
  | _ => exact Or.inl rfl

/-- A session leaves the engine in one place only. -/
theorem tick_registered {s : SessionId} {srv srv' : Server} {stage stage' : Stage} {ok : Bool}
    {now : Nat} (h : stage.tick s ok now srv = some (srv', stage'))
    (hnext : stage'.registered = false) : stage.registered = false ∨ stage = .unregister := by
  by_contra hboth
  rw [not_or, Bool.not_eq_false] at hboth
  obtain ⟨hreg, hne⟩ := hboth
  have hkept : stage'.registered = true := by
    cases tick_effect (tick_cases h) with
    | quiet _ _ _ hfollows => exact hfollows.registered hreg
    | grant _ _ _ _ _ _ hkeep => exact hkeep hreg
    | register _ _ _ _ hregistered => exact hregistered
    | publish _ _ _ _ _ hfollows => exact hfollows.registered hreg
    | release _ hnow => rw [hnow]; rfl
    | unregister hnow => exact absurd hnow hne
    | forget hnow => rw [hnow] at hreg; cases hreg
  rw [hkept] at hnext
  cases hnext

theorem signal_of_ne (stage : Stage) (hub : Hub) {s t : SessionId} (hts : t ≠ s) :
    (stage.signal s hub).sessionNotify t = hub.sessionNotify t := by
  cases stage with
  | register => exact Table.insert_of_ne _ _ hts
  | unregister =>
    rw [signal, Hub.notifyWaiters_sessionNotify]
    exact Table.remove_of_ne _ hts
  | _ => rfl

theorem notifyCalls_signal (stage : Stage) (hub : Hub) (s : SessionId) (n : Nat) :
    hub.notifyCalls n ≤ (stage.signal s hub).notifyCalls n := by
  cases stage with
  | unregister => exact hub.notifyCalls_le s n
  | _ => exact Nat.le_refl _

end Stage

theorem handle_start {s : SessionId} {connSeq streamId : UInt64} {conn : DatagramConn}
    {routes : List IpAddressRange} {now : Nat} {srv srv' : Server} {stage stage' : Stage}
    (h : handle s (.start connSeq streamId conn routes now) srv stage = some (srv', stage')) :
    stage = .idle ∧
      (stage' = .idle ∨ stage' = .accept ⟨quarterStreamId streamId, conn, routes⟩) := by
  cases handle_cases h with
  | start => exact ⟨rfl, Or.inr rfl⟩
  | full => exact ⟨rfl, Or.inl rfl⟩

theorem handle_close {s : SessionId} {srv srv' : Server} {stage stage' : Stage}
    (h : handle s .close srv stage = some (srv', stage')) : stage' = .release := by
  cases handle_cases h with
  | close => rfl

section Frames

variable {s t : SessionId} {hub hub' : Hub}

theorem Link.Effect.sessionNotify_of_ne {link link' : Link} {act : LinkAct}
    (h : link.Effect s hub act hub' link') (hts : t ≠ s) :
    hub'.sessionNotify t = hub.sessionNotify t := by
  cases h with
  | tick => exact link.stage.signal_of_ne hub hts
  | _ => rfl

theorem Link.Effect.notifyCalls_le {link link' : Link} {act : LinkAct}
    (h : link.Effect s hub act hub' link') (n : Nat) : hub.notifyCalls n ≤ hub'.notifyCalls n := by
  cases h with
  | tick => exact link.stage.notifyCalls_signal hub s n
  | _ => exact Nat.le_refl _

theorem Hub.background_cases {act : HubAct} (h : hub.background act = some hub') :
    (hub'.sessionNotify = hub.sessionNotify ∧ hub'.notifyCalls = hub.notifyCalls) ∨
      ∃ s rest, act = .reap ∧ hub.idle = s :: rest ∧
        hub'.sessionNotify = hub.sessionNotify.remove s ∧
        hub'.notifyCalls = (hub.notifyWaiters s).notifyCalls := by
  cases act with
  | datagram d =>
    obtain rfl := Option.some.inj h
    exact Or.inl ⟨rfl, rfl⟩
  | scan now =>
    simp only [Hub.background] at h
    split at h
    · obtain rfl := Option.some.inj h
      exact Or.inl ⟨rfl, rfl⟩
    · cases h
  | reap =>
    simp only [Hub.background] at h
    split at h
    · cases h
    · rename_i s rest hidle
      obtain rfl := Option.some.inj h
      refine Or.inr ⟨s, rest, rfl, hidle, (hub.withServer _).notifyWaiters_sessionNotify s, ?_⟩
      simp only [unregisterSession, notifyWaiters, withServer_sessionNotify]
      cases hub.sessionNotify s <;> rfl

end Frames

/-- How a handler and the engine's `session_notify` belong together. -/
structure Wired (s : SessionId) (hub : Hub) (link : Link) : Prop where
  registered : link.stage.registered = false → hub.sessionNotify s = none
  own : ∀ n, hub.sessionNotify s = some n → link.closed = n
  parked : ∀ calls, link.future = some calls → ∃ t assigned, link.stage = .loop t assigned
  seen : ∀ calls, link.future = some calls → calls ≤ hub.notifyCalls link.closed

namespace Wired

variable {s : SessionId} {hub hub' : Hub} {link link' : Link}

/-- Outside the handler an entry can only go, and calls only add up. -/
theorem later (h : Wired s hub link)
    (hnotify : hub'.sessionNotify s = hub.sessionNotify s ∨ hub'.sessionNotify s = none)
    (hcalls : ∀ n, hub.notifyCalls n ≤ hub'.notifyCalls n) : Wired s hub' link where
  registered hreg := by
    rcases hnotify with hsame | hnone
    · exact hsame.trans (h.registered hreg)
    · exact hnone
  own n hn := by
    rcases hnotify with hsame | hnone
    · exact h.own n (hsame.symm.trans hn)
    · rw [hnone] at hn
      cases hn
  parked := h.parked
  seen calls hfuture := Nat.le_trans (h.seen calls hfuture) (hcalls _)

/-- Leaving the select keeps the entry, and the stage stays registered. -/
theorem leave (h : Wired s hub link) {calls : Nat} (hfuture : link.future = some calls)
    {act : HandlerAct} (htick : ∀ ok now, act ≠ .tick ok now) {server : Server} {stage : Stage}
    (hstep : handle s act hub.server link.stage = some (server, stage)) (capsules : CapsuleBuffer) :
    Wired s (hub.withServer server) { link with stage, future := none, capsules } where
  registered hreg := by
    obtain ⟨t, assigned, hloop⟩ := h.parked calls hfuture
    rw [hloop] at hstep
    cases act with
    | start => cases hstep
    | tick ok now => exact absurd rfl (htick ok now)
    | chunk | close | refreshMtu =>
      obtain ⟨-, rfl⟩ := Prod.mk.inj (Option.some.inj hstep)
      cases hreg
  own := h.own
  parked _ hsome := by cases hsome
  seen _ hsome := by cases hsome

/-- A step that is neither the registration nor the end of it leaves the entry alone. -/
theorem advance (h : Wired s hub link) {server : Server} {next : Link}
    (hreg : next.stage.registered = false → link.stage.registered = false)
    (hclosed : next.closed = link.closed) (hnext : next.future = none) :
    Wired s (hub.withServer server) next where
  registered hnot := h.registered (hreg hnot)
  own n hn := hclosed.trans (h.own n hn)
  parked _ hsome := by rw [hnext] at hsome; cases hsome
  seen _ hsome := by rw [hnext] at hsome; cases hsome

theorem tick (h : Wired s hub link) (hfuture : link.future = none) {ok : Bool} {now : Nat}
    {server : Server} {stage : Stage}
    (hstep : link.stage.tick s ok now hub.server = some (server, stage)) :
    Wired s ((link.stage.signal s hub).withServer server) { link.keep hub with stage } := by
  have hreg := Stage.tick_registered hstep
  cases hstage : link.stage with
  | register t assigned =>
    rw [hstage] at hstep
    obtain ⟨-, rfl⟩ := Prod.mk.inj (Option.some.inj hstep)
    simp only [Link.keep, hstage, Stage.signal]
    exact
      { registered := fun hnot => by cases hnot
        own := fun n hn => by simpa [Hub.notify] using hn
        parked := fun calls hsome => by rw [hfuture] at hsome; cases hsome
        seen := fun calls hsome => by rw [hfuture] at hsome; cases hsome }
  | unregister =>
    simp only [Link.keep, hstage, Stage.signal]
    have hnone : (hub.notifyWaiters s).sessionNotify s = none := by
      rw [Hub.notifyWaiters_sessionNotify, Table.remove_self]
    exact
      { registered := fun _ => hnone
        own := fun n hn => by simp [hnone] at hn
        parked := fun calls hsome => by rw [hfuture] at hsome; cases hsome
        seen := fun calls hsome => by rw [hfuture] at hsome; cases hsome }
  | _ =>
    simp only [Link.keep, hstage, Stage.signal]
    refine h.advance ?_ rfl hfuture
    intro hnot
    rcases hreg hnot with hbefore | hunregister
    · exact hbefore
    · simp [hstage] at hunregister

theorem effect {act : LinkAct} (h : Wired s hub link) (heffect : link.Effect s hub act hub' link') :
    Wired s hub' link' := by
  cases heffect with
  | start hstep =>
    have hidle : link.stage.registered = false := by rw [(handle_start hstep).1]; rfl
    have hnone := h.registered hidle
    exact
      { registered := fun _ => hnone
        own := fun n hn => by simp [hnone] at hn
        parked := fun _ hsome => by cases hsome
        seen := fun _ hsome => by cases hsome }
  | tick hfuture _ hstep => exact h.tick hfuture hstep
  | send hfuture hout _ hstep =>
    refine h.advance ?_ rfl hfuture
    intro hnot
    rcases Stage.tick_registered hstep hnot with hbefore | hunregister
    · exact hbefore
    · simp [hunregister, Stage.outgoing] at hout
  | unwind => exact ⟨h.registered, h.own, h.parked, h.seen⟩
  | enter hfuture hloop =>
    exact
      { registered := h.registered
        own := h.own
        parked := fun _ _ => ⟨_, _, hloop⟩
        seen := fun calls hsome => Nat.le_of_eq (Option.some.inj hsome).symm }
  | recv hfuture hstep => exact h.leave hfuture (by simp) hstep _
  | finish hfuture hstep => exact h.leave hfuture (by simp) hstep link.capsules
  | notified hfuture _ hstep => exact h.leave hfuture (by simp) hstep link.capsules
  | refreshMtu hfuture hstep => exact h.leave hfuture (by simp) hstep link.capsules

theorem other {t : SessionId} {act : LinkAct} {moved moved' : Link} (h : Wired t hub link)
    (hts : t ≠ s) (heffect : moved.Effect s hub act hub' moved') : Wired t hub' link :=
  h.later (Or.inl (heffect.sessionNotify_of_ne hts)) heffect.notifyCalls_le

theorem outside {act : HubAct} (h : Wired s hub link) (hstep : hub.background act = some hub') :
    Wired s hub' link := by
  rcases Hub.background_cases hstep with ⟨hnotify, hcalls⟩ | ⟨t, rest, -, -, hnotify, hcalls⟩
  · exact h.later (Or.inl (by rw [hnotify])) (fun n => Nat.le_of_eq (by rw [hcalls]))
  · refine h.later ?_ (fun n => hcalls ▸ hub.notifyCalls_le t n)
    rw [hnotify, Table.remove_apply]
    split
    · exact Or.inr rfl
    · exact Or.inl rfl

end Wired

section Runs

variable {config : ProxyConfig} {ipv4 : Ipv4Net} {ipv6 : Option Ipv6Net}
  {tunTx : Option (Bytes → Bool)} {icmpSource : IcmpSource} {limits : RateLimits}
  {maxSessions timeout : Nat}

theorem wired_initial (s : SessionId) :
    Wired s (Hub.initial config ipv4 ipv6 tunTx icmpSource limits maxSessions timeout).shared
      .idle where
  registered _ := rfl
  own n hn := by cases hn
  parked _ hsome := by cases hsome
  seen _ hsome := by cases hsome

theorem wired_run {labels : List LinkLabel} {σ : LinkSys}
    (h : Run (Fires linkStep)
      (Hub.initial config ipv4 ipv6 tunTx icmpSource limits maxSessions timeout) labels σ)
    (s : SessionId) : Wired s σ.shared (σ.task s) := by
  refine Tasks.run_keeps_all (J := Wired) ?_ ?_ ?_ h wired_initial s
  · intro k act hub hub' link link' hown hstep
    exact hown.effect (Link.handle_effect hstep).2
  · intro k act hub hub' link link' i other hne _ hi hstep
    exact hi.other hne (Link.handle_effect hstep).2
  · intro d hub hub' i link hi hstep
    exact hi.outside hstep

/-- What the steps of a handler keep of its own link holds in every run. -/
theorem link_run {P : Link → Prop} (hidle : P .idle)
    (hkeep : ∀ {s hub act hub' link link'}, P link → Wired s hub link →
      link.Effect s hub act hub' link' → P link') {labels : List LinkLabel} {σ : LinkSys}
    (h : Run (Fires linkStep)
      (Hub.initial config ipv4 ipv6 tunTx icmpSource limits maxSessions timeout) labels σ)
    (s : SessionId) : P (σ.task s) := by
  refine (Tasks.run_keeps_all (J := fun s hub link => Wired s hub link ∧ P link)
    ?_ ?_ ?_ h (fun s => ⟨wired_initial s, hidle⟩) s).2
  · rintro k act hub hub' link link' ⟨hwired, hp⟩ hstep
    have heffect := (Link.handle_effect hstep).2
    exact ⟨hwired.effect heffect, hkeep hp hwired heffect⟩
  · rintro k act hub hub' link link' i other hne - ⟨hwired, hp⟩ hstep
    exact ⟨hwired.other hne (Link.handle_effect hstep).2, hp⟩
  · rintro act hub hub' i link ⟨hwired, hp⟩ hstep
    exact ⟨hwired.outside hstep, hp⟩

end Runs

/-- A handler that goes on after the reaper has taken its entry has been called. -/
def Heard (s : SessionId) (hub : Hub) (link : Link) : Prop :=
  link.stage.listening = true → hub.sessionNotify s = none →
    ∃ calls, link.future = some calls ∧ calls < hub.notifyCalls link.closed

/-- The branches of the select that go back to its head. -/
def LinkAct.resumes : LinkAct → Bool
  | recv _ => true
  | refreshMtu _ => true
  | _ => false

/-- The reaper takes the entry of a handler only while it is in its select, and a handler
that has been called takes the branch that ends it. -/
def Attentive (σ : LinkSys) : LinkLabel → Prop
  | .task s act =>
    act.resumes = true → (σ.task s).future = some (σ.shared.notifyCalls (σ.task s).closed)
  | .env .reap =>
    ∀ s ∈ σ.shared.idle.head?, (σ.shared.sessionNotify s).isSome → (σ.task s).future.isSome
  | .env _ => True

namespace Heard

variable {s : SessionId} {hub hub' : Hub} {link link' : Link}

/-- Before its select a handler still has its entry. -/
theorem entered (h : Heard s hub link) (hlistening : link.stage.listening = true)
    (hfuture : link.future = none) : hub.sessionNotify s ≠ none := by
  intro hnone
  obtain ⟨calls, hcalls, -⟩ := h hlistening hnone
  rw [hfuture] at hcalls
  cases hcalls

theorem uncalled (h : Heard s hub link) (hwired : Wired s hub link)
    (hfuture : link.future = some (hub.notifyCalls link.closed)) : hub.sessionNotify s ≠ none := by
  intro hnone
  obtain ⟨t, assigned, hloop⟩ := hwired.parked _ hfuture
  obtain ⟨calls, hcalls, hlt⟩ := h (by rw [hloop]; rfl) hnone
  rw [hfuture] at hcalls
  exact Nat.ne_of_lt hlt (Option.some.inj hcalls).symm

theorem tick (h : Heard s hub link) (hfuture : link.future = none) {ok : Bool} {now : Nat}
    {server : Server} {stage : Stage}
    (hstep : link.stage.tick s ok now hub.server = some (server, stage)) :
    Heard s ((link.stage.signal s hub).withServer server) { link.keep hub with stage } := by
  intro hlistening hnone
  rcases Stage.tick_listening hstep hlistening with hbefore | ⟨t, assigned, hregister⟩
  · refine absurd ?_ (h.entered hbefore hfuture)
    revert hnone hbefore
    cases link.stage with
    | register | unregister => intro _ hbefore; cases hbefore
    | _ => exact fun hnone _ => hnone
  · simp [hregister, Stage.signal, Hub.notify] at hnone

theorem effect {act : LinkAct} (h : Heard s hub link) (hwired : Wired s hub link)
    (hguard : act.resumes = true → link.future = some (hub.notifyCalls link.closed))
    (heffect : link.Effect s hub act hub' link') : Heard s hub' link' := by
  cases heffect with
  | start hstep =>
    intro hlistening
    rcases (handle_start hstep).2 with rfl | rfl
    · cases hlistening
    · cases hlistening
  | tick hfuture _ hstep => exact h.tick hfuture hstep
  | send hfuture hout _ hstep =>
    intro hlistening hnone
    rcases Stage.tick_listening hstep hlistening with hbefore | ⟨t, assigned, hregister⟩
    · exact absurd hnone (h.entered hbefore hfuture)
    · simp [hregister, Stage.outgoing] at hout
  | unwind => exact h
  | enter hfuture hloop =>
    intro hlistening hnone
    exact absurd hnone (h.entered hlistening hfuture)
  | recv => exact fun _ hnone => absurd hnone (h.uncalled hwired (hguard rfl))
  | refreshMtu => exact fun _ hnone => absurd hnone (h.uncalled hwired (hguard rfl))
  | finish _ hstep =>
    intro hlistening
    cases handle_close hstep
    cases hlistening
  | notified _ _ hstep =>
    intro hlistening
    cases handle_close hstep
    cases hlistening

theorem later (h : Heard s hub link) (hnotify : hub'.sessionNotify s = hub.sessionNotify s)
    (hcalls : ∀ n, hub.notifyCalls n ≤ hub'.notifyCalls n) : Heard s hub' link := by
  intro hlistening hnone
  obtain ⟨calls, hfuture, hlt⟩ := h hlistening (hnotify.symm.trans hnone)
  exact ⟨calls, hfuture, Nat.lt_of_lt_of_le hlt (hcalls _)⟩

/-- The reaper's call reaches the future that the handler waits on. -/
theorem reap (h : Heard s hub link) (hwired : Wired s hub link)
    (hguard : (hub.sessionNotify s).isSome → link.future.isSome)
    (hcalls : hub'.notifyCalls = (hub.notifyWaiters s).notifyCalls) : Heard s hub' link := by
  intro hlistening _
  cases hentry : hub.sessionNotify s with
  | none =>
    obtain ⟨calls, hfuture, hlt⟩ := h hlistening hentry
    exact ⟨calls, hfuture, hcalls ▸ Nat.lt_of_lt_of_le hlt (hub.notifyCalls_le s _)⟩
  | some n =>
    obtain ⟨calls, hfuture⟩ := Option.isSome_iff_exists.mp (hguard (by rw [hentry]; rfl))
    have hseen := hwired.seen calls hfuture
    rw [hwired.own n hentry] at hseen ⊢
    exact ⟨calls, hfuture, hcalls ▸ Nat.lt_of_le_of_lt hseen (Hub.notifyCalls_lt hentry)⟩

end Heard

/-- The session is listed, the reaper has taken its entry, and its handler sits in the select
with nothing to wake it. -/
def Stranded (s : SessionId) (σ : LinkSys) : Prop :=
  (σ.shared.server.sessions.sessions.lookup s).isSome ∧ σ.shared.sessionNotify s = none ∧
    ∃ t assigned, (σ.task s).stage = .loop t assigned ∧
      (σ.task s).future = some (σ.shared.notifyCalls (σ.task s).closed)

section Strands

variable {config : ProxyConfig} {ipv4 : Ipv4Net} {ipv6 : Option Ipv6Net}
  {tunTx : Option (Bytes → Bool)} {icmpSource : IcmpSource} {limits : RateLimits}
  {maxSessions timeout : Nat}

theorem heard_run {labels : List LinkLabel} {σ : LinkSys}
    (h : Run (Guarded Attentive (Fires linkStep))
      (Hub.initial config ipv4 ipv6 tunTx icmpSource limits maxSessions timeout) labels σ)
    (s : SessionId) : Wired s σ.shared (σ.task s) ∧ Heard s σ.shared (σ.task s) := by
  refine Tasks.run_keeps (J := fun s hub link => Wired s hub link ∧ Heard s hub link)
    ?_ ?_ ?_ h (fun s => ⟨wired_initial s, fun hlistening => by cases hlistening⟩) s
  · rintro σ k act hub link ⟨hwired, hheard⟩ hguard hstep
    have heffect := (Link.handle_effect hstep).2
    exact ⟨hwired.effect heffect, hheard.effect hwired hguard heffect⟩
  · rintro σ k act hub link i hne - ⟨hwired, hheard⟩ - hstep
    have heffect := (Link.handle_effect hstep).2
    exact ⟨hwired.other hne heffect,
      hheard.later (heffect.sessionNotify_of_ne hne) heffect.notifyCalls_le⟩
  · rintro σ act hub i ⟨hwired, hheard⟩ hguard hstep
    refine ⟨hwired.outside hstep, ?_⟩
    rcases Hub.background_cases hstep with ⟨hnotify, hcalls⟩ | ⟨t, rest, rfl, hidle, hnotify, hcalls⟩
    · exact hheard.later (by rw [hnotify]) (fun n => Nat.le_of_eq (by rw [hcalls]))
    · by_cases hit : i = t
      · subst hit
        exact hheard.reap hwired (hguard i (by rw [hidle]; rfl)) hcalls
      · refine hheard.later ?_ (fun n => hcalls ▸ σ.shared.notifyCalls_le t n)
        rw [hnotify, Table.remove_of_ne _ hit]

/-- No session is stranded where the reaper meets handlers in their select only and a call
is not passed over. -/
theorem not_stranded_of_attentive {labels : List LinkLabel} {σ : LinkSys}
    (h : Run (Guarded Attentive (Fires linkStep))
      (Hub.initial config ipv4 ipv6 tunTx icmpSource limits maxSessions timeout) labels σ)
    (s : SessionId) : ¬ Stranded s σ := by
  rintro ⟨-, hnone, t, assigned, -, hfuture⟩
  obtain ⟨hwired, hheard⟩ := heard_run h s
  exact hheard.uncalled hwired hfuture hnone

end Strands

section Example

instance (σ : LinkSys) (label : LinkLabel) : Decidable (Attentive σ label) :=
  match label with
  | .task _ _ => inferInstanceAs (Decidable (_ → _))
  | .env .reap => inferInstanceAs (Decidable (∀ s ∈ _, _))
  | .env (.datagram _) => .isTrue trivial
  | .env (.scan _) => .isTrue trivial

/-- A server that reaps a session after more than one second without activity. -/
def reapingHub : LinkSys :=
  Hub.initial ⟨1400, false, fun _ _ => []⟩ AddressPool.testNet none none ⟨0x0a640001#32, none⟩
    ⟨0, 0⟩ 0 1

def acceptTunnel (streamId : UInt64) : List LinkLabel :=
  let s := SessionId.compose 0 streamId
  .task s (.start 0 streamId ⟨none, fun _ => true⟩
      ⟨[⟨4, .v4 0#32, .v4 0xffffffff#32, 0⟩], by decide⟩ 0) ::
    List.replicate 9 (.task s (.tick true 0))

/-- An ADDRESS_REQUEST for any IPv4 address. -/
def addressRequest : Bytes := [2, 7, 1, 4, 0, 0, 0, 0, 32]

def reapIdle : List LinkLabel := [.env (.scan 5), .env .reap]

/-- The reaper comes while the handler waits, and the handler ends. -/
theorem not_stranded_waiting :
    ∃ σ, Run (Guarded Attentive (Fires linkStep)) reapingHub
        (acceptTunnel 0 ++ [.task ⟨0⟩ .enter] ++ reapIdle) σ ∧
      σ.shared.sessionNotify ⟨0⟩ = none ∧ ¬ Stranded ⟨0⟩ σ := by
  have hexec : (exec (restrict Attentive linkStep) reapingHub
      (acceptTunnel 0 ++ [.task ⟨0⟩ .enter] ++ reapIdle)).map
        (fun σ => σ.shared.sessionNotify ⟨0⟩) = some none := by decide +kernel
  obtain ⟨σ, hσ, hnone⟩ := Option.map_eq_some_iff.mp hexec
  exact ⟨σ, guarded_run_of_exec hσ, hnone, not_stranded_of_attentive (guarded_run_of_exec hσ) ⟨0⟩⟩

def Stage.isLoop : Stage → Bool
  | loop _ _ => true
  | _ => false

theorem Stage.isLoop_iff {stage : Stage} :
    stage.isLoop = true ↔ ∃ t assigned, stage = .loop t assigned := by
  cases stage <;> simp [isLoop]

instance (s : SessionId) (σ : LinkSys) : Decidable (Stranded s σ) :=
  decidable_of_iff
    ((σ.shared.server.sessions.sessions.lookup s).isSome ∧ σ.shared.sessionNotify s = none ∧
      (σ.task s).stage.isLoop = true ∧
      (σ.task s).future = some (σ.shared.notifyCalls (σ.task s).closed))
    (by simp only [Stranded, Stage.isLoop_iff, exists_and_right])

theorem stranded_of_exec {labels : List LinkLabel} {s : SessionId}
    (h : (exec linkStep reapingHub labels).map (fun σ => decide (Stranded s σ)) = some true) :
    ∃ σ, Run (Fires linkStep) reapingHub labels σ ∧ Stranded s σ := by
  obtain ⟨σ, hσ, hstranded⟩ := Option.map_eq_some_iff.mp h
  exact ⟨σ, run_of_exec hσ, of_decide_eq_true hstranded⟩

/-- The reaper comes while the handler is sending the answer to an ADDRESS_REQUEST. -/
theorem stranded_while_replying :
    ∃ σ, Run (Fires linkStep) reapingHub
        (acceptTunnel 0 ++ [.task ⟨0⟩ .enter, .task ⟨0⟩ (.recv addressRequest)] ++
          List.replicate 4 (.task ⟨0⟩ (.tick true 4)) ++ reapIdle ++
          List.replicate 2 (.task ⟨0⟩ (.tick true 6)) ++ [.task ⟨0⟩ .enter]) σ ∧
      Stranded ⟨0⟩ σ :=
  stranded_of_exec (by decide +kernel)

/-- The handler waits, and its select takes a chunk that is there as well. -/
theorem stranded_by_select :
    ∃ σ, Run (Fires linkStep) reapingHub
        (acceptTunnel 0 ++ [.task ⟨0⟩ .enter] ++ reapIdle ++
          [.task ⟨0⟩ (.recv [0]), .task ⟨0⟩ (.tick true 6), .task ⟨0⟩ .enter]) σ ∧
      Stranded ⟨0⟩ σ :=
  stranded_of_exec (by decide +kernel)

end Example

end Straw
