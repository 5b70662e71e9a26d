import Straw.AddressPool.Runs
import Straw.Lib.Tasks

/-!
# The pool under concurrent session tasks

Each session is served by one task, which makes its calls one after the other. The
atomic steps are the critical sections of the pool locks and the single operations
on the two maps; between two steps of a call any other task may run.
-/

namespace Straw.AddressPool

open LazyPool Transition
set_option autoImplicit false

inductive Call where
  | allocateV4
  | allocateV6
  | allocateForRequest (r : RequestedAddress)
  | release

inductive Pc where
  | idle
  | drawV4 (requestId : Nat)
  | drawV6 (requestId : Nat)
  /-- `try_allocate_specific`: the range test under the lock, the gateway test under the
  lock, the `contains_key` test. -/
  | inPool (addr : IpAddr) (r : RequestedAddress)
  | gateway (addr : IpAddr) (r : RequestedAddress)
  | containsKey (addr : IpAddr) (r : RequestedAddress)
  /-- `record`: the insertion into `allocated`, then the push onto the session's list. -/
  | insert (a : AssignedAddress)
  | push (a : AssignedAddress)
  | returned (result : Option AssignedAddress)
  /-- `release`: the session's list is taken, then each address of it is unmapped and
  made reusable. -/
  | removeAllocations
  | removeAllocated (addr : IpAddr) (rest : List IpAddr)
  | freeInsert (addr : IpAddr) (rest : List IpAddr)
deriving DecidableEq

namespace Pc

def fallback (r : RequestedAddress) : Pc :=
  if r.ipVersion = 4 then .drawV4 r.requestId
  else if r.ipVersion = 6 then .drawV6 r.requestId
  else .returned none

def releasing : List IpAddr → Pc
  | [] => .idle
  | addr :: rest => .removeAllocated addr rest

def entry : Call → Pc
  | .allocateV4 => .drawV4 0
  | .allocateV6 => .drawV6 0
  | .allocateForRequest r =>
    match specificAddress r with
    | some addr => .inPool addr r
    | none => fallback r
  | .release => .removeAllocations

def next (s : SessionId) (p : AddressPool) : Pc → Option (AddressPool × Pc)
  | .idle => none
  | .drawV4 requestId =>
    match p.drawV4 with
    | (none, p) => some (p, .returned none)
    | (some a, p) => some (p, .insert ⟨requestId, 4, .v4 a, 32⟩)
  | .drawV6 requestId =>
    match p.drawV6 with
    | (none, p) => some (p, .returned none)
    | (some a, p) => some (p, .insert ⟨requestId, 6, .v6 a, 128⟩)
  | .inPool addr r => some (p, if p.inPool addr then .gateway addr r else fallback r)
  | .gateway addr r =>
    some (p, if addr = .v4 p.ipv4Gateway.1 then fallback r else .containsKey addr r)
  | .containsKey addr r =>
    some (p, if (p.allocated addr).isSome then fallback r
      else .insert ⟨r.requestId, r.ipVersion, addr, r.prefixLength⟩)
  | .insert a => some ({ p with allocated := p.allocated.insert a.ipAddress s }, .push a)
  | .push a =>
    some ({ p with allocations := p.allocations.insert s (p.held s ++ [a.ipAddress]) },
      .returned (some a))
  | .returned _ => some (p, .idle)
  | .removeAllocations =>
    match p.allocations s with
    | none => some (p, .idle)
    | some addrs => some ({ p with allocations := p.allocations.remove s }, releasing addrs)
  | .removeAllocated addr rest =>
    some ({ p with allocated := p.allocated.remove addr }, .freeInsert addr rest)
  | .freeInsert addr rest => some (p.recycle addr, releasing rest)

end Pc

inductive Act where
  | start (call : Call)
  | tick

def advance (s : SessionId) : Act → AddressPool → Pc → Option (AddressPool × Pc)
  | .start call, p, .idle => some (p, Pc.entry call)
  | .start _, _, _ => none
  | .tick, p, pc => pc.next s p

abbrev Sys := Tasks SessionId AddressPool Pc

abbrev Label := Tasks.Label SessionId Act Empty

def step : Sys → Label → Option Sys := Tasks.step advance Empty.elim

def initial (ipv4 : Ipv4Net) (ipv6 : Option Ipv6Net) : Sys := ⟨new ipv4 ipv6, fun _ => .idle⟩

section Solo

def Call.op (s : SessionId) : Call → Op
  | .allocateV4 => .allocateV4 s
  | .allocateV6 => .allocateV6 s
  | .allocateForRequest r => .allocateForRequest s r
  | .release => .release s

def Call.outcome (p : AddressPool) (s : SessionId) : Call → Pc
  | .allocateV4 => .returned (p.allocateV4 s).1
  | .allocateV6 => .returned (p.allocateV6 s).1
  | .allocateForRequest r => .returned (p.allocateForRequest s r).1
  | .release => .idle

variable (s : SessionId) (p : AddressPool)

def Alone (p : AddressPool) (pc : Pc) (q : AddressPool) (pc' : Pc) : Prop :=
  ∃ n, Tasks.solo advance s (List.replicate n .tick) p pc = some (q, pc')

variable {s p}

theorem Alone.refl {pc : Pc} : Alone s p pc p pc := ⟨0, rfl⟩

theorem Alone.tick {q r : AddressPool} {pc pc' pc'' : Pc} (h : pc.next s p = some (q, pc'))
    (hrest : Alone s q pc' r pc'') : Alone s p pc r pc'' := by
  obtain ⟨n, hn⟩ := hrest
  exact ⟨n + 1, by simp only [List.replicate_succ, Tasks.solo, advance, h, Option.bind_some, hn]⟩

variable (s p)

theorem alone_record (a : AssignedAddress) :
    Alone s p (.insert a) (p.record s a.ipAddress) (.returned (some a)) :=
  .tick rfl (.tick rfl .refl)

theorem alone_drawV4 (requestId : Nat) :
    Alone s p (.drawV4 requestId) (p.allocateV4 s).2
      (.returned ((p.allocateV4 s).1.map fun a => { a with requestId })) := by
  unfold allocateV4
  cases h : p.drawV4 with
  | mk got q =>
    cases got with
    | none =>
      have hstep : Pc.next s p (.drawV4 requestId) = some (q, .returned none) := by
        simp only [Pc.next, h]
      exact .tick hstep .refl
    | some a =>
      have hstep : Pc.next s p (.drawV4 requestId) =
          some (q, .insert ⟨requestId, 4, .v4 a, 32⟩) := by
        simp only [Pc.next, h]
      exact .tick hstep (alone_record s q _)

theorem alone_drawV6 (requestId : Nat) :
    Alone s p (.drawV6 requestId) (p.allocateV6 s).2
      (.returned ((p.allocateV6 s).1.map fun a => { a with requestId })) := by
  unfold allocateV6
  cases h : p.drawV6 with
  | mk got q =>
    cases got with
    | none =>
      have hstep : Pc.next s p (.drawV6 requestId) = some (q, .returned none) := by
        simp only [Pc.next, h]
      exact .tick hstep .refl
    | some a =>
      have hstep : Pc.next s p (.drawV6 requestId) =
          some (q, .insert ⟨requestId, 6, .v6 a, 128⟩) := by
        simp only [Pc.next, h]
      exact .tick hstep (alone_record s q _)

theorem alone_fallback (r : RequestedAddress) :
    Alone s p (Pc.fallback r) (p.allocateFallback s r).2
      (.returned (p.allocateFallback s r).1) := by
  unfold Pc.fallback allocateFallback allocateByVersion
  split
  · exact alone_drawV4 s p r.requestId
  · split
    · exact alone_drawV6 s p r.requestId
    · exact .refl

theorem alone_request (r : RequestedAddress) :
    Alone s p (Pc.entry (.allocateForRequest r)) (p.allocateForRequest s r).2
      (.returned (p.allocateForRequest s r).1) := by
  have hfall := alone_fallback s p r
  cases hspec : specificAddress r with
  | none => simpa only [Pc.entry, allocateForRequest, hspec] using hfall
  | some addr =>
    simp only [Pc.entry, allocateForRequest, hspec, tryAllocateSpecific]
    by_cases hin : p.inPool addr = true
    · have hstep : Pc.next s p (.inPool addr r) = some (p, .gateway addr r) := by
        simp only [Pc.next, hin, if_true]
      refine .tick hstep ?_
      simp only [hin, Bool.not_true, Bool.false_eq_true, if_false]
      by_cases hgw : addr = .v4 p.ipv4Gateway.1
      · rw [if_pos hgw]
        exact .tick (by rw [Pc.next, if_pos hgw]) hfall
      · rw [if_neg hgw]
        refine .tick (by rw [Pc.next, if_neg hgw]) ?_
        by_cases hkey : (p.allocated addr).isSome
        · rw [if_pos hkey]
          exact .tick (by rw [Pc.next, if_pos hkey]) hfall
        · rw [if_neg hkey]
          exact .tick (by rw [Pc.next, if_neg hkey]) (alone_record s p _)
    · have hstep : Pc.next s p (.inPool addr r) = some (p, Pc.fallback r) := by
        simp only [Pc.next, hin, Bool.false_eq_true, if_false]
      refine .tick hstep ?_
      simpa only [hin, Bool.not_false, if_true] using hfall

theorem alone_releasing (addrs : List IpAddr) :
    Alone s p (Pc.releasing addrs) (addrs.foldl releaseOne p) .idle := by
  induction addrs generalizing p with
  | nil => exact .refl
  | cons addr rest ih => exact .tick rfl (.tick rfl (ih (p.releaseOne addr)))

theorem alone_release : Alone s p .removeAllocations (p.release s) .idle := by
  unfold release
  cases h : p.allocations s with
  | none => exact .tick (by rw [Pc.next, h]) .refl
  | some addrs => exact .tick (by rw [Pc.next, h]) (alone_releasing s _ addrs)

theorem alone_call (call : Call) :
    Alone s p (Pc.entry call) (p.apply (call.op s)) (call.outcome p s) := by
  cases call with
  | allocateV4 =>
    have h := alone_drawV4 s p 0
    have hid : (p.allocateV4 s).1.map (fun a => { a with requestId := 0 }) =
        (p.allocateV4 s).1 := by
      unfold allocateV4
      generalize p.drawV4 = r
      obtain ⟨_ | a, q⟩ := r <;> rfl
    rwa [hid] at h
  | allocateV6 =>
    have h := alone_drawV6 s p 0
    have hid : (p.allocateV6 s).1.map (fun a => { a with requestId := 0 }) =
        (p.allocateV6 s).1 := by
      unfold allocateV6
      generalize p.drawV6 = r
      obtain ⟨_ | a, q⟩ := r <;> rfl
    rwa [hid] at h
  | allocateForRequest r => exact alone_request s p r
  | release => exact alone_release s p

/-- A call that no other task interrupts does what the sequential model says. -/
theorem exec_call (σ : Sys) (hidle : σ.task s = .idle) (call : Call) :
    ∃ n, exec step σ ((Act.start call :: List.replicate n .tick).map (Tasks.Label.task s)) =
      some ⟨σ.shared.apply (call.op s),
        Function.update σ.task s (call.outcome σ.shared s)⟩ := by
  obtain ⟨n, hn⟩ := alone_call s σ.shared call
  refine ⟨n, Tasks.exec_solo s _ σ ?_⟩
  simp only [Tasks.solo, hidle, advance, Option.bind_some, hn]

end Solo

section Ownership

/-- The addresses a task has between the two maps. -/
def Pc.transit : Pc → List IpAddr
  | .push a => [a.ipAddress]
  | .removeAllocated addr rest => addr :: rest
  | .freeInsert _ rest => rest
  | _ => []

/-- Everything step by step that matters to who owns what. -/
inductive Effect (s : SessionId) (p : AddressPool) : Pc → AddressPool → Pc → Prop where
  | quiet {q : AddressPool} {pc pc' : Pc} : q.allocated = p.allocated →
      q.allocations = p.allocations → pc'.transit = pc.transit →
      (∀ a, pc' ≠ .returned (some a)) → Effect s p pc q pc'
  | insert (a : AssignedAddress) :
      Effect s p (.insert a) { p with allocated := p.allocated.insert a.ipAddress s } (.push a)
  | push (a : AssignedAddress) :
      Effect s p (.push a)
        { p with allocations := p.allocations.insert s (p.held s ++ [a.ipAddress]) }
        (.returned (some a))
  | take :
      Effect s p .removeAllocations { p with allocations := p.allocations.remove s }
        (Pc.releasing (p.held s))
  | unmap (addr : IpAddr) (rest : List IpAddr) :
      Effect s p (.removeAllocated addr rest) { p with allocated := p.allocated.remove addr }
        (.freeInsert addr rest)

theorem transit_releasing (addrs : List IpAddr) : (Pc.releasing addrs).transit = addrs := by
  cases addrs <;> rfl

def Pc.Blank (pc : Pc) : Prop := pc.transit = [] ∧ ∀ a, pc ≠ .returned (some a)

theorem Pc.blank_fallback (r : RequestedAddress) : (Pc.fallback r).Blank := by
  unfold Pc.fallback
  split
  · exact ⟨rfl, by simp⟩
  · split <;> exact ⟨rfl, by simp⟩

theorem Pc.blank_ite {c : Prop} [Decidable c] {pc pc' : Pc} (h : pc.Blank) (h' : pc'.Blank) :
    (if c then pc else pc').Blank := by
  split
  · exact h
  · exact h'

theorem Effect.blank {s : SessionId} {p q : AddressPool} {pc pc' : Pc}
    (hal : q.allocated = p.allocated) (hlists : q.allocations = p.allocations)
    (hpc : pc.transit = []) (hpc' : pc'.Blank) : Effect s p pc q pc' :=
  .quiet hal hlists (hpc'.1.trans hpc.symm) hpc'.2

theorem effect_next {s : SessionId} {p q : AddressPool} {pc pc' : Pc}
    (h : pc.next s p = some (q, pc')) : Effect s p pc q pc' := by
  cases pc with
  | idle => simp [Pc.next] at h
  | drawV4 requestId =>
    have hdrawn := p.drawV4_spec
    rw [Pc.next] at h
    generalize p.drawV4 = r at h hdrawn
    obtain ⟨_ | a, r⟩ := r
    all_goals
      obtain ⟨rfl, rfl⟩ := by simpa using h
      exact .blank hdrawn.allocated hdrawn.allocations rfl ⟨rfl, by simp⟩
  | drawV6 requestId =>
    have hdrawn := p.drawV6_spec
    rw [Pc.next] at h
    generalize p.drawV6 = r at h hdrawn
    obtain ⟨_ | a, r⟩ := r
    all_goals
      obtain ⟨rfl, rfl⟩ := by simpa using h
      exact .blank hdrawn.allocated hdrawn.allocations rfl ⟨rfl, by simp⟩
  | inPool addr r =>
    simp only [Pc.next, Option.some.injEq, Prod.mk.injEq] at h
    obtain ⟨rfl, rfl⟩ := h
    exact .blank rfl rfl rfl (Pc.blank_ite ⟨rfl, by simp⟩ (Pc.blank_fallback r))
  | gateway addr r =>
    simp only [Pc.next, Option.some.injEq, Prod.mk.injEq] at h
    obtain ⟨rfl, rfl⟩ := h
    exact .blank rfl rfl rfl (Pc.blank_ite (Pc.blank_fallback r) ⟨rfl, by simp⟩)
  | containsKey addr r =>
    simp only [Pc.next, Option.some.injEq, Prod.mk.injEq] at h
    obtain ⟨rfl, rfl⟩ := h
    exact .blank rfl rfl rfl (Pc.blank_ite (Pc.blank_fallback r) ⟨rfl, by simp⟩)
  | insert a =>
    obtain ⟨rfl, rfl⟩ := by simpa [Pc.next] using h
    exact .insert a
  | push a =>
    obtain ⟨rfl, rfl⟩ := by simpa [Pc.next] using h
    exact .push a
  | returned result =>
    obtain ⟨rfl, rfl⟩ := by simpa [Pc.next] using h
    exact .quiet rfl rfl rfl (by simp)
  | removeAllocations =>
    rw [Pc.next] at h
    split at h
    · obtain ⟨rfl, rfl⟩ := by simpa using h
      exact .quiet rfl rfl rfl (by simp)
    · rename_i addrs haddrs
      obtain ⟨rfl, rfl⟩ := by simpa using h
      have hheld : p.held s = addrs := by simp [held, haddrs]
      rw [← hheld]
      exact .take
  | removeAllocated addr rest =>
    obtain ⟨rfl, rfl⟩ := by simpa [Pc.next] using h
    exact .unmap addr rest
  | freeInsert addr rest =>
    obtain ⟨rfl, rfl⟩ := by simpa [Pc.next] using h
    exact .quiet (by simp) (by simp) (transit_releasing rest) (by cases rest <;> simp [Pc.releasing])

theorem effect_advance {s : SessionId} {act : Act} {p q : AddressPool} {pc pc' : Pc}
    (h : advance s act p pc = some (q, pc')) : Effect s p pc q pc' := by
  cases act with
  | tick => exact effect_next h
  | start call =>
    cases pc with
    | idle =>
      obtain ⟨rfl, rfl⟩ : p = q ∧ Pc.entry call = pc' := by simpa [advance] using h
      refine .blank rfl rfl rfl ?_
      cases call with
      | allocateForRequest r =>
        rw [Pc.entry]
        split
        · exact ⟨rfl, by simp⟩
        · exact Pc.blank_fallback r
      | _ => exact ⟨rfl, by simp [Pc.entry]⟩
    | _ => simp [advance] at h

/-- What `s` holds or has in transit is mapped to `s`, each address once. -/
structure Owns (s : SessionId) (p : AddressPool) (pc : Pc) : Prop where
  nodup : (p.held s ++ pc.transit).Nodup
  mapped : ∀ a ∈ p.held s ++ pc.transit, p.allocated a = some s
  granted : ∀ a, pc = .returned (some a) → a.ipAddress ∈ p.held s

def Pc.FindsFree (p : AddressPool) : Pc → Prop
  | .insert a => p.allocated a.ipAddress = none
  | _ => True

/-- The insertion of `record` finds no entry: the test made before it still holds. -/
def InsertsFree (σ : Sys) : Label → Prop
  | .task s _ => (σ.task s).FindsFree σ.shared
  | .env _ => True

theorem Owns.own {s : SessionId} {act : Act} {p q : AddressPool} {pc pc' : Pc} (h : Owns s p pc)
    (hfree : pc.FindsFree p) (hstep : advance s act p pc = some (q, pc')) :
    Owns s q pc' := by
  cases effect_advance hstep with
  | quiet hal hlists htransit hret =>
    refine ⟨?_, ?_, fun a ha => absurd ha (hret a)⟩
    · simpa only [held, hlists, htransit] using h.nodup
    · simpa only [held, hlists, htransit, hal] using h.mapped
  | insert a =>
    have hnew : a.ipAddress ∉ p.held s := by
      intro hmem
      have := h.mapped _ (List.mem_append_left _ hmem)
      rw [hfree] at this
      cases this
    refine ⟨?_, ?_, by simp⟩
    · have hnodup : (p.held s).Nodup := (List.nodup_append.mp h.nodup).1
      exact List.nodup_append.mpr ⟨hnodup, List.nodup_singleton _, by
        intro x hx y hy hxy
        obtain rfl : y = a.ipAddress := by simpa [Pc.transit] using hy
        exact hnew (hxy ▸ hx)⟩
    · intro b hb
      rcases List.mem_append.mp hb with hb | hb
      · have hne : b ≠ a.ipAddress := fun hba => hnew (hba ▸ hb)
        exact (Table.insert_of_ne _ _ hne).trans (h.mapped b (List.mem_append_left _ hb))
      · obtain rfl : b = a.ipAddress := by simpa [Pc.transit] using hb
        exact Table.insert_self _ _ _
  | push a =>
    have hheld : ({ p with allocations := p.allocations.insert s (p.held s ++ [a.ipAddress]) } :
        AddressPool).held s = p.held s ++ [a.ipAddress] := by simp [held]
    refine ⟨?_, ?_, ?_⟩
    · rw [hheld]
      simpa [Pc.transit] using h.nodup
    · rw [hheld]
      simpa [Pc.transit] using h.mapped
    · intro b hb
      obtain rfl : a = b := by simpa using hb
      rw [hheld]
      exact List.mem_append_right _ (List.mem_singleton_self _)
  | take =>
    have hheld : ({ p with allocations := p.allocations.remove s } : AddressPool).held s = [] := by
      simp [held]
    refine ⟨?_, ?_, by cases p.held s <;> simp [Pc.releasing]⟩
    · rw [hheld, transit_releasing]
      simpa [Pc.transit] using h.nodup
    · rw [hheld, transit_releasing]
      simpa [Pc.transit] using h.mapped
  | unmap addr rest =>
    have hnodup := h.nodup
    have hsub : (p.held s ++ rest).Sublist (p.held s ++ addr :: rest) :=
      (List.sublist_cons_self addr rest).append_left _
    refine ⟨hnodup.sublist hsub, ?_, by simp⟩
    intro b hb
    have hne : b ≠ addr := by
      rintro rfl
      exact (List.nodup_middle.mp hnodup).notMem hb
    exact (Table.remove_of_ne _ hne).trans (h.mapped b (hsub.subset hb))

theorem Owns.other {s t : SessionId} {act : Act} {p q : AddressPool} {pc pc' m : Pc} (hst : s ≠ t)
    (ht : Owns t p pc) (h : Owns s p m) (hfree : pc.FindsFree p)
    (hstep : advance t act p pc = some (q, pc')) : Owns s q m := by
  cases effect_advance hstep with
  | quiet hal hlists _ _ =>
    refine ⟨?_, ?_, ?_⟩
    · simpa only [held, hlists] using h.nodup
    · simpa only [held, hlists, hal] using h.mapped
    · simpa only [held, hlists] using h.granted
  | insert a =>
    refine ⟨h.nodup, ?_, h.granted⟩
    intro b hb
    have hmap := h.mapped b hb
    have hne : b ≠ a.ipAddress := by
      rintro rfl
      rw [hfree] at hmap
      cases hmap
    exact (Table.insert_of_ne _ _ hne).trans hmap
  | push a =>
    have hheld : ({ p with allocations := p.allocations.insert t (p.held t ++ [a.ipAddress]) } :
        AddressPool).held s = p.held s := by simp only [held, Table.insert_of_ne _ _ hst]
    exact ⟨hheld.symm ▸ h.nodup, hheld.symm ▸ h.mapped, hheld.symm ▸ h.granted⟩
  | take =>
    have hheld : ({ p with allocations := p.allocations.remove t } : AddressPool).held s =
        p.held s := by simp only [held, Table.remove_of_ne _ hst]
    exact ⟨hheld.symm ▸ h.nodup, hheld.symm ▸ h.mapped, hheld.symm ▸ h.granted⟩
  | unmap addr rest =>
    refine ⟨h.nodup, ?_, h.granted⟩
    intro b hb
    have hmap := h.mapped b hb
    have hne : b ≠ addr := by
      rintro rfl
      have hmap' := ht.mapped b (List.mem_append_right _ List.mem_cons_self)
      exact hst (Option.some.inj (hmap.symm.trans hmap'))
    exact (Table.remove_of_ne _ hne).trans hmap

/-- No address is recorded for two sessions, and what a call returns is held by its
session alone. -/
structure Exclusive (σ : Sys) : Prop where
  recorded : ∀ s t a, a ∈ σ.shared.held s → a ∈ σ.shared.held t → s = t
  returned : ∀ s a, σ.task s = .returned (some a) → ∀ t, a.ipAddress ∈ σ.shared.held t → t = s

theorem owns_initial (ipv4 : Ipv4Net) (ipv6 : Option Ipv6Net) (s : SessionId) :
    Owns s (initial ipv4 ipv6).shared ((initial ipv4 ipv6).task s) := by
  refine ⟨?_, ?_, ?_⟩ <;> simp [initial, new, held, Pc.transit]

/-- Addresses stay exclusive along every interleaving in which each insertion of `record`
still finds the address free. -/
theorem exclusive_run {ipv4 : Ipv4Net} {ipv6 : Option Ipv6Net} {acts : List Label}
    {σ : Sys} (h : Run (Guarded InsertsFree (Fires step)) (initial ipv4 ipv6) acts σ) :
    Exclusive σ := by
  have howns : ∀ s, Owns s σ.shared (σ.task s) :=
    Tasks.run_keeps (J := Owns) Owns.own Owns.other (fun {_ d} => d.elim) h
      (owns_initial ipv4 ipv6)
  have hmapped : ∀ s a, a ∈ σ.shared.held s → σ.shared.allocated a = some s :=
    fun s a ha => (howns s).mapped a (List.mem_append_left _ ha)
  constructor
  · intro s t a hs ht
    exact Option.some.inj ((hmapped s a hs).symm.trans (hmapped t a ht))
  · intro s a ha t ht
    have hs := (howns s).granted a ha
    exact Option.some.inj ((hmapped t _ ht).symm.trans (hmapped s _ hs))

instance (p : AddressPool) (pc : Pc) : Decidable (pc.FindsFree p) :=
  match pc with
  | .insert a => inferInstanceAs (Decidable (p.allocated a.ipAddress = none))
  | .idle | .drawV4 _ | .drawV6 _ | .inPool _ _ | .gateway _ _ | .containsKey _ _ | .push _
  | .returned _ | .removeAllocations | .removeAllocated _ _ | .freeInsert _ _ => .isTrue trivial

instance (σ : Sys) (a : Label) : Decidable (InsertsFree σ a) :=
  match a with
  | .task s _ => inferInstanceAs (Decidable ((σ.task s).FindsFree σ.shared))
  | .env _ => .isTrue trivial

theorem exclusive_run_two_draws :
    ∃ (acts : List Label) (σ : Sys),
      Run (Guarded InsertsFree (Fires step)) (initial testNet none) acts σ ∧
      σ.shared.held ⟨0⟩ = [.v4 0x0a640002#32] ∧ σ.shared.held ⟨4⟩ = [.v4 0x0a640003#32] ∧
      Exclusive σ := by
  let acts : List Label :=
    [.task ⟨0⟩ (.start .allocateV4), .task ⟨4⟩ (.start .allocateV4), .task ⟨0⟩ .tick,
      .task ⟨4⟩ .tick, .task ⟨0⟩ .tick, .task ⟨4⟩ .tick, .task ⟨0⟩ .tick, .task ⟨4⟩ .tick]
  have hexec : (exec (restrict InsertsFree step) (initial testNet none) acts).map
      (fun σ => (σ.shared.held ⟨0⟩, σ.shared.held ⟨4⟩)) =
      some ([.v4 0x0a640002#32], [.v4 0x0a640003#32]) := by decide +kernel
  obtain ⟨σ, hσ, hheld⟩ := Option.map_eq_some_iff.mp hexec
  obtain ⟨h0, h4⟩ := Prod.mk.inj hheld
  have hrun := guarded_run_of_exec hσ
  exact ⟨acts, σ, hrun, h0, h4, exclusive_run hrun⟩

/-- Both sessions ask for `10.100.0.5` and find it free before either records it. -/
theorem specific_request_granted_twice :
    ∃ (acts : List Label) (σ : Sys),
      Run (Fires step) (initial testNet none) acts σ ∧
      σ.task ⟨0⟩ = .returned (some ⟨9, 4, .v4 0x0a640005#32, 32⟩) ∧
      σ.task ⟨4⟩ = .returned (some ⟨9, 4, .v4 0x0a640005#32, 32⟩) ∧
      .v4 0x0a640005#32 ∈ σ.shared.held ⟨0⟩ ∧ .v4 0x0a640005#32 ∈ σ.shared.held ⟨4⟩ ∧
      ¬ Exclusive σ := by
  let ask : Act := .start (.allocateForRequest ⟨9, 4, .v4 0x0a640005#32, 32⟩)
  let acts : List Label :=
    [.task ⟨0⟩ ask, .task ⟨4⟩ ask] ++
      (List.replicate 5 [Tasks.Label.task ⟨0⟩ Act.tick, .task ⟨4⟩ .tick]).flatten
  have hexec : (exec step (initial testNet none) acts).map
      (fun σ => (σ.task ⟨0⟩, σ.task ⟨4⟩, σ.shared.held ⟨0⟩, σ.shared.held ⟨4⟩)) =
      some (.returned (some ⟨9, 4, .v4 0x0a640005#32, 32⟩),
        .returned (some ⟨9, 4, .v4 0x0a640005#32, 32⟩),
        [.v4 0x0a640005#32], [.v4 0x0a640005#32]) := by decide +kernel
  obtain ⟨σ, hσ, hfinal⟩ := Option.map_eq_some_iff.mp hexec
  simp only [Prod.mk.injEq] at hfinal
  obtain ⟨ht0, ht4, h0, h4⟩ := hfinal
  have hmem0 : IpAddr.v4 0x0a640005#32 ∈ σ.shared.held ⟨0⟩ := by rw [h0]; simp
  have hmem4 : IpAddr.v4 0x0a640005#32 ∈ σ.shared.held ⟨4⟩ := by rw [h4]; simp
  refine ⟨acts, σ, run_of_exec hσ, ht0, ht4, hmem0, hmem4, ?_⟩
  intro hexcl
  have hsame := hexcl.recorded _ _ _ hmem0 hmem4
  cases hsame

end Ownership

end Straw.AddressPool
