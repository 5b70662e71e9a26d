import Straw.Client.Tunnel
import Straw.Session.Delivery
import Straw.Session.Scope
import Straw.Session.Views

/-!
# Setting up a tunnel

The client waits until it knows its addresses and its routes. Whatever the chunks in
which the server's stream arrives, the wait ends, with the routes that the server
enforces and with addresses that the pool has recorded for the session.
-/

namespace Straw

open Outcome Transition AddressPool
set_option autoImplicit false

namespace Client.Tunnel

/-- What the callers look at. -/
abbrev View := List AssignedAddress × List IpAddressRange

def view (t : Tunnel) : View := (t.assigned, t.routes)

def applyView (v : View) : Capsule → View
  | .addressAssign addrs => (addrs, v.2)
  | .routeAdvertisement ranges => (v.1, ranges)
  | _ => v

theorem view_foldl_applyCapsule (capsules : List Capsule) (t : Tunnel) :
    (capsules.foldl applyCapsule t).view = capsules.foldl applyView t.view := by
  induction capsules generalizing t with
  | nil => rfl
  | cons c capsules ih =>
    rw [List.foldl_cons, ih, List.foldl_cons]
    cases c <;> rfl

theorem processNextCapsules_shorter {t t' : Tunnel} {chunks rest : List Bytes}
    {seen : List Capsule} (h : t.processNextCapsules chunks = (.ok seen, t', rest)) :
    rest.length < chunks.length := by
  induction chunks generalizing t with
  | nil => cases h
  | cons chunk chunks ih =>
    simp only [processNextCapsules] at h
    split at h
    · cases h
    · split at h
      · exact Nat.lt_succ_of_lt (ih h)
      · obtain ⟨-, rfl⟩ := Prod.mk.inj (Prod.mk.inj h).2
        exact Nat.lt_succ_self _

/-- Call `process_next_capsules` until `done` holds of what a call has seen and left. -/
def readUntil (done : List Capsule → View → Bool) (t : Tunnel) (chunks : List Bytes) :
    Except ProxyError Unit × Tunnel × List Bytes :=
  match _hcall : t.processNextCapsules chunks with
  | (.error e, t', rest) => (.error e, t', rest)
  | (.ok seen, t', rest) => if done seen t'.view then (.ok (), t', rest) else readUntil done t' rest
termination_by chunks.length
decreasing_by exact processNextCapsules_shorter _hcall

theorem readUntil_of_ok {done : List Capsule → View → Bool} {t t' : Tunnel}
    {chunks rest : List Bytes} {seen : List Capsule}
    (h : t.processNextCapsules chunks = (.ok seen, t', rest)) :
    t.readUntil done chunks =
      if done seen t'.view then (.ok (), t', rest) else t'.readUntil done rest := by
  rw [readUntil]
  split
  · next heq =>
    rw [h] at heq
    cases heq
  · next heq =>
    rw [h] at heq
    cases heq
    rfl

def ready (v : View) : Bool := !(v.1.isEmpty || v.2.isEmpty)

def waitForAssignment (t : Tunnel) (chunks : List Bytes) :
    Except ProxyError Unit × Tunnel × List Bytes :=
  if ready t.view then (.ok (), t, chunks) else readUntil (fun _ v => ready v) t chunks

/-! Reading a stream of capsules -/

/-- The buffer and the chunks still to come are the capsules `cs`, and no capsule is
complete in the buffer. -/
structure Unread (t : Tunnel) (chunks : List Bytes) (cs : List Capsule) : Prop where
  dry : CapsuleBuffer.framer.next t.capsules.buf = (.ok none, t.capsules.buf)
  frames : ∃ frames, List.Forall₂ CapsuleBuffer.framer.Frame frames (cs.map .ok) ∧
    t.capsules.buf ++ chunks.flatten = frames.flatten

theorem unread_new {frames chunks : List Bytes} {cs : List Capsule}
    (h : List.Forall₂ CapsuleBuffer.framer.Frame frames (cs.map .ok))
    (hchunks : chunks.flatten = frames.flatten) : Unread new chunks cs where
  dry := CapsuleBuffer.framer.starts
  frames := ⟨frames, h, hchunks⟩

/-- One chunk of the stream is one or more of its capsules, or a part of one. -/
theorem Unread.receive {t : Tunnel} {chunk : Bytes} {chunks : List Bytes} {cs : List Capsule}
    (h : t.Unread (chunk :: chunks) cs) :
    (t.capsules.push chunk).drain.error = none ∧
      ∃ rest, cs = (t.capsules.push chunk).drain.messages ++ rest ∧
        (t.receive chunk).Unread chunks rest ∧
        (t.receive chunk).view =
          (t.capsules.push chunk).drain.messages.foldl applyView t.view := by
  obtain ⟨frames, hframes, hstream⟩ := h.frames
  rw [List.flatten_cons, ← List.append_assoc] at hstream
  obtain ⟨herror, restFrames, rest, hcs, hrest, hleft⟩ := Framer.drain_stream hframes hstream
  refine ⟨herror, rest, hcs, ⟨Framer.drain_dry herror, restFrames, hrest, hleft⟩, ?_⟩
  exact view_foldl_applyCapsule _ t

theorem Unread.nil_of_no_chunks {t : Tunnel} {cs : List Capsule} (h : t.Unread [] cs) :
    cs = [] := by
  obtain ⟨frames, hframes, hstream⟩ := h.frames
  rw [List.flatten_nil, List.append_nil] at hstream
  cases cs with
  | nil => rfl
  | cons c cs =>
    cases hframes with
    | @cons frame _ frames _ hframe _ =>
      have hdry := h.dry
      rw [hstream, List.flatten_cons, hframe.next] at hdry
      cases (Prod.mk.inj hdry).1

/-- A call returns a batch of the capsules that are still to come, until there is none. -/
theorem processNextCapsules_cases {t : Tunnel} {chunks : List Bytes} {cs : List Capsule}
    (h : t.Unread chunks cs) :
    (∃ seen rest t' chunks', cs = seen ++ rest ∧ seen ≠ [] ∧
      t.processNextCapsules chunks = (.ok seen, t', chunks') ∧ t'.Unread chunks' rest ∧
      t'.view = seen.foldl applyView t.view) ∨
    (cs = [] ∧ ∃ t' chunks',
      t.processNextCapsules chunks = (.error (.http "proxy closed the tunnel"), t', chunks')) := by
  induction chunks generalizing t cs with
  | nil => exact .inr ⟨h.nil_of_no_chunks, t, [], rfl⟩
  | cons chunk chunks ih =>
    obtain ⟨herror, rest, hcs, hunread, hview⟩ := h.receive
    simp only [processNextCapsules, herror]
    split
    · next hempty =>
      rw [List.isEmpty_iff] at hempty
      rw [hempty] at hcs hview
      obtain rfl : cs = rest := hcs
      rcases ih hunread with ⟨seen, rest', t', chunks', hsplit, hne, hcall, hleft, hview'⟩ | hclosed
      · refine .inl ⟨seen, rest', t', chunks', hsplit, hne, hcall, hleft, ?_⟩
        rw [hview', hview]
        rfl
      · exact .inr hclosed
    · next hempty =>
      refine .inl ⟨_, rest, _, chunks, hcs, ?_, rfl, hunread, hview⟩
      exact fun hnil => hempty (List.isEmpty_iff.mpr hnil)

/-- None of the batches satisfies `done`, with the view after it. -/
def Unmet (done : List Capsule → View → Bool) : View → List (List Capsule) → Prop
  | _, [] => True
  | v, seen :: batches =>
    done seen (seen.foldl applyView v) = false ∧ Unmet done (seen.foldl applyView v) batches

/-- The loop ends with a batch that satisfies `done`, or it has read every capsule. -/
theorem readUntil_cases (done : List Capsule → View → Bool) {t : Tunnel} {chunks : List Bytes}
    {cs : List Capsule} (h : t.Unread chunks cs) :
    (∃ before seen after t' chunks', cs = before ++ (seen ++ after) ∧
      t.readUntil done chunks = (.ok (), t', chunks') ∧ t'.Unread chunks' after ∧
      t'.view = (before ++ seen).foldl applyView t.view ∧ done seen t'.view = true) ∨
    (∃ batches, cs = batches.flatten ∧ Unmet done t.view batches) := by
  induction hn : chunks.length using Nat.strongRecOn generalizing t chunks cs with
  | ind n ih =>
    subst hn
    rcases processNextCapsules_cases h with
      ⟨seen, rest, t', chunks', rfl, hne, hcall, hunread, hview⟩ | ⟨rfl, t', chunks', hcall⟩
    · by_cases hdone : done seen t'.view = true
      · refine .inl ⟨[], seen, rest, t', chunks', rfl, ?_, hunread, by simpa using hview, hdone⟩
        rw [readUntil_of_ok hcall, if_pos hdone]
      · rw [readUntil_of_ok hcall, if_neg hdone]
        rcases ih chunks'.length (processNextCapsules_shorter hcall) hunread rfl with
          ⟨before, last, after, t'', chunks'', rfl, hread, hleft, hview', hlast⟩ |
          ⟨batches, rfl, hunmet⟩
        · refine .inl ⟨seen ++ before, last, after, t'', chunks'', by simp, hread, hleft, ?_, hlast⟩
          simp only [hview', hview, List.foldl_append]
        · refine .inr ⟨seen :: batches, by simp, ?_, ?_⟩
          · rw [← hview]
            exact Bool.eq_false_iff.mpr hdone
          · rw [← hview]
            exact hunmet
    · exact .inr ⟨[], rfl, trivial⟩

theorem not_ready_of_unmet {v : View} {batches : List (List Capsule)}
    (h : Unmet (fun _ v => ready v) v batches) (hv : ready v = false) :
    ready (batches.flatten.foldl applyView v) = false := by
  induction batches generalizing v with
  | nil => exact hv
  | cons seen batches ih =>
    rw [List.flatten_cons, List.foldl_append]
    exact ih h.2 h.1

/-- The wait ends on a stream that has an assignment and routes to offer in the end. -/
theorem waitForAssignment_of_ready {t : Tunnel} {chunks : List Bytes} {cs : List Capsule}
    (h : t.Unread chunks cs) (hready : ready (cs.foldl applyView t.view) = true) :
    ∃ before after t' chunks', cs = before ++ after ∧
      t.waitForAssignment chunks = (.ok (), t', chunks') ∧ t'.Unread chunks' after ∧
      t'.view = before.foldl applyView t.view ∧ ready t'.view = true := by
  unfold waitForAssignment
  split
  · next hnow => exact ⟨[], cs, t, chunks, rfl, rfl, h, rfl, hnow⟩
  · next hnow =>
    rcases readUntil_cases (fun _ v => ready v) h with
      ⟨before, seen, after, t', chunks', rfl, hread, hleft, hview, hdone⟩ | ⟨batches, rfl, hunmet⟩
    · exact ⟨before ++ seen, after, t', chunks', by simp, hread, hleft, hview, hdone⟩
    · rw [not_ready_of_unmet hunmet (Bool.eq_false_iff.mpr hnow)] at hready
      cases hready

end Client.Tunnel

/-! What the server has announced -/

/-- The two capsules of the setup, and the answers behind them. Every list of addresses
among them is a part of the handler's. -/
def Announcement (sent : List Bytes) (routes : List IpAddressRange)
    (assigned : List AssignedAddress) : Prop :=
  ∃ b₁ b₂ more, sent = b₁ :: b₂ :: more ∧ Sends (.routeAdvertisement routes) b₂ ∧
    ∀ b ∈ b₁ :: more, ∃ addrs, (addrs ≠ [] ∧ addrs <+: assigned) ∧ Sends (.addressAssign addrs) b

namespace Announcement

variable {sent : List Bytes} {routes : List IpAddressRange} {assigned : List AssignedAddress}

theorem grow (h : Announcement sent routes assigned) (a : AssignedAddress) :
    Announcement sent routes (assigned ++ [a]) := by
  obtain ⟨b₁, b₂, more, hsent, hroutes, hassigns⟩ := h
  refine ⟨b₁, b₂, more, hsent, hroutes, ?_⟩
  intro b hb
  obtain ⟨addrs, ⟨hne, hpart⟩, hsends⟩ := hassigns b hb
  exact ⟨addrs, ⟨hne, hpart.trans (List.prefix_append _ _)⟩, hsends⟩

theorem assigned_ne (h : Announcement sent routes assigned) : assigned ≠ [] := by
  obtain ⟨b₁, b₂, more, -, -, hassigns⟩ := h
  obtain ⟨addrs, ⟨hne, hpart⟩, -⟩ := hassigns b₁ List.mem_cons_self
  rintro rfl
  exact hne (List.prefix_nil.mp hpart)

theorem answer (h : Announcement sent routes assigned) {b : Bytes}
    (hb : Sends (.addressAssign assigned) b) : Announcement (sent ++ [b]) routes assigned := by
  have hne := h.assigned_ne
  obtain ⟨b₁, b₂, more, rfl, hroutes, hassigns⟩ := h
  refine ⟨b₁, b₂, more ++ [b], rfl, hroutes, ?_⟩
  rw [← List.cons_append]
  exact List.forall_mem_append.mpr ⟨hassigns, by
    simpa using ⟨assigned, ⟨hne, List.prefix_rfl⟩, hb⟩⟩

end Announcement

namespace Stage

def Announced (sent : List Bytes) : Stage → Prop
  | accept _ | allocateV4 _ | allocateV6 _ _ => sent = []
  | sendAssign _ assigned => sent = [] ∧ assigned ≠ []
  | sendRoutes _ assigned => ∃ b, sent = [b] ∧ assigned ≠ [] ∧ Sends (.addressAssign assigned) b
  | install t assigned _ | register t assigned | publish t assigned | loop t assigned
  | capsules t assigned _ | request t assigned _ _ | installOne t assigned _ _ _
  | reply t assigned _ => Announcement sent t.routes assigned
  | idle | release | removeRoutes | unregister | remove => True

variable {s : SessionId} {srv srv' : Server} {stage stage' : Stage} {ok : Bool} {now : Nat}
  {sent : List Bytes}

theorem Announced.tick (h : stage.Announced sent) (hout : stage.outgoing = none)
    (hstep : stage.tick s ok now srv = some (srv', stage')) : stage'.Announced sent := by
  cases tick_cases hstep with
  | sendAssign | sendRoutes | reply => cases hout
  | accept =>
    cases ok with
    | true => exact h
    | false => trivial
  | allocateV6 =>
    split
    · trivial
    · next hempty => exact ⟨h, fun hnil => hempty (List.isEmpty_iff.mpr hnil)⟩
  | capsule _ _ capsule => cases capsule <;> exact h
  | installOne _ _ a => exact Announcement.grow h a
  | broken | release | removeRoutes | unregister | remove => trivial
  | _ => exact h

theorem Announced.send (h : stage.Announced sent) {capsule : Capsule} {bytes : Bytes}
    (hout : stage.outgoing = some capsule) (hbytes : Sends capsule bytes)
    (hstep : stage.tick s ok now srv = some (srv', stage')) :
    stage'.Announced (if ok then sent ++ [bytes] else sent) := by
  cases tick_cases hstep with
  | sendAssign t assigned =>
    obtain rfl := Option.some.inj hout
    obtain ⟨rfl, hne⟩ := h
    cases ok with
    | true => exact ⟨bytes, rfl, hne, hbytes⟩
    | false => trivial
  | sendRoutes t assigned =>
    obtain rfl := Option.some.inj hout
    obtain ⟨b, rfl, hne, hsends⟩ := h
    cases ok with
    | true =>
      exact ⟨b, bytes, [], rfl, hbytes, by simpa using ⟨assigned, ⟨hne, List.prefix_rfl⟩, hsends⟩⟩
    | false => trivial
  | reply t assigned pending =>
    obtain rfl := Option.some.inj hout
    cases ok with
    | true => exact Announcement.answer h hbytes
    | false => trivial
  | _ => cases hout

/-- At the head of the loop nothing but the end of the tunnel changes the announcement. -/
theorem Announced.leave {t : Tunnel} {assigned : List AssignedAddress} {act : HandlerAct}
    (h : (loop t assigned).Announced sent)
    (hstep : Straw.handle s act srv (.loop t assigned) = some (srv', stage')) :
    stage'.Announced sent := by
  cases act with
  | start => cases hstep
  | tick ok now => cases hstep
  | chunk pending =>
    obtain ⟨-, rfl⟩ := Prod.mk.inj (Option.some.inj hstep)
    exact h
  | close =>
    obtain ⟨-, rfl⟩ := Prod.mk.inj (Option.some.inj hstep)
    trivial
  | refreshMtu max =>
    obtain ⟨-, rfl⟩ := Prod.mk.inj (Option.some.inj hstep)
    exact h

end Stage

theorem Link.announced_effect {s : SessionId} {hub hub' : Hub} {link link' : Link} {act : LinkAct}
    (h : link.stage.Announced link.sent) (hwired : Wired s hub link)
    (heffect : link.Effect s hub act hub' link') : link'.stage.Announced link'.sent := by
  have hleave : ∀ {calls : Nat} {act : HandlerAct} {server : Server} {stage : Stage},
      link.future = some calls → Straw.handle s act hub.server link.stage = some (server, stage) →
      stage.Announced link.sent := by
    intro calls act server stage hfuture hstep
    obtain ⟨t, assigned, hloop⟩ := hwired.parked calls hfuture
    rw [hloop] at h hstep
    exact h.leave hstep
  cases heffect with
  | start hstep =>
    obtain ⟨-, rfl | rfl⟩ := handle_start hstep
    · trivial
    · exact rfl
  | tick _ hout hstep =>
    have hsent : (link.keep hub).sent = link.sent := by
      unfold Link.keep
      split <;> rfl
    simp only [hsent]
    exact h.tick hout hstep
  | send _ hout hbytes hstep => exact h.send hout hbytes hstep
  | unwind => exact h
  | enter => exact h
  | recv hfuture hstep => exact hleave hfuture hstep
  | finish hfuture hstep => exact hleave hfuture hstep
  | notified hfuture _ hstep => exact hleave hfuture hstep
  | refreshMtu hfuture hstep => exact hleave hfuture hstep

/-! The frames of the announcement -/

theorem nextCapsule_of_decode {buf rest : Bytes} {c : Capsule}
    (h : decodeCapsule buf = .ok (c, rest)) : nextCapsule buf = (.ok (some c), rest) := by
  obtain ⟨⟨capsuleType, view⟩, htype, hdecode⟩ := bind_eq_ok.mp h
  obtain ⟨⟨capsuleLength, view'⟩, hlength, hdecode⟩ := bind_eq_ok.mp hdecode
  simp only at hlength hdecode
  split at hdecode
  · cases hdecode
  · next hfits =>
    rw [nextCapsule, htype]
    simp only [hlength, if_neg hfits, h]

theorem frame_resolved {config : RouteConfig} {pool : AddressPool} {resolver : Resolver}
    {scope : RequestScope} {routes : List IpAddressRange} {b : Bytes}
    (hresolved : resolveAdvertisedRoutes config pool resolver scope = .ok routes)
    (hb : Sends (.routeAdvertisement routes) b) :
    CapsuleBuffer.framer.Frame b (.ok (.routeAdvertisement routes)) := by
  obtain ⟨⟨payload, -, hread⟩, hsorted⟩ :=
    resolveAdvertisedRoutes_readBack (ε := ProxyError) hresolved
  rcases hread with ⟨-, hpanic⟩ | ⟨bytes, hbytes, hdecode⟩
  · rw [Sends, hpanic] at hb
    cases hb
  · obtain rfl := Except.ok.inj (hbytes.symm.trans hb)
    have hself := hdecode []
    rw [List.append_nil, hsorted] at hself
    exact nextCapsule_of_decode hself

/-- No resolution comes out empty. -/
theorem resolveAdvertisedRoutes_ne_nil {config : RouteConfig} {pool : AddressPool}
    {resolver : Resolver} {scope : RequestScope} {routes : List IpAddressRange}
    (h : resolveAdvertisedRoutes config pool resolver scope = .ok routes) : routes ≠ [] := by
  obtain ⟨ranges, hranges, hout⟩ := bind_eq_ok.mp h
  obtain rfl := Except.ok.inj hout
  have hvalid : ∀ r ∈ ranges, r.Valid := fun r hr => (advertisedRanges_spec hranges r hr).1
  have hne : ranges ≠ [] := by
    unfold advertisedRanges at hranges
    simp only at hranges
    split at hranges
    · split at hranges <;> (obtain rfl := Except.ok.inj hranges; simp [AddressPool.poolNets])
    · split at hranges
      · cases hranges
      · obtain rfl := Except.ok.inj hranges
        simp
    · split at hranges
      · cases hranges
      · split at hranges
        · cases hranges
        · next hsome =>
          obtain rfl := Except.ok.inj hranges
          exact hsome
  obtain ⟨r, hr⟩ := List.exists_mem_of_ne_nil ranges hne
  have hself : r.contains r.startIp r.ipProtocol = true := by
    obtain ⟨⟨hversion, -⟩, hle⟩ := hvalid r hr
    exact IpAddressRange.contains_iff.mpr ⟨⟨hversion.symm, Nat.le_refl _, hle⟩, .inr (.inl rfl)⟩
  obtain ⟨r', hr', -⟩ := (mergeRanges_contains hvalid _ _).mpr ⟨r, hr, hself⟩
  exact List.ne_nil_of_mem hr'

section Reading

open Client.Tunnel

variable {P : List AssignedAddress → Prop}

theorem exists_assigns {bs : List Bytes}
    (h : ∀ b ∈ bs, ∃ addrs, P addrs ∧ CapsuleBuffer.framer.Frame b (.ok (.addressAssign addrs))) :
    ∃ lists : List (List AssignedAddress), (∀ addrs ∈ lists, P addrs) ∧
      List.Forall₂ CapsuleBuffer.framer.Frame bs
        ((lists.map Capsule.addressAssign).map .ok) := by
  induction bs with
  | nil => exact ⟨[], by simp, .nil⟩
  | cons b bs ih =>
    obtain ⟨addrs, haddrs, hframe⟩ := h b List.mem_cons_self
    obtain ⟨lists, hlists, hframes⟩ := ih fun x hx => h x (List.mem_cons_of_mem b hx)
    exact ⟨addrs :: lists, List.forall_mem_cons.mpr ⟨haddrs, hlists⟩, .cons hframe hframes⟩

theorem foldl_assigns {lists : List (List AssignedAddress)} (h : ∀ addrs ∈ lists, P addrs)
    {v : View} (hv : P v.1) :
    P ((lists.map Capsule.addressAssign).foldl applyView v).1 ∧
      ((lists.map Capsule.addressAssign).foldl applyView v).2 = v.2 := by
  induction lists generalizing v with
  | nil => exact ⟨hv, rfl⟩
  | cons addrs lists ih =>
    have hnext : P (applyView v (.addressAssign addrs)).1 := h addrs List.mem_cons_self
    exact ih (fun x hx => h x (List.mem_cons_of_mem addrs hx)) hnext

/-- What a client knows that has read enough of the announcement. -/
theorem view_of_ready {first : List AssignedAddress} {routes : List IpAddressRange}
    {lists : List (List AssignedAddress)} (hfirst : P first) (hlists : ∀ addrs ∈ lists, P addrs)
    {before after : List Capsule}
    (hsplit : .addressAssign first :: .routeAdvertisement routes ::
      lists.map Capsule.addressAssign = before ++ after)
    (hready : ready (before.foldl applyView ([], [])) = true) :
    P (before.foldl applyView ([], [])).1 ∧ (before.foldl applyView ([], [])).2 = routes := by
  match before with
  | [] => cases hready
  | [c] =>
    obtain ⟨rfl, -⟩ := List.cons.inj hsplit
    cases first <;> cases hready
  | c :: c' :: before =>
    obtain ⟨rfl, htail⟩ := List.cons.inj hsplit
    obtain ⟨rfl, hrest⟩ := List.cons.inj htail
    obtain ⟨lists', more, rfl, rfl, -⟩ := List.map_eq_append_iff.mp hrest
    exact foldl_assigns (v := (first, routes))
      (fun x hx => hlists x (List.mem_append_left _ hx)) hfirst

end Reading

section Runs

variable {config : ProxyConfig} {ipv4 : Ipv4Net} {ipv6 : Option Ipv6Net}
  {tunTx : Option (Bytes → Bool)} {icmpSource : IcmpSource} {limits : RateLimits}
  {maxSessions timeout : Nat} {labels : List LinkLabel} {σ : LinkSys}

theorem announced_run
    (h : Run (Fires linkStep)
      (Hub.initial config ipv4 ipv6 tunTx icmpSource limits maxSessions timeout) labels σ)
    (s : SessionId) : (σ.task s).stage.Announced (σ.task s).sent :=
  link_run (P := fun link => link.stage.Announced link.sent) trivial Link.announced_effect h s

/-- The setup of a tunnel comes to an end. However the stream of the server is cut, the
client gets the routes of the server's policy, and addresses that the pool and the route
table have for the session. -/
theorem setup_completes
    (h : Run (Fires linkStep)
      (Hub.initial config ipv4 ipv6 tunTx icmpSource limits maxSessions timeout) labels σ)
    {s : SessionId} {t : Tunnel} {assigned : List AssignedAddress}
    (hloop : (σ.task s).stage = .loop t assigned) {routeConfig : RouteConfig} {pool : AddressPool}
    {resolver : Resolver} {scope : RequestScope}
    (hresolved : resolveAdvertisedRoutes routeConfig pool resolver scope = .ok t.routes)
    {chunks : List Bytes} (hchunks : chunks.flatten = (σ.task s).sent.flatten) :
    ∃ client left, Client.Tunnel.new.waitForAssignment chunks = (.ok (), client, left) ∧
      client.routes = t.routes ∧ client.assigned ≠ [] ∧
      ∀ a ∈ client.assigned, a.ipAddress ∈ σ.shared.server.pool.held s ∧
        σ.shared.server.engine.routeTable.clientAddrs a.ipAddress = some s := by
  obtain ⟨labels', hserver⟩ := run_server h
  have hledger : Ledger s σ.shared.server (σ.task s).stage.facts := ledger_run hserver s
  have hsound := (transmits_run h s).sound
  have hannounced := announced_run h s
  rw [hloop] at hledger hsound hannounced
  obtain ⟨b₁, b₂, more, hsent, hroutes, hassigns⟩ := hannounced
  have hframe : ∀ b ∈ b₁ :: more, ∃ addrs, (addrs ≠ [] ∧ addrs <+: assigned) ∧
      CapsuleBuffer.framer.Frame b (.ok (.addressAssign addrs)) := by
    intro b hb
    obtain ⟨addrs, hpart, hsends⟩ := hassigns b hb
    exact ⟨addrs, hpart,
      frame_addressAssign (fun a ha => hsound.assigned a (hpart.2.subset ha)) hsends⟩
  obtain ⟨first, hfirst, hframe₁⟩ := hframe b₁ List.mem_cons_self
  obtain ⟨lists, hlists, hframes⟩ :=
    exists_assigns fun b hb => hframe b (List.mem_cons_of_mem b₁ hb)
  have hunread : Client.Tunnel.new.Unread chunks
      (.addressAssign first :: .routeAdvertisement t.routes :: lists.map Capsule.addressAssign) :=
    Client.Tunnel.unread_new
      (.cons hframe₁ (.cons (frame_resolved hresolved hroutes) hframes)) (hsent ▸ hchunks)
  have hall := foldl_assigns (v := (first, t.routes)) hlists hfirst
  have hready : Client.Tunnel.ready ((.addressAssign first :: .routeAdvertisement t.routes ::
      lists.map Capsule.addressAssign).foldl Client.Tunnel.applyView Client.Tunnel.new.view) =
        true := by
    change Client.Tunnel.ready ((lists.map Capsule.addressAssign).foldl Client.Tunnel.applyView
      (first, t.routes)) = true
    have hne := resolveAdvertisedRoutes_ne_nil hresolved
    rw [Client.Tunnel.ready, hall.2, Bool.not_eq_true', Bool.or_eq_false_iff]
    exact ⟨List.isEmpty_eq_false_iff.mpr hall.1.1, List.isEmpty_eq_false_iff.mpr hne⟩
  obtain ⟨before, after, client, left, hsplit, hwait, -, hview, hclient⟩ :=
    Client.Tunnel.waitForAssignment_of_ready hunread hready
  rw [hview] at hclient
  obtain ⟨⟨hne, hpart⟩, hclientRoutes⟩ := view_of_ready hfirst hlists hsplit hclient
  have hassigned : client.assigned = (before.foldl Client.Tunnel.applyView ([], [])).1 :=
    congrArg Prod.fst hview
  rw [← hassigned] at hne hpart
  refine ⟨client, left, hwait, (congrArg Prod.snd hview).trans hclientRoutes, hne, ?_⟩
  intro a ha
  have hmem : a.ipAddress ∈ assigned.map (·.ipAddress) :=
    List.mem_map_of_mem (hpart.subset ha)
  obtain ⟨installed, hinstalled, hiff⟩ :=
    hledger.addrs (by simp [Stage.facts, Stage.phase]) (by simp [Stage.facts, Stage.phase])
  have hsame : assigned = installed := hinstalled.trans (List.append_nil installed)
  refine ⟨?_, (hiff a.ipAddress).mpr (hsame ▸ hmem)⟩
  rw [hledger.held (by simp [Stage.facts, Stage.phase])]
  exact hmem

/-- The client reads the stream byte by byte. -/
theorem setup_completes_single_bytes :
    ∃ σ client left, Run (Fires linkStep) reapingHub (acceptTunnel 0) σ ∧
      Client.Tunnel.new.waitForAssignment ((σ.task ⟨0⟩).sent.flatten.map fun b => [b]) =
        (.ok (), client, left) ∧
      client.routes = [⟨4, .v4 0#32, .v4 0xffffffff#32, 0⟩] ∧
      ∀ a ∈ client.assigned, a.ipAddress ∈ σ.shared.server.pool.held ⟨0⟩ := by
  have hexec : (exec linkStep reapingHub (acceptTunnel 0)).map (fun σ =>
      ((σ.task ⟨0⟩).stage.isLoop, (σ.task ⟨0⟩).stage.serves.map Tunnel.routes)) =
      some (true, some [⟨4, .v4 0#32, .v4 0xffffffff#32, 0⟩]) := by decide +kernel
  obtain ⟨σ, hσ, hview⟩ := Option.map_eq_some_iff.mp hexec
  simp only [Prod.mk.injEq] at hview
  obtain ⟨hisLoop, hroutes⟩ := hview
  obtain ⟨t, assigned, hloop⟩ := Stage.isLoop_iff.mp hisLoop
  rw [hloop] at hroutes
  have htunnel : t.routes = [⟨4, .v4 0#32, .v4 0xffffffff#32, 0⟩] := Option.some.inj hroutes
  have hresolved : resolveAdvertisedRoutes ⟨[], none⟩ (AddressPool.new testNet none)
      ⟨fun _ => .error "no such host", "invalid prefix length"⟩
      ⟨some (.prefixed (.v4 0#32) 0), none⟩ = .ok t.routes := by
    rw [htunnel]
    decide +kernel
  have hchunks : ((σ.task ⟨0⟩).sent.flatten.map fun b => [b]).flatten =
      (σ.task ⟨0⟩).sent.flatten := by
    rw [← List.flatMap_def, List.flatMap_singleton']
  obtain ⟨client, left, hwait, hclient, -, hheld⟩ :=
    setup_completes (run_of_exec hσ) hloop hresolved hchunks
  exact ⟨σ, client, left, run_of_exec hσ, hwait, hclient.trans htunnel, fun a ha => (hheld a ha).1⟩

end Runs

end Straw
