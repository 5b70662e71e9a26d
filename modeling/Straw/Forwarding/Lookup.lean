import Straw.Forwarding.Router
import Straw.Lib.History

/-!
# Longest-prefix match over the history of the route table

The table keeps one vector of routes and one owner per address. What a lookup answers is
stated here over the operations that were made: which assignments and which routes still
stand, and which of the routes is the longest and, among equals, the latest.
-/

namespace Straw

open History
set_option autoImplicit false

namespace RouteTable

section MaxByKey

variable {α : Type} {key : α → Nat} {x : α} {xs ys : List α}

/-- A nonempty list has a last largest element. -/
theorem exists_last_largest (key : α → Nat) (hne : xs ≠ []) :
    ∃ pre x post, xs = pre ++ x :: post ∧ (∀ y ∈ pre, key y ≤ key x) ∧ ∀ y ∈ post, key y < key x := by
  induction xs with
  | nil => exact absurd rfl hne
  | cons z zs ih =>
    by_cases hnil : zs = []
    · exact ⟨[], z, [], by rw [hnil]; rfl, by simp, by simp⟩
    obtain ⟨pre, x, post, rfl, hpre, hpost⟩ := ih hnil
    by_cases hle : key z ≤ key x
    · refine ⟨z :: pre, x, post, rfl, ?_, hpost⟩
      intro y hy
      rcases List.mem_cons.mp hy with rfl | hmem
      · exact hle
      · exact hpre y hmem
    · refine ⟨[], z, pre ++ x :: post, rfl, by simp, ?_⟩
      intro y hy
      rcases List.mem_append.mp hy with hmem | hmem
      · have := hpre y hmem
        omega
      · rcases List.mem_cons.mp hmem with rfl | hmem
        · omega
        · have := hpost y hmem
          omega

theorem foldl_max_of_lt (h : ∀ y ∈ ys, key y < key x) :
    ys.foldl (fun best y => if key best ≤ key y then y else best) x = x := by
  induction ys with
  | nil => rfl
  | cons y ys ih =>
    have hlt := h y List.mem_cons_self
    rw [List.foldl_cons, if_neg (by omega)]
    exact ih fun z hz => h z (List.mem_cons_of_mem y hz)

theorem foldl_max_of_le {bound : Nat} (hx : key x ≤ bound) (h : ∀ y ∈ ys, key y ≤ bound) :
    key (ys.foldl (fun best y => if key best ≤ key y then y else best) x) ≤ bound := by
  induction ys generalizing x with
  | nil => exact hx
  | cons y ys ih =>
    rw [List.foldl_cons]
    apply ih _ fun z hz => h z (List.mem_cons_of_mem y hz)
    split
    · exact h y List.mem_cons_self
    · exact hx

theorem maxByKey_of_split {pre post : List α} (hpre : ∀ y ∈ pre, key y ≤ key x)
    (hpost : ∀ y ∈ post, key y < key x) : maxByKey key (pre ++ x :: post) = some x := by
  cases pre with
  | nil => exact congrArg some (foldl_max_of_lt hpost)
  | cons z zs =>
    have hseed := foldl_max_of_le (hpre z List.mem_cons_self)
      fun y hy => hpre y (List.mem_cons_of_mem z hy)
    rw [List.cons_append, maxByKey, List.foldl_append, List.foldl_cons, if_pos hseed]
    exact congrArg some (foldl_max_of_lt hpost)

theorem maxByKey_eq_some_iff : maxByKey key xs = some x ↔ ∃ pre post, xs = pre ++ x :: post ∧
    (∀ y ∈ pre, key y ≤ key x) ∧ ∀ y ∈ post, key y < key x := by
  constructor
  · intro h
    have hne : xs ≠ [] := by
      rintro rfl
      cases h
    obtain ⟨pre, y, post, rfl, hpre, hpost⟩ := exists_last_largest key hne
    rw [maxByKey_of_split hpre hpost] at h
    cases h
    exact ⟨pre, post, rfl, hpre, hpost⟩
  · rintro ⟨pre, post, rfl, hpre, hpost⟩
    exact maxByKey_of_split hpre hpost

theorem maxByKey_eq_none (h : maxByKey key xs = none) : xs = [] := by
  cases xs with
  | nil => rfl
  | cons y ys => cases h

theorem mem_of_maxByKey (h : maxByKey key xs = some x) : x ∈ xs := by
  obtain ⟨pre, post, rfl, -⟩ := maxByKey_eq_some_iff.mp h
  exact List.mem_append_right _ List.mem_cons_self

theorem maxByKey_filter {q : α → Bool} (h : maxByKey key xs = some x) (hx : q x = true) :
    maxByKey key (xs.filter q) = some x := by
  obtain ⟨pre, post, rfl, hpre, hpost⟩ := maxByKey_eq_some_iff.mp h
  rw [List.filter_append, List.filter_cons_of_pos hx]
  apply maxByKey_of_split
  · exact fun y hy => hpre y (List.mem_of_mem_filter hy)
  · exact fun y hy => hpost y (List.mem_of_mem_filter hy)

/-- Two lists that differ in elements neither of which is the largest have the same largest. -/
theorem maxByKey_congr {q : α → Bool} (h : xs.filter q = ys.filter q)
    (hxs : ∀ x, maxByKey key xs = some x → q x = true)
    (hys : ∀ y, maxByKey key ys = some y → q y = true) : maxByKey key xs = maxByKey key ys := by
  cases hx : maxByKey key xs with
  | some x =>
    have hfilter := maxByKey_filter hx (hxs x hx)
    cases hy : maxByKey key ys with
    | some y =>
      rw [h, maxByKey_filter hy (hys y hy)] at hfilter
      exact hfilter.symm
    | none =>
      rw [h, maxByKey_eq_none hy] at hfilter
      cases hfilter
  | none =>
    cases hy : maxByKey key ys with
    | some y =>
      have hfilter := maxByKey_filter hy (hys y hy)
      rw [← h, maxByKey_eq_none hx] at hfilter
      cases hfilter
    | none => rfl

end MaxByKey

end RouteTable

/-- The route is for packets of the protocol to the address. -/
def RouteEntry.serves (r : RouteEntry) (dst : IpAddr) (proto : UInt8) : Bool :=
  r.net.contains dst &&
    (r.ipProtocol == 0 || r.ipProtocol == proto || proto == dst.icmpProto)

/-- The calls that change the table. -/
inductive RouteOp where
  | insertClientAddr (addr : IpAddr) (session : SessionId)
  | insertRoute (entry : RouteEntry)
  | replaceSessionRoutes (session : SessionId) (entries : List RouteEntry)
  | removeSession (session : SessionId)

namespace RouteOp

def routes : RouteOp → List RouteEntry
  | insertRoute entry => [entry]
  | replaceSessionRoutes _ entries => entries
  | _ => []

/-- A route falls with its session, or when its session's routes are replaced. -/
def withdraws : RouteOp → RouteEntry → Bool
  | replaceSessionRoutes session _, r => r.sessionId == session
  | removeSession session, r => r.sessionId == session
  | _, _ => false

def assigns : RouteOp → List (IpAddr × SessionId)
  | insertClientAddr addr session => [(addr, session)]
  | _ => []

/-- An address is given up with its session, or when it is given to another one. -/
def unassigns : RouteOp → IpAddr × SessionId → Bool
  | insertClientAddr addr _, a => a.1 == addr
  | removeSession session, a => a.2 == session
  | _, _ => false

/-- The call puts something there for the session. -/
def Installs (op : RouteOp) (s : SessionId) : Prop :=
  (∃ a ∈ op.assigns, a.2 = s) ∨ ∃ r ∈ op.routes, r.sessionId = s

end RouteOp

/-- The address was given to the session and is still its own. -/
def Owner (ops : List RouteOp) (addr : IpAddr) (s : SessionId) : Prop :=
  ∃ i j, Stands RouteOp.assigns RouteOp.unassigns ops i j (addr, s)

/-- The route was the `j`-th of call `i` and has not been withdrawn. -/
def Installed (ops : List RouteOp) (i j : Nat) (r : RouteEntry) : Prop :=
  Stands RouteOp.routes RouteOp.withdraws ops i j r

/-- The answer that longest-prefix matching gives for a history: an owner is a host route and
comes before every prefix; among routes the longest prefix counts, then the latest. -/
def LongestMatch (ops : List RouteOp) (dst : IpAddr) (proto : UInt8) : Option SessionId → Prop
  | some s => Owner ops dst s ∨ (∀ o, ¬ Owner ops dst o) ∧
      ∃ i j r, Installed ops i j r ∧ r.serves dst proto = true ∧ r.sessionId = s ∧
        ∀ i' j' r', Installed ops i' j' r' → r'.serves dst proto = true →
          r'.net.prefixLen < r.net.prefixLen ∨ r'.net.prefixLen = r.net.prefixLen ∧
            (Before (i', j') (i, j) ∨ (i', j') = (i, j))
  | none => (∀ o, ¬ Owner ops dst o) ∧
      ∀ i j r, Installed ops i j r → r.serves dst proto = false

namespace RouteTable

def apply (t : RouteTable) : RouteOp → RouteTable
  | .insertClientAddr addr session => t.insertClientAddr addr session
  | .insertRoute entry => t.insertRoute entry
  | .replaceSessionRoutes session entries => t.replaceSessionRoutes session entries
  | .removeSession session => t.removeSession session

def after (ops : List RouteOp) : RouteTable := ops.foldl apply new

theorem after_snoc (ops : List RouteOp) (op : RouteOp) :
    after (ops ++ [op]) = (after ops).apply op := by
  rw [after, List.foldl_append]
  rfl

theorem routes_apply (t : RouteTable) (op : RouteOp) :
    (t.apply op).routes = step RouteOp.routes RouteOp.withdraws t.routes op := by
  cases op with
  | insertClientAddr addr session =>
    change t.routes = t.routes.filter (fun _ => true) ++ []
    rw [List.filter_true, List.append_nil]
  | insertRoute entry =>
    change t.routes ++ [entry] = t.routes.filter (fun _ => true) ++ [entry]
    rw [List.filter_true]
  | replaceSessionRoutes session entries => rfl
  | removeSession session => exact (List.append_nil _).symm

theorem routes_after (ops : List RouteOp) :
    (after ops).routes = items RouteOp.routes RouteOp.withdraws ops := by
  induction ops using List.reverseRecOn with
  | nil => rfl
  | append_singleton ops op ih =>
    rw [after_snoc, routes_apply, ih, items, items, List.foldl_append]
    rfl

theorem owner_snoc (ops : List RouteOp) (op : RouteOp) (addr : IpAddr) (s : SessionId) :
    Owner (ops ++ [op]) addr s ↔
      Owner ops addr s ∧ op.unassigns (addr, s) = false ∨ (addr, s) ∈ op.assigns := by
  unfold Owner
  simp only [stands_snoc]
  constructor
  · rintro ⟨i, j, ⟨hstands, hkept⟩ | ⟨-, hnew⟩⟩
    · exact Or.inl ⟨⟨i, j, hstands⟩, hkept⟩
    · exact Or.inr (List.mem_of_getElem? hnew)
  · rintro (⟨⟨i, j, hstands⟩, hkept⟩ | hnew)
    · exact ⟨i, j, Or.inl ⟨hstands, hkept⟩⟩
    · obtain ⟨j, hj⟩ := List.getElem?_of_mem hnew
      exact ⟨ops.length, j, Or.inr ⟨rfl, hj⟩⟩

theorem clientAddrs_apply (t : RouteTable) (op : RouteOp) (addr : IpAddr) (s : SessionId) :
    (t.apply op).clientAddrs addr = some s ↔
      t.clientAddrs addr = some s ∧ op.unassigns (addr, s) = false ∨ (addr, s) ∈ op.assigns := by
  cases op with
  | insertClientAddr a session =>
    change t.clientAddrs.insert a session addr = some s ↔ _
    rw [Table.insert_apply]
    by_cases h : addr = a
    · simp [h, RouteOp.unassigns, RouteOp.assigns, eq_comm]
    · simp [h, RouteOp.unassigns, RouteOp.assigns]
  | insertRoute entry => simp [apply, insertRoute, RouteOp.unassigns, RouteOp.assigns]
  | replaceSessionRoutes session entries =>
    simp [apply, replaceSessionRoutes, RouteOp.unassigns, RouteOp.assigns]
  | removeSession session =>
    change (t.clientAddrs addr).filter (fun o => o != session) = some s ↔ _
    simp [Option.filter_eq_some_iff, RouteOp.unassigns, RouteOp.assigns]

theorem clientAddrs_after (ops : List RouteOp) (addr : IpAddr) (s : SessionId) :
    (after ops).clientAddrs addr = some s ↔ Owner ops addr s := by
  induction ops using List.reverseRecOn generalizing s with
  | nil =>
    apply iff_of_false (by simp [after, new])
    rintro ⟨i, j, hstands⟩
    exact Nat.not_lt_zero _ hstands.lt
  | append_singleton ops op ih => rw [after_snoc, clientAddrs_apply, owner_snoc, ih]

section Answers

variable {t : RouteTable} {ops : List RouteOp} {dst : IpAddr} {proto : UInt8} {s : SessionId}

theorem lookup_of_client (h : t.clientAddrs dst = some s) : t.lookup dst proto = some s := by
  rw [lookup, h]

theorem lookup_of_no_client (h : t.clientAddrs dst = none) : t.lookup dst proto =
    (maxByKey (fun r => r.net.prefixLen) (t.routes.filter fun r => r.serves dst proto)).map
      RouteEntry.sessionId := by
  have hserves : (t.routes.filter fun r => r.net.contains dst).filter (fun r =>
      r.ipProtocol == 0 || r.ipProtocol == proto || proto == dst.icmpProto) =
      t.routes.filter fun r => r.serves dst proto := by
    rw [List.filter_filter]
    apply List.filter_congr
    intro r _
    exact Bool.and_comm _ _
  rw [lookup, h, ← hserves]

/-- A lookup answers with the owner of the address or with a route that covers it. -/
theorem lookup_cases (h : t.lookup dst proto = some s) :
    t.clientAddrs dst = some s ∨ ∃ r ∈ t.routes, r.net.contains dst = true ∧ r.sessionId = s := by
  cases hclient : t.clientAddrs dst with
  | some o =>
    rw [lookup_of_client hclient] at h
    exact Or.inl h
  | none =>
    rw [lookup_of_no_client hclient] at h
    obtain ⟨r, hr, rfl⟩ := Option.map_eq_some_iff.mp h
    obtain ⟨hroute, hserves⟩ := List.mem_filter.mp (mem_of_maxByKey hr)
    exact Or.inr ⟨r, hroute, (Bool.and_eq_true_iff.mp hserves).1, rfl⟩

theorem longestMatch_lookup (ops : List RouteOp) (dst : IpAddr) (proto : UInt8) :
    LongestMatch ops dst proto ((after ops).lookup dst proto) := by
  cases hclient : (after ops).clientAddrs dst with
  | some o =>
    rw [lookup_of_client hclient]
    exact Or.inl ((clientAddrs_after ops dst o).mp hclient)
  | none =>
    have hnobody : ∀ o, ¬ Owner ops dst o := by
      intro o howner
      rw [(clientAddrs_after ops dst o).mpr howner] at hclient
      cases hclient
    rw [lookup_of_no_client hclient, routes_after]
    cases hmax : maxByKey (fun r => r.net.prefixLen)
        ((items RouteOp.routes RouteOp.withdraws ops).filter fun r => r.serves dst proto) with
    | some r =>
      have hserves := (List.mem_filter.mp (mem_of_maxByKey hmax)).2
      obtain ⟨pre, post, hsplit, hpre, hpost⟩ := maxByKey_eq_some_iff.mp hmax
      obtain ⟨i, j, hstands, hlatest⟩ := exists_latest hsplit hpre hpost
      exact Or.inr ⟨hnobody, i, j, r, hstands, hserves, rfl, hlatest⟩
    | none =>
      refine ⟨hnobody, ?_⟩
      intro i j r hinstalled
      have hmem := mem_items_iff.mpr ⟨i, j, hinstalled⟩
      have hnil := List.filter_eq_nil_iff.mp (maxByKey_eq_none hmax)
      exact Bool.eq_false_iff.mpr (hnil r hmem)

/-- Of two points of a history neither of which is before the other, each is the other. -/
theorem eq_of_not_before {a b : Nat × Nat} (hab : Before a b ∨ a = b) (hba : Before b a ∨ b = a) :
    a = b := by
  obtain ⟨i, j⟩ := a
  obtain ⟨k, l⟩ := b
  simp only [Before, Prod.mk.injEq] at hab hba ⊢
  omega

theorem longestMatch_unique {a b : Option SessionId} (ha : LongestMatch ops dst proto a)
    (hb : LongestMatch ops dst proto b) : a = b := by
  have howner : ∀ o o', Owner ops dst o → Owner ops dst o' → o = o' := by
    intro o o' ho ho'
    have hsame := ((clientAddrs_after ops dst o).mpr ho).symm.trans
      ((clientAddrs_after ops dst o').mpr ho')
    exact Option.some.inj hsame
  cases a with
  | none =>
    cases b with
    | none => rfl
    | some s =>
      rcases hb with hs | ⟨-, i, j, r, hr, hserves, -⟩
      · exact absurd hs (ha.1 s)
      · rw [ha.2 i j r hr] at hserves
        cases hserves
  | some s =>
    cases b with
    | none =>
      rcases ha with hs | ⟨-, i, j, r, hr, hserves, -⟩
      · exact absurd hs (hb.1 s)
      · rw [hb.2 i j r hr] at hserves
        cases hserves
    | some s' =>
      rcases ha with hs | ⟨hnobody, i, j, r, hr, hserves, rfl, hmax⟩
      · rcases hb with hs' | ⟨hnobody, -⟩
        · rw [howner s s' hs hs']
        · exact absurd hs (hnobody s)
      · rcases hb with hs' | ⟨-, i', j', r', hr', hserves', rfl, hmax'⟩
        · exact absurd hs' (hnobody s')
        · have hle := hmax i' j' r' hr' hserves'
          have hge := hmax' i j r hr hserves
          -- neither prefix is longer, so neither route is later
          have hpoint : (i', j') = (i, j) := eq_of_not_before
            (hle.resolve_left (by omega)).2 (hge.resolve_left (by omega)).2
          cases hpoint
          rw [hr.unique hr']

/-- The answers of two tables that differ only in what the session has there. -/
theorem lookup_congr {t' : RouteTable} (hclients : t'.clientAddrs dst = t.clientAddrs dst)
    (hroutes : t'.routes.filter (fun r => r.sessionId != s) =
      t.routes.filter fun r => r.sessionId != s)
    (h : t.lookup dst proto ≠ some s) (h' : t'.lookup dst proto ≠ some s) :
    t'.lookup dst proto = t.lookup dst proto := by
  cases hclient : t.clientAddrs dst with
  | some o => rw [lookup_of_client hclient, lookup_of_client (hclients.trans hclient)]
  | none =>
    rw [lookup_of_no_client hclient] at h ⊢
    rw [lookup_of_no_client (hclients.trans hclient)] at h' ⊢
    apply congrArg (Option.map RouteEntry.sessionId)
    have hother : ∀ found : Option RouteEntry, found.map RouteEntry.sessionId ≠ some s →
        ∀ r, found = some r → (r.sessionId != s) = true := by
      rintro _ hne r rfl
      rw [bne_iff_ne]
      exact fun heq => hne (congrArg some heq)
    apply maxByKey_congr (q := fun r => r.sessionId != s)
    · rw [List.filter_comm, hroutes, List.filter_comm]
    · exact hother _ h'
    · exact hother _ h

theorem lookup_removeSession (h : t.lookup dst proto ≠ some s)
    (h' : (t.removeSession s).lookup dst proto ≠ some s) :
    (t.removeSession s).lookup dst proto = t.lookup dst proto := by
  apply lookup_congr _ _ h h'
  · change (t.clientAddrs dst).filter (fun o => o != s) = t.clientAddrs dst
    cases hclient : t.clientAddrs dst with
    | none => rfl
    | some o =>
      have hne : o ≠ s := by
        rintro rfl
        exact h (lookup_of_client hclient)
      exact Option.filter_some_pos (bne_iff_ne.mpr hne)
  · change (t.routes.filter _).filter _ = _
    rw [List.filter_filter]
    simp only [Bool.and_self]

theorem lookup_replaceSessionRoutes {entries : List RouteEntry}
    (hentries : ∀ r ∈ entries, r.sessionId = s) (h : t.lookup dst proto ≠ some s)
    (h' : (t.replaceSessionRoutes s entries).lookup dst proto ≠ some s) :
    (t.replaceSessionRoutes s entries).lookup dst proto = t.lookup dst proto := by
  have hclients : (t.replaceSessionRoutes s entries).clientAddrs dst = t.clientAddrs dst := rfl
  apply lookup_congr hclients _ h h'
  have hnone : entries.filter (fun r => r.sessionId != s) = [] := by
    apply List.filter_eq_nil_iff.mpr
    intro r hr
    rw [hentries r hr]
    simp
  change (t.routes.filter _ ++ entries).filter _ = _
  rw [List.filter_append, hnone, List.append_nil, List.filter_filter]
  simp only [Bool.and_self]

end Answers

/-- The session has neither an address nor a route. -/
def Absent (t : RouteTable) (s : SessionId) : Prop :=
  (∀ addr, t.clientAddrs addr ≠ some s) ∧ ∀ r ∈ t.routes, r.sessionId ≠ s

namespace Absent

variable {t : RouteTable} {s : SessionId}

theorem lookup_ne (h : t.Absent s) (dst : IpAddr) (proto : UInt8) :
    t.lookup dst proto ≠ some s := by
  intro hlookup
  rcases lookup_cases hlookup with hclient | ⟨r, hr, -, hsession⟩
  · exact h.1 dst hclient
  · exact h.2 r hr hsession

theorem removeSession (t : RouteTable) (s : SessionId) : (t.removeSession s).Absent s := by
  constructor
  · intro addr hclient
    have hkept := (Option.filter_eq_some_iff.mp hclient).2
    simp at hkept
  · intro r hr
    have hkept := (List.mem_filter.mp hr).2
    exact bne_iff_ne.mp hkept

theorem apply {op : RouteOp} (h : t.Absent s) (hop : ¬ op.Installs s) : (t.apply op).Absent s := by
  constructor
  · intro addr hclient
    rcases (clientAddrs_apply t op addr s).mp hclient with ⟨hold, -⟩ | hnew
    · exact h.1 addr hold
    · exact hop (Or.inl ⟨_, hnew, rfl⟩)
  · intro r hr hsession
    rw [routes_apply] at hr
    rcases List.mem_append.mp hr with hold | hnew
    · exact h.2 r (List.mem_of_mem_filter hold) hsession
    · exact hop (Or.inr ⟨r, hnew, hsession⟩)

theorem foldl {later : List RouteOp} (h : t.Absent s) (hlater : ∀ op ∈ later, ¬ op.Installs s) :
    (later.foldl RouteTable.apply t).Absent s := by
  induction later generalizing t with
  | nil => exact h
  | cons op later ih =>
    rw [List.foldl_cons]
    apply ih (h.apply (hlater op List.mem_cons_self))
    exact fun op' hop' => hlater op' (List.mem_cons_of_mem op hop')

end Absent

/-- The vector and the map answer as longest-prefix matching over the history does. A session
that was removed is not answered before it is installed again, and neither removing a session
nor replacing its routes touches the answers of the others. -/
theorem lookup_longest_match (ops : List RouteOp) (dst : IpAddr) (proto : UInt8) :
    (∀ a, (after ops).lookup dst proto = a ↔ LongestMatch ops dst proto a) ∧
    (∀ s later, (∀ op ∈ later, ¬ op.Installs s) →
      (after (ops ++ .removeSession s :: later)).lookup dst proto ≠ some s) ∧
    (∀ s, (after ops).lookup dst proto ≠ some s →
      (after (ops ++ [.removeSession s])).lookup dst proto = (after ops).lookup dst proto) ∧
    (∀ s entries, (∀ r ∈ entries, r.sessionId = s) → (after ops).lookup dst proto ≠ some s →
      (after (ops ++ [.replaceSessionRoutes s entries])).lookup dst proto ≠ some s →
      (after (ops ++ [.replaceSessionRoutes s entries])).lookup dst proto =
        (after ops).lookup dst proto) := by
  refine ⟨?_, ?_, ?_, ?_⟩
  · intro a
    constructor
    · rintro rfl
      exact longestMatch_lookup ops dst proto
    · exact longestMatch_unique (longestMatch_lookup ops dst proto)
  · intro s later hlater
    have hsplit : after (ops ++ .removeSession s :: later) =
        later.foldl apply ((after ops).removeSession s) := by
      rw [after, List.foldl_append]
      rfl
    rw [hsplit]
    exact ((Absent.removeSession _ s).foldl hlater).lookup_ne dst proto
  · intro s hne
    rw [after_snoc]
    exact lookup_removeSession hne ((Absent.removeSession _ s).lookup_ne dst proto)
  · intro s entries hentries hne hne'
    rw [after_snoc] at hne' ⊢
    exact lookup_replaceSessionRoutes hentries hne hne'

-- replacing a session's routes makes them the latest
example : (after [.insertRoute ⟨.v4 ⟨0xc0a80000, 16, by decide, by decide⟩, 0, ⟨0⟩⟩,
      .insertRoute ⟨.v4 ⟨0xc0a80000, 16, by decide, by decide⟩, 0, ⟨4⟩⟩,
      .replaceSessionRoutes ⟨0⟩ [⟨.v4 ⟨0xc0a80000, 16, by decide, by decide⟩, 0, ⟨0⟩⟩]]).lookup
    (.v4 0xc0a80107) 6 = some ⟨0⟩ := by decide +kernel

end RouteTable

end Straw
