import Straw.Capsule.Basic
import Straw.Lib.Table

/-!
# The route table

Assigned client addresses are looked up first; prefix routes go by the longest match.
-/

namespace Straw

set_option autoImplicit false

structure RouteEntry where
  net : IpNet
  /-- Zero stands for all protocols. -/
  ipProtocol : UInt8
  sessionId : SessionId
deriving DecidableEq

structure RouteTable where
  routes : List RouteEntry
  clientAddrs : Table IpAddr SessionId

namespace RouteTable

def new : RouteTable := ⟨[], Table.empty⟩

def insertClientAddr (t : RouteTable) (addr : IpAddr) (session : SessionId) : RouteTable :=
  { t with clientAddrs := t.clientAddrs.insert addr session }

def insertRoute (t : RouteTable) (entry : RouteEntry) : RouteTable :=
  { t with routes := t.routes ++ [entry] }

def replaceSessionRoutes (t : RouteTable) (session : SessionId) (entries : List RouteEntry) :
    RouteTable :=
  { t with routes := t.routes.filter (fun r => r.sessionId != session) ++ entries }

def removeSession (t : RouteTable) (session : SessionId) : RouteTable where
  clientAddrs := t.clientAddrs.retain fun _ s => s != session
  routes := t.routes.filter fun r => r.sessionId != session

/-- `Iterator::max_by_key`: of several largest elements the last one. -/
def maxByKey {α : Type} (key : α → Nat) : List α → Option α
  | [] => none
  | x :: xs => some (xs.foldl (fun best y => if key best ≤ key y then y else best) x)

def lookup (t : RouteTable) (dst : IpAddr) (proto : UInt8) : Option SessionId :=
  match t.clientAddrs dst with
  | some session => some session
  | none =>
    let found := (t.routes.filter fun r => r.net.contains dst).filter fun r =>
      r.ipProtocol == 0 || r.ipProtocol == proto || proto == dst.icmpProto
    (maxByKey (fun r => r.net.prefixLen) found).map RouteEntry.sessionId

end RouteTable

section ClientRoutes

def maxClientRoutePrefixes : Nat := 128

def IpNet.network : IpNet → IpAddr
  | .v4 net => .v4 net.network
  | .v6 net => .v6 net.network

def overlaps (a b : IpNet) : Bool := a.contains b.network || b.contains a.network

-- `subnets` is the cover of an address range by prefixes that the `ipnet` crate computes
variable (subnets : IpAddr → IpAddr → List IpNet)

def rangePrefixes (range : IpAddressRange) : Option (List IpNet) :=
  match range.startIp, range.endIp with
  | .v4 a, .v4 b => if a ≤ b then some (subnets (.v4 a) (.v4 b)) else none
  | .v6 a, .v6 b => if a ≤ b then some (subnets (.v6 a) (.v6 b)) else none
  | _, _ => none

/-- Routes for the prefixes of the ranges, skipping malformed ranges and those that touch a
denied prefix, up to the cap. -/
def entriesFrom (session : SessionId) (deny : List IpNet) :
    List RouteEntry → List IpAddressRange → List RouteEntry
  | entries, [] => entries
  | entries, range :: ranges =>
    match rangePrefixes subnets range with
    | none => entriesFrom session deny entries ranges
    | some prefixes =>
      if prefixes.any fun p => deny.any fun d => overlaps d p then
        entriesFrom session deny entries ranges
      else
        let all := entries ++ prefixes.map fun net => ⟨net, range.ipProtocol, session⟩
        if maxClientRoutePrefixes < all.length then all.take maxClientRoutePrefixes
        else entriesFrom session deny all ranges

def entriesFromClientRanges (session : SessionId) (ranges : List IpAddressRange)
    (deny : List IpNet) : List RouteEntry :=
  entriesFrom subnets session deny [] ranges

variable {subnets}

/-- What holds of the routes for every range that touches no denied prefix holds of all. -/
theorem entriesFrom_forall {session : SessionId} {deny : List IpNet} {P : RouteEntry → Prop}
    {entries : List RouteEntry} {ranges : List IpAddressRange} (hentries : ∀ r ∈ entries, P r)
    (hrange : ∀ range ∈ ranges, ∀ prefixes, rangePrefixes subnets range = some prefixes →
      ∀ net ∈ prefixes, (∀ d ∈ deny, overlaps d net = false) →
        P ⟨net, range.ipProtocol, session⟩) :
    ∀ r ∈ entriesFrom subnets session deny entries ranges, P r := by
  induction ranges generalizing entries with
  | nil => exact hentries
  | cons range ranges ih =>
    have htail := fun range' hmem => hrange range' (List.mem_cons_of_mem range hmem)
    simp only [entriesFrom]
    split
    · exact ih hentries htail
    · rename_i prefixes hprefixes
      split
      · exact ih hentries htail
      · rename_i hclear
        have hall : ∀ r ∈ entries ++ prefixes.map (fun net => ⟨net, range.ipProtocol, session⟩),
            P r := by
          intro r hr
          rcases List.mem_append.mp hr with hold | hnew
          · exact hentries r hold
          · obtain ⟨net, hnet, rfl⟩ := List.mem_map.mp hnew
            refine hrange range List.mem_cons_self prefixes hprefixes net hnet ?_
            intro d hd
            by_contra hoverlap
            refine hclear (List.any_eq_true.mpr ⟨net, hnet, List.any_eq_true.mpr ⟨d, hd, ?_⟩⟩)
            simpa using hoverlap
        split
        · exact fun r hr => hall r (List.mem_of_mem_take hr)
        · exact ih hall htail

theorem entriesFromClientRanges_session {session : SessionId} {ranges : List IpAddressRange}
    {deny : List IpNet} {r : RouteEntry}
    (h : r ∈ entriesFromClientRanges subnets session ranges deny) : r.sessionId = session :=
  entriesFrom_forall (P := fun r => r.sessionId = session) (by simp)
    (fun _ _ _ _ _ _ _ => rfl) r h

theorem entriesFromClientRanges_clear {session : SessionId} {ranges : List IpAddressRange}
    {deny : List IpNet} {r : RouteEntry}
    (h : r ∈ entriesFromClientRanges subnets session ranges deny) :
    ∀ d ∈ deny, overlaps d r.net = false :=
  entriesFrom_forall (P := fun r => ∀ d ∈ deny, overlaps d r.net = false) (by simp)
    (fun _ _ _ _ _ _ hclear => hclear) r h

end ClientRoutes

end Straw
