import Mathlib.Tactic.Ring
import Straw.P2p.Stun.Mapping

/-!
# The addresses a peer offers

Before it punches, a peer tells the other one where it may be reached: at an address the
router forwards, at its public address with the port of the direct socket, on its own
network if the operator says so, and at the ports that a NAT with a steady stride will use
next. What the router, the kernel and the relay answer is given from outside.
-/

namespace Straw

open Outcome
set_option autoImplicit false

inductive PunchStrategy where
  | basic
  | predict
  | birthday
  | relayAssisted
deriving DecidableEq

inductive DirectMode where
  | reflexive
  | full
  | off
deriving DecidableEq

namespace DirectMode

def offersHost : DirectMode → Bool
  | full => true
  | _ => false

def punches : DirectMode → Bool
  | off => false
  | _ => true

end DirectMode

def Stun.NatMapping.isPunchable : Stun.NatMapping → Bool
  | .open_ | .endpointIndependent => true
  | _ => false

structure PunchConfig where
  strategy : PunchStrategy
  /-- Whether there is a way to open further bind sessions at the relay. -/
  relayAccess : Bool
  portMap : Bool
  direct : DirectMode
  natMapping : Option Stun.NatMapping

def punchIsFutile (cfg : PunchConfig) : Bool :=
  match cfg.natMapping with
  | none => false
  | some mapping =>
    !mapping.isPunchable && !cfg.portMap && cfg.strategy != .predict && !cfg.direct.offersHost

def IpAddr.isUnspecified : IpAddr → Bool
  | .v4 a => a.isUnspecified
  | .v6 a => a.isUnspecified

def IpAddr.isLoopback : IpAddr → Bool
  | .v4 a => a.isLoopback
  | .v6 a => a.isLoopback

structure Sources where
  reflexiveIp : Option IpAddr
  mapped : Option SocketAddr
  hostIp : Option IpAddr

namespace Sources

/-- Each address is offered once, and an unspecified one not at all. -/
def push (out : List SocketAddr) (addr : SocketAddr) : List SocketAddr :=
  if addr.ip.isUnspecified = false ∧ addr ∉ out then out ++ [addr] else out

def addrs (port : UInt16) (s : Sources) : List SocketAddr :=
  s.mapped.toList ++ (s.reflexiveIp.map fun ip => SocketAddr.new ip port).toList ++
    (s.hostIp.map fun ip => SocketAddr.new ip port).toList

def candidates (directLocal : SocketAddr) (s : Sources) : List SocketAddr :=
  (s.addrs directLocal.port).foldl push []

theorem mem_foldl_push {addrs out : List SocketAddr} {a : SocketAddr}
    (h : a ∈ addrs.foldl push out) : a ∈ out ∨ a ∈ addrs := by
  induction addrs generalizing out with
  | nil => exact Or.inl h
  | cons b rest ih =>
    rcases ih h with hpushed | hrest
    · unfold push at hpushed
      split at hpushed
      · rcases List.mem_append.mp hpushed with hout | hlast
        · exact Or.inl hout
        · exact Or.inr (List.mem_cons.mpr (Or.inl (List.mem_singleton.mp hlast)))
      · exact Or.inl hpushed
    · exact Or.inr (List.mem_cons_of_mem b hrest)

theorem length_foldl_push (addrs out : List SocketAddr) :
    (addrs.foldl push out).length ≤ out.length + addrs.length := by
  induction addrs generalizing out with
  | nil => exact Nat.le_refl _
  | cons b rest ih =>
    have hpush : (push out b).length ≤ out.length + 1 := by
      unfold push
      split
      · exact Nat.le_of_eq List.length_append
      · exact Nat.le_succ _
    calc ((b :: rest).foldl push out).length
        ≤ (push out b).length + rest.length := ih _
      _ ≤ out.length + (b :: rest).length := by
        rw [List.length_cons]
        omega

theorem candidates_length (directLocal : SocketAddr) (s : Sources) :
    (s.candidates directLocal).length ≤ 3 := by
  have haddrs : (s.addrs directLocal.port).length ≤ 3 := by
    unfold addrs
    simp only [List.length_append, Option.length_toList, Option.isSome_map]
    cases s.mapped <;> cases s.reflexiveIp <;> cases s.hostIp <;> simp
  exact Nat.le_trans (length_foldl_push _ []) (by simpa using haddrs)

end Sources

namespace Predict

inductive Mapping where
  | sequential (stride : Int)
  | random
deriving DecidableEq

def sampleCount : Nat := 3
def maxStride : Nat := 8
def predictSpan : UInt16 := 6

/-- The differences of neighbours. -/
def strides (ports : List UInt16) : List Int :=
  List.zipWith (fun a b : UInt16 => (b.toNat : Int) - a.toNat) ports ports.tail

def classify (ports : List UInt16) : Mapping :=
  match strides ports with
  | [] => .random
  | first :: rest =>
    if (first :: rest).all (· = first) ∧ first.natAbs ≤ maxStride then .sequential first else .random

def predictRange (ip : IpAddr) (lastPort : UInt16) (stride : Int) (span : UInt16) :
    List SocketAddr :=
  let base := (lastPort.toNat : Int) + stride
  let lo := max (base - span.toNat) 1
  let hi := min (base + span.toNat) 65535
  (List.range (hi + 1 - lo).toNat).map fun i : Nat =>
    SocketAddr.new ip (UInt16.ofNat (lo + i).toNat)

/-- Open `n` bind sessions one after the other; each tells the address the relay saw, or
nothing, or fails. -/
def sample (observe : Nat → Except ProxyError (Option SocketAddr)) :
    Nat → Except ProxyError (List SocketAddr)
  | 0 => .ok []
  | n + 1 => do
    let seen ← sample observe n
    let observed ← observe n
    return seen ++ observed.toList

def predictedCandidates (observe : Nat → Except ProxyError (Option SocketAddr)) :
    List SocketAddr :=
  match sample observe sampleCount with
  | .error _ => []
  | .ok samples =>
    match samples.getLast?, classify (samples.map (·.port)) with
    | some last, .sequential stride => predictRange last.ip last.port stride predictSpan
    | _, _ => []

theorem mem_predictRange {ip : IpAddr} {lastPort p : UInt16} {stride : Int} {span : UInt16}
    (hp : p ≠ 0) : SocketAddr.new ip p ∈ predictRange ip lastPort stride span ↔
      ((p.toNat : Int) - (lastPort.toNat + stride)).natAbs ≤ span.toNat := by
  have hnew : Function.Injective (SocketAddr.new ip) := by
    intro p q h
    rw [← SocketAddr.port_new ip p, h, SocketAddr.port_new]
  have hpos : 0 < p.toNat := Nat.pos_of_ne_zero fun h => hp (UInt16.toNat_inj.mp h)
  have hlt := p.toNat_lt
  simp only [predictRange, List.mem_map, List.mem_range]
  constructor
  · rintro ⟨i, hi, heq⟩
    have hport := congrArg UInt16.toNat (hnew heq)
    rw [UInt16.toNat_ofNat'] at hport
    omega
  · intro h
    refine ⟨((p.toNat : Int) - max ((lastPort.toNat : Int) + stride - span.toNat) 1).toNat, ?_, ?_⟩
    · omega
    · congr 1
      rw [← UInt16.toNat_inj, UInt16.toNat_ofNat']
      omega

theorem predictRange_length (ip : IpAddr) (lastPort : UInt16) (stride : Int) (span : UInt16) :
    (predictRange ip lastPort stride span).length ≤ 2 * span.toNat + 1 := by
  simp only [predictRange, List.length_map, List.length_range]
  omega

theorem predictedCandidates_length (observe : Nat → Except ProxyError (Option SocketAddr)) :
    (predictedCandidates observe).length ≤ 13 := by
  unfold predictedCandidates
  split
  · exact Nat.zero_le _
  · split
    · exact predictRange_length _ _ _ _
    · exact Nat.zero_le _

end Predict

/-! What `manage` offers -/

open Predict

/-- The answers from outside: the address that the router forwards to a port, the source
address the kernel picks toward a destination, and what the relay sees of a new socket. -/
structure PunchEnv where
  mapUdp : UInt16 → Option SocketAddr
  routeSource : SocketAddr → Option IpAddr
  observe : Nat → Except ProxyError (Option SocketAddr)

structure PunchInputs where
  directLocal : SocketAddr
  reflexive : Option SocketAddr
  relayAddr : SocketAddr

def maxNatAddresses : Nat := 32

namespace PunchEnv

variable (env : PunchEnv) (cfg : PunchConfig) (inputs : PunchInputs)

def hostIp (toward : SocketAddr) : Option IpAddr :=
  (env.routeSource toward).filter fun ip => !ip.isUnspecified && !ip.isLoopback

def sources : Sources where
  reflexiveIp := inputs.reflexive.map (·.ip)
  mapped := if cfg.portMap then env.mapUdp inputs.directLocal.port else none
  hostIp := if cfg.direct.offersHost then env.hostIp inputs.relayAddr else none

def predicted : List SocketAddr :=
  if cfg.strategy = .predict ∧ cfg.relayAccess = true then predictedCandidates env.observe else []

def localCandidates : List SocketAddr :=
  ((env.sources cfg inputs).candidates inputs.directLocal ++ env.predicted cfg).take maxNatAddresses

/-- What comes before the loop: the addresses to advertise, if there is to be a punch. -/
def offer (multipath : Bool) : Option (List SocketAddr) :=
  if multipath = false then none
  else if cfg.direct.punches = false then none
  else if punchIsFutile cfg then none
  else if (env.localCandidates cfg inputs).isEmpty then none
  else some (env.localCandidates cfg inputs)

/-- The limit on the number of addresses is never reached. -/
theorem localCandidates_eq :
    env.localCandidates cfg inputs =
      (env.sources cfg inputs).candidates inputs.directLocal ++ env.predicted cfg := by
  refine List.take_of_length_le ?_
  have hsources := (env.sources cfg inputs).candidates_length inputs.directLocal
  have hpredicted : (env.predicted cfg).length ≤ 13 := by
    unfold predicted
    split
    · exact predictedCandidates_length _
    · exact Nat.zero_le _
  rw [List.length_append, maxNatAddresses]
  omega

variable {env cfg inputs} in
theorem offer_eq_some {multipath : Bool} {addrs : List SocketAddr}
    (h : env.offer cfg inputs multipath = some addrs) : addrs = env.localCandidates cfg inputs := by
  unfold offer at h
  split at h
  · cases h
  · split at h
    · cases h
    · split at h
      · cases h
      · split at h
        · cases h
        · exact (Option.some.inj h).symm

/-- Why a peer gives away an address. -/
inductive Discloses : SocketAddr → Prop where
  | mapped {a : SocketAddr} : cfg.portMap = true → env.mapUdp inputs.directLocal.port = some a →
      Discloses a
  | reflexive {r : SocketAddr} : inputs.reflexive = some r →
      Discloses (.new r.ip inputs.directLocal.port)
  | host {ip : IpAddr} : cfg.direct = .full → env.routeSource inputs.relayAddr = some ip →
      Discloses (.new ip inputs.directLocal.port)
  | predicted {a : SocketAddr} : cfg.strategy = .predict → a ∈ predictedCandidates env.observe →
      Discloses a

variable {env cfg inputs}

theorem discloses_of_mem {a : SocketAddr} (h : a ∈ env.localCandidates cfg inputs) :
    Discloses env cfg inputs a := by
  rw [localCandidates_eq] at h
  rcases List.mem_append.mp h with hsource | hpredicted
  · have haddr := (Sources.mem_foldl_push hsource).resolve_left List.not_mem_nil
    simp only [Sources.addrs, sources, List.append_assoc, List.mem_append, Option.mem_toList,
      Option.map_eq_some_iff] at haddr
    rcases haddr with hmapped | ⟨ip, ⟨r, hr, rfl⟩, rfl⟩ | ⟨ip, hip, rfl⟩
    · split at hmapped
      · exact .mapped ‹_› hmapped
      · cases hmapped
    · exact .reflexive hr
    · split at hip
      · rename_i hfull
        refine .host ?_ (Option.filter_eq_some_iff.mp hip).1
        cases hdirect : cfg.direct with
        | full => rfl
        | reflexive | off => rw [hdirect] at hfull; cases hfull
      · cases hip
  · unfold PunchEnv.predicted at hpredicted
    split at hpredicted
    · rename_i hcfg
      exact .predicted hcfg.1 hpredicted
    · exact absurd hpredicted List.not_mem_nil

end PunchEnv

/-! A NAT with a steady stride -/

/-- A NAT that gives every new mapping the port `stride` further on. -/
structure SequentialNat where
  ip : IpAddr
  first : Int
  stride : Int

namespace SequentialNat

variable (nat : SequentialNat)

def port (k : Nat) : Int := nat.first + k * nat.stride

def addr (k : Nat) : SocketAddr := .new nat.ip (UInt16.ofNat (nat.port k).toNat)

/-- What the relay sees when the samples are `gap` mappings apart. -/
def observe (gap i : Nat) : Except ProxyError (Option SocketAddr) := .ok (some (nat.addr (gap * i)))

variable {nat}

theorem addr_port {k : Nat} (h : 1 ≤ nat.port k ∧ nat.port k ≤ 65535) :
    ((nat.addr k).port.toNat : Int) = nat.port k := by
  rw [addr, SocketAddr.port_new, UInt16.toNat_ofNat']
  omega

theorem port_samples (gap : Nat) :
    nat.port (gap * 1) = nat.port (gap * 0) + gap * nat.stride ∧
      nat.port (gap * 2) = nat.port (gap * 1) + gap * nat.stride := by
  simp only [port]
  push_cast
  constructor <;> ring

theorem strides_samples {gap : Nat}
    (h : ∀ k ≤ gap * 2, 1 ≤ nat.port k ∧ nat.port k ≤ 65535) :
    strides [(nat.addr (gap * 0)).port, (nat.addr (gap * 1)).port, (nat.addr (gap * 2)).port] =
      [gap * nat.stride, gap * nat.stride] := by
  obtain ⟨hfirst, hsecond⟩ := @port_samples nat gap
  simp only [strides, List.tail_cons, List.zipWith_cons_cons, List.zipWith_nil_right,
    addr_port (h (gap * 0) (by omega)), addr_port (h (gap * 1) (by omega)),
    addr_port (h (gap * 2) (Nat.le_refl _))]
  rw [hsecond, hfirst]
  simp only [List.cons.injEq, and_true]
  omega

theorem predictedCandidates_samples {gap : Nat}
    (h : ∀ k ≤ gap * 2, 1 ≤ nat.port k ∧ nat.port k ≤ 65535) :
    predictedCandidates (nat.observe gap) =
      if (gap * nat.stride).natAbs ≤ maxStride then
        predictRange nat.ip (nat.addr (gap * 2)).port (gap * nat.stride) predictSpan
      else [] := by
  have hsample : sample (nat.observe gap) sampleCount =
      .ok [nat.addr (gap * 0), nat.addr (gap * 1), nat.addr (gap * 2)] := rfl
  have hip : (nat.addr (gap * 2)).ip = nat.ip := SocketAddr.ip_new _ _
  simp only [predictedCandidates, hsample, List.map_cons, List.map_nil, classify,
    strides_samples h, List.getLast?_cons_cons, List.getLast?_singleton, List.all_cons,
    List.all_nil, decide_true, Bool.and_self, true_and]
  by_cases hstride : (gap * nat.stride).natAbs ≤ maxStride
  · simp only [if_pos hstride, hip]
  · simp only [if_neg hstride]

end SequentialNat

end Straw
