import Straw.Lib.UndoGuard
import Straw.Iface.Ranges
import Straw.Iface.Commands

/-!
# Configuring the tunnel interface

`plan` decides what the interface should look like, `commands` says it in the words of the
platform, each command with its undo, and `realize` carries the commands out. The guard it
returns takes them back when it is dropped; if a command fails, the guard is dropped with
what it holds by then.
-/

namespace Straw.Iface

open Outcome Proc UndoGuard
set_option autoImplicit false

structure InterfaceSetup where
  dev : String
  assigned : List AssignedAddress
  routes : List IpAddressRange
  pin : Option IpAddr
  installRoutes : Bool

structure DesiredInterface where
  dev : String
  addresses : List (IpAddr × Nat)
  routes : List IpNet
  keepOffTunnel : Option IpAddr

def plan (subnets : SubnetIters) (setup : InterfaceSetup) : DesiredInterface where
  dev := setup.dev
  addresses := setup.assigned.map fun a => (a.ipAddress, a.prefixLength)
  routes := if setup.installRoutes then prefixesFromRanges subnets setup.routes else []
  keepOffTunnel := if setup.installRoutes then setup.pin else none

def pinStep (p : Platform) (proxy : IpAddr) (gateway : Option IpAddr) (dev : String) : Cmd × Cmd :=
  (p.pinCmd "add" proxy gateway dev, p.pinCmd "del" proxy gateway dev)

def addrStep (p : Platform) (dev : String) (addr : IpAddr) (len : Nat) : Cmd × Cmd :=
  (p.addrCmd "add" dev addr len, p.addrCmd "del" dev addr len)

def routeStep (p : Platform) (dev : String) (net : IpNet) : Cmd × Cmd :=
  (p.routeCmd "add" net dev, p.routeCmd "del" net dev)

def commands (p : Platform) (want : DesiredInterface) (pinPath : Option (IpAddr × Path)) :
    List (Cmd × Cmd) :=
  let pin := match pinPath with
    | some (proxy, gateway, dev) => [pinStep p proxy gateway dev]
    | none => []
  pin ++ (want.addresses.map (fun (addr, len) => addrStep p want.dev addr len) ++
    want.routes.map (routeStep p want.dev))

/-- Nothing is put in place that could not be taken away again. -/
theorem commands_undo {p : Platform} (h : p.Undoes) {want : DesiredInterface}
    {pinPath : Option (IpAddr × Path)} {step : Cmd × Cmd} (hstep : step ∈ commands p want pinPath) :
    Undo step.1 step.2 := by
  unfold commands at hstep
  obtain hpin | hrest := List.mem_append.mp hstep
  · cases pinPath with
    | none => exact absurd hpin List.not_mem_nil
    | some path =>
      rw [List.mem_singleton.mp hpin]
      exact h.pin _ _ _
  · obtain haddr | hroute := List.mem_append.mp hrest
    · obtain ⟨addr, -, rfl⟩ := List.mem_map.mp haddr
      exact h.addr _ _ _
    · obtain ⟨net, -, rfl⟩ := List.mem_map.mp hroute
      exact h.route _ _

section Realize

/-- What comes of a command, given the commands run before it. -/
abbrev System := List Cmd → Cmd → Except String Output

/-- The state is the list of commands that have been run. -/
abbrev IfaceProc := Proc (List Cmd) ProxyError

def outcome (cmd : Cmd) : Except String Output → Except ProxyError Unit
  | .error e => .error (.config ("failed to run " ++ cmd.program ++ ": " ++ e))
  | .ok out =>
    if !out.success then
      .error (.config ("`" ++ cmd.toText ++ "` failed: " ++ trimmed out.stderr))
    else .ok ()

def run (sys : System) (cmd : Cmd) : IfaceProc Unit := fun log =>
  (Outcome.ofExcept (outcome cmd (sys log cmd)), log ++ [cmd])

structure InterfaceGuard where
  undo : List Cmd

def InterfaceGuard.drop (sys : System) (guard : InterfaceGuard) : IfaceProc Unit :=
  UndoGuard.drop (run sys) guard.undo

/-- The path to what has to stay off the tunnel. Asking for it changes nothing and is no
configuration command. -/
def resolvePin (p : Platform) (output : Cmd → Except String Output) (want : DesiredInterface) :
    Except ProxyError (Option (IpAddr × Path)) :=
  match want.keepOffTunnel with
  | some proxy => (p.pathTo output proxy).map fun path => some (proxy, path)
  | none => .ok none

def askPin (p : Platform) (sys : System) (want : DesiredInterface) :
    IfaceProc (Option (IpAddr × Path)) := fun log =>
  (Outcome.ofExcept (resolvePin p (sys log) want), log)

def realize (p : Platform) (sys : System) (want : DesiredInterface) : IfaceProc InterfaceGuard := do
  let pinPath ← askPin p sys want
  let undo ← applyAll (run sys) (commands p want pinPath) []
  return ⟨undo⟩

def configure (p : Platform) (sys : System) (subnets : SubnetIters) (setup : InterfaceSetup) :
    IfaceProc InterfaceGuard :=
  realize p sys (plan subnets setup)

end Realize

/-! What is executed -/

section Executed
variable (p : Platform) (sys : System) (subnets : SubnetIters) (setup : InterfaceSetup)

/-- The commands run from the call of `configure` until the guard is gone. -/
def executed : List Cmd :=
  ((configure p sys subnets setup >>= InterfaceGuard.drop sys).exec []).2

def Works (log : List Cmd) (cmd : Cmd) : Prop :=
  ∃ out, sys log cmd = .ok out ∧ out.success = true

/-- Some of the commands, as far as they work; the one that does not, if any; and the undos
of those that did, in reverse. -/
def Unwinds (steps : List (Cmd × Cmd)) (log : List Cmd) : Prop :=
  ∃ k, Reaches (Works sys) [] steps k ∧ log = trace steps k

def addrSteps : List (Cmd × Cmd) :=
  setup.assigned.map fun a => addrStep p setup.dev a.ipAddress a.prefixLength

def routeSteps : List (Cmd × Cmd) :=
  if setup.installRoutes then
    (prefixesFromRanges subnets setup.routes).map (routeStep p setup.dev)
  else []

variable {p sys subnets setup}

theorem outcome_eq_ok_iff {cmd : Cmd} {r : Except String Output} :
    outcome cmd r = .ok () ↔ ∃ out, r = .ok out ∧ out.success = true := by
  cases r with
  | error e => simp [outcome]
  | ok out =>
    unfold outcome
    cases hsuccess : out.success with
    | false => simp [hsuccess]
    | true => simp [hsuccess]

theorem run_logs (sys : System) : Logs (run sys) (Works sys) := by
  constructor
  · intro log c hworks
    show (Outcome.ofExcept (outcome c (sys log c)), log ++ [c]) = _
    rw [outcome_eq_ok_iff.mpr hworks]
    rfl
  · intro log c hfails
    cases hout : outcome c (sys log c) with
    | ok u => exact absurd (outcome_eq_ok_iff.mp hout) hfails
    | error e =>
      refine ⟨e, ?_⟩
      show (Outcome.ofExcept (outcome c (sys log c)), log ++ [c]) = _
      rw [hout]
      rfl

theorem commands_plan (p : Platform) (subnets : SubnetIters) (setup : InterfaceSetup)
    (pinPath : Option (IpAddr × Path)) :
    commands p (plan subnets setup) pinPath =
      (match pinPath with
        | some (proxy, gateway, dev) => [pinStep p proxy gateway dev]
        | none => []) ++ (addrSteps p setup ++ routeSteps p subnets setup) := by
  have haddr : (plan subnets setup).addresses.map (fun (addr, len) =>
      addrStep p (plan subnets setup).dev addr len) = addrSteps p setup := by
    simp [plan, addrSteps]
  have hroute : (plan subnets setup).routes.map (routeStep p (plan subnets setup).dev) =
      routeSteps p subnets setup := by
    simp only [plan, routeSteps]
    split
    · rfl
    · rfl
  unfold commands
  rw [haddr, hroute]

theorem exec_askPin_bind {α : Type} (want : DesiredInterface) (log : List Cmd)
    (f : Option (IpAddr × Path) → IfaceProc α) :
    (askPin p sys want >>= f).exec log =
      match resolvePin p (sys log) want with
      | .ok pinPath => (f pinPath).exec log
      | .error e => (.error (.err e), log) := by
  have hask : (askPin p sys want).exec log =
      (Outcome.ofExcept (resolvePin p (sys log) want), log) := rfl
  rw [exec_bind, hask]
  cases resolvePin p (sys log) want with
  | ok pinPath => rfl
  | error e => rfl

theorem executed_of_resolved {pinPath : Option (IpAddr × Path)}
    (h : resolvePin p (sys []) (plan subnets setup) = .ok pinPath) :
    Unwinds sys (commands p (plan subnets setup) pinPath) (executed p sys subnets setup) := by
  obtain ⟨k, hk⟩ := exists_reaches (Works sys) [] (commands p (plan subnets setup) pinPath)
  refine ⟨k, hk, ?_⟩
  have htrace := (run_logs sys).exec_trace hk
  rw [List.nil_append, exec_bind] at htrace
  rw [← htrace, executed, configure, realize, exec_bind, exec_askPin_bind, h]
  dsimp only
  rw [exec_bind]
  cases (applyAll (run sys) (commands p (plan subnets setup) pinPath) []).exec [] with
  | mk o t =>
    cases o with
    | error e => rfl
    | ok undo => rfl

theorem configure_all_or_nothing (p : Platform) (sys : System) (subnets : SubnetIters)
    (setup : InterfaceSetup) :
    (∀ proxy e, (plan subnets setup).keepOffTunnel = some proxy →
      p.pathTo (sys []) proxy = .error e → executed p sys subnets setup = []) ∧
    (∀ proxy gateway dev, (plan subnets setup).keepOffTunnel = some proxy →
      p.pathTo (sys []) proxy = .ok (gateway, dev) →
        Unwinds sys
          (pinStep p proxy gateway dev :: (addrSteps p setup ++ routeSteps p subnets setup))
          (executed p sys subnets setup) ∧
        (executed p sys subnets setup).head? = some (pinStep p proxy gateway dev).1 ∧
        (Works sys [] (pinStep p proxy gateway dev).1 →
          (executed p sys subnets setup).getLast? = some (pinStep p proxy gateway dev).2)) ∧
    ((plan subnets setup).keepOffTunnel = none →
      Unwinds sys (addrSteps p setup ++ routeSteps p subnets setup)
        (executed p sys subnets setup)) := by
  refine ⟨?_, ?_, ?_⟩
  · intro proxy e hkeep hpath
    have hpin : resolvePin p (sys []) (plan subnets setup) = .error e := by
      simp only [resolvePin, hkeep, hpath]
      rfl
    rw [executed, configure, realize, exec_bind, exec_askPin_bind, hpin]
  · intro proxy gateway dev hkeep hpath
    have hpin : resolvePin p (sys []) (plan subnets setup) = .ok (some (proxy, gateway, dev)) := by
      simp only [resolvePin, hkeep, hpath]
      rfl
    have hunwinds := executed_of_resolved hpin
    rw [commands_plan] at hunwinds
    refine ⟨hunwinds, ?_⟩
    obtain ⟨k, hk, hexec⟩ := hunwinds
    rw [hexec]
    refine ⟨head?_trace _ _ k, ?_⟩
    intro hworks
    cases k with
    | zero => exact absurd hworks (hk.stuck _ rfl)
    | succ k => exact getLast?_trace _ _ k
  · intro hkeep
    have hpin : resolvePin p (sys []) (plan subnets setup) = .ok none := by
      simp only [resolvePin, hkeep]
    have hunwinds := executed_of_resolved hpin
    rwa [commands_plan] at hunwinds

/-- The routing table takes the pin and the address, and refuses every other route. -/
def pinOnly : System := fun _ cmd =>
  if cmd.args.take 2 = ["route", "get"] then
    .ok ⟨true, "203.0.113.9 via 192.168.1.1 dev eth0 src 192.168.1.7 uid 0", ""⟩
  else .ok ⟨!cmd.args.contains "10.0.0.0/32", "", "RTNETLINK answers: Operation not permitted"⟩

def hostSetup : InterfaceSetup where
  dev := "strawc0"
  assigned := [⟨0, 4, .v4 0x0a640002#32, 32⟩]
  routes := [⟨4, .v4 0x0a000000#32, .v4 0x0a000000#32, 0⟩]
  pin := some (.v4 0xcb007109#32)
  installRoutes := true

theorem configure_all_or_nothing_refused :
    Unwinds pinOnly
      (pinStep linux (.v4 0xcb007109#32) (some (.v4 0xc0a80101#32)) "eth0" ::
        (addrSteps linux hostSetup ++ routeSteps linux hostIters hostSetup))
      (executed linux pinOnly hostIters hostSetup) ∧
    executed linux pinOnly hostIters hostSetup =
      [⟨"ip", ["route", "add", "203.0.113.9/32", "via", "192.168.1.1", "dev", "eth0"]⟩,
        ⟨"ip", ["addr", "add", "10.100.0.2/32", "dev", "strawc0"]⟩,
        ⟨"ip", ["route", "add", "10.0.0.0/32", "dev", "strawc0"]⟩,
        ⟨"ip", ["addr", "del", "10.100.0.2/32", "dev", "strawc0"]⟩,
        ⟨"ip", ["route", "del", "203.0.113.9/32", "via", "192.168.1.1", "dev", "eth0"]⟩] := by
  have hpath : linux.pathTo (pinOnly []) (.v4 0xcb007109#32) =
      .ok (some (.v4 0xc0a80101#32), "eth0") := by
    decide +kernel
  exact ⟨((configure_all_or_nothing linux pinOnly hostIters hostSetup).2.1 _ _ _ rfl hpath).1,
    by decide +kernel⟩

end Executed

end Straw.Iface
