import Straw.Client.Setup
import Straw.Iface.Configure

/-!
# The client daemon

`strawc` applies the addresses and routes that the proxy announces to the kernel and takes
them back when they change and when it ends. Signals, samples of the path MTU and the
chunks of the request stream come in any order. What the commands do to the kernel is not
the daemon's business; it is enough that an undo that works takes back what its command did.
-/

namespace Straw

open Transition Outcome Proc UndoGuard Iface
set_option autoImplicit false

namespace Iface

def Linux.mtuCmd (dev : String) (mtu : UInt16) : Cmd :=
  ⟨"ip", ["link", "set", "dev", dev, "mtu", toString mtu.toNat]⟩

def Macos.mtuCmd (dev : String) (mtu : UInt16) : Cmd :=
  ⟨"ifconfig", [dev, "mtu", toString mtu.toNat]⟩

end Iface

namespace Client

def mtuStep : Nat := 16

/-- What the daemon runs with: the functions of the platform, the system it runs its
commands on, and what it took from its arguments and the TUN device. -/
structure Settings where
  platform : Platform
  mtuCmd : String → UInt16 → Cmd
  subnets : SubnetIters
  system : System
  dev : String
  /-- `None` for a proxy on the loopback interface. -/
  pin : Option IpAddr
  installRoutes : Bool
  /-- The operator gave no `--mtu`. -/
  trackMtu : Bool

def reconfigures : Capsule → Bool
  | .addressAssign _ | .routeAdvertisement _ => true
  | _ => false

namespace Settings

variable (s : Settings)

def setup (client : Tunnel) : InterfaceSetup where
  dev := s.dev
  assigned := client.assigned
  routes := client.routes
  pin := s.pin
  installRoutes := s.installRoutes

def apply (client : Tunnel) : IfaceProc InterfaceGuard :=
  configure s.platform s.system s.subnets (s.setup client)

end Settings

inductive DaemonPhase where
  | waiting (guard : InterfaceGuard)
  | exited (result : Outcome ProxyError Unit)

structure Daemon where
  client : Tunnel
  /-- The commands run so far. -/
  log : List Cmd
  currentMtu : UInt16
  phase : DaemonPhase

inductive DaemonEvent where
  /-- SIGINT or SIGTERM. -/
  | terminate
  /-- The MTU is polled, with what `max_packet_size` returns. -/
  | poll (sampled : Option Nat)
  | chunk (bytes : Bytes)
  /-- The request stream ends or fails. -/
  | close

/-- What is read of the request stream. -/
def DaemonEvent.bytes : DaemonEvent → Option Bytes
  | .chunk bytes => some bytes
  | _ => none

namespace Daemon

variable (s : Settings)

/-- Apply the state of the tunnel; with an error `run` returns. -/
def install (d : Daemon) : Daemon :=
  let r := (s.apply d.client).exec d.log
  { d with
    log := r.2
    phase := match r.1 with
      | .ok guard => .waiting guard
      | .error e => .exited (.error e) }

def release (d : Daemon) (guard : InterfaceGuard) : Daemon :=
  { d with log := ((guard.drop s.system).exec d.log).2 }

/-- The loop is left and the guard goes out of scope. -/
def leave (d : Daemon) (guard : InterfaceGuard) : Daemon :=
  { d.release s guard with phase := .exited (.ok ()) }

/-- Widen the device if the path has grown enough to be worth it. -/
def pollMtu (d : Daemon) : Option Nat → Daemon
  | none => d
  | some sampled =>
    let sampled := UInt16.ofNat (min sampled 65535)
    if s.trackMtu ∧ min (d.currentMtu.toNat + mtuStep) 65535 ≤ sampled.toNat then
      let r := (run s.system (s.mtuCmd s.dev sampled)).exec d.log
      { d with
        log := r.2
        currentMtu := match r.1 with
          | .ok _ => sampled
          | .error _ => d.currentMtu }
    else d

/-- One chunk of `process_next_capsules`. A call that the chunk does not complete waits on,
or is dropped and made again, and the buffer of the client keeps what it has read. -/
def receive (d : Daemon) (guard : InterfaceGuard) (bytes : Bytes) : Daemon :=
  let r := (d.client.capsules.push bytes).drain
  let d := { d with client := d.client.receive bytes }
  match r.error with
  | some _ => d.leave s guard
  | none => if r.messages.any reconfigures then (d.release s guard).install s else d

def step (d : Daemon) (event : DaemonEvent) : Option Daemon :=
  match d.phase, event with
  | .exited _, _ => none
  | .waiting guard, .terminate => some (d.leave s guard)
  | .waiting _, .poll sampled => some (d.pollMtu s sampled)
  | .waiting guard, .chunk bytes => some (d.receive s guard bytes)
  | .waiting guard, .close => some (d.leave s guard)

/-- The tunnel is set up and the device is there, with the MTU of `tunnel_mtu`. -/
def start (client : Tunnel) (mtu : UInt16) : Daemon :=
  install s ⟨client, [], mtu, .exited (.ok ())⟩

end Daemon

/-! What is in place -/

namespace Settings

variable (s : Settings)

/-- The commands that put the state of the tunnel in place, each with its undo. -/
def steps (client : Tunnel) (pinPath : Option (IpAddr × Path)) : List (Cmd × Cmd) :=
  commands s.platform (plan s.subnets (s.setup client)) pinPath

inductive IsStep : Cmd × Cmd → Prop where
  | pin (proxy : IpAddr) (gateway : Option IpAddr) (dev : String) :
      IsStep (pinStep s.platform proxy gateway dev)
  | addr (addr : IpAddr) (len : Nat) : IsStep (addrStep s.platform s.dev addr len)
  | route (net : IpNet) : IsStep (routeStep s.platform s.dev net)

/-- The addresses and routes of the kernel, or any other part of its state that the
commands change in this way. -/
abbrev Kernel (σ : Type) :=
  Effects (Works s.system) (fun c => ∃ mtu, c = s.mtuCmd s.dev mtu) s.IsStep σ

variable {s}

theorem isStep_of_mem {client : Tunnel} {pinPath : Option (IpAddr × Path)} {step : Cmd × Cmd}
    (h : step ∈ s.steps client pinPath) : s.IsStep step := by
  rw [steps, commands_plan] at h
  obtain hpin | hrest := List.mem_append.mp h
  · cases pinPath with
    | none => exact absurd hpin List.not_mem_nil
    | some path =>
      rw [List.mem_singleton.mp hpin]
      exact .pin _ _ _
  · obtain haddr | hroute := List.mem_append.mp hrest
    · obtain ⟨a, -, rfl⟩ := List.mem_map.mp haddr
      exact .addr _ _
    · unfold routeSteps at hroute
      split at hroute
      · obtain ⟨net, -, rfl⟩ := List.mem_map.mp hroute
        exact .route net
      · exact absurd hroute List.not_mem_nil

variable (s) in
/-- No undo has failed so far. `drop` makes no more of one that fails than a line in the
log of the daemon. -/
abbrev UndoesWork (log : List Cmd) : Prop := UndoGuard.UndoesWork (Works s.system) s.IsStep log

/-- What `apply` comes to. -/
theorem exec_apply (client : Tunnel) (log : List Cmd) :
    (∃ e, (s.apply client).exec log = (.error e, log)) ∨
    ∃ pinPath k, resolvePin s.platform (s.system log) (plan s.subnets (s.setup client)) =
        .ok pinPath ∧
      Reaches (Works s.system) log (s.steps client pinPath) k ∧
      ((k = (s.steps client pinPath).length ∧ (s.apply client).exec log =
          (.ok ⟨(s.steps client pinPath).map Prod.snd⟩,
            log ++ (s.steps client pinPath).map Prod.fst)) ∨
        ∃ step e, (s.steps client pinPath)[k]? = some step ∧ (s.apply client).exec log =
          (.error e, log ++ ((s.steps client pinPath).take k).map Prod.fst ++ [step.1] ++
            (((s.steps client pinPath).take k).map Prod.snd).reverse)) := by
  simp only [apply, configure, realize, exec_askPin_bind]
  cases hpin : resolvePin s.platform (s.system log) (plan s.subnets (s.setup client)) with
  | error e => exact Or.inl ⟨_, rfl⟩
  | ok pinPath =>
    refine Or.inr ⟨pinPath, ?_⟩
    obtain ⟨k, hk⟩ := exists_reaches (Works s.system) log (s.steps client pinPath)
    refine ⟨k, rfl, hk, ?_⟩
    rcases (run_logs s.system).exec_applyAll_cases hk [] with ⟨hall, hdone⟩ | ⟨step, e, hstep, herror⟩
    · refine Or.inl ⟨hall, ?_⟩
      simp only [steps] at hdone
      dsimp only
      rw [exec_bind, hdone]
      rfl
    · refine Or.inr ⟨step, .err e, hstep, ?_⟩
      simp only [steps] at herror
      dsimp only
      rw [exec_bind, herror]
      rfl

end Settings

/-- Other capsules leave the addresses and the routes as they are. -/
theorem foldl_applyCapsule_of_other {capsules : List Capsule} (t : Tunnel)
    (h : capsules.any reconfigures = false) : capsules.foldl Tunnel.applyCapsule t = t := by
  induction capsules with
  | nil => rfl
  | cons c rest ih =>
    rw [List.any_cons, Bool.or_eq_false_iff] at h
    rw [List.foldl_cons]
    cases c with
    | addressAssign addrs => cases h.1
    | routeAdvertisement ranges => cases h.1
    | _ => exact ih h.2

namespace Daemon

variable {s : Settings} {σ : Type} {K : s.Kernel σ} {d d' : Daemon}

/-- The commands of the guard are in place over a state that is as it was at the start,
followed by changes of the MTU at most. -/
structure InPlace (K : s.Kernel σ) (d : Daemon) (guard : InterfaceGuard) (log : List Cmd)
    (pinPath : Option (IpAddr × Path)) (mtus : List Cmd) : Prop where
  clean : K.state log = K.state []
  resolved : resolvePin s.platform (s.system log) (plan s.subnets (s.setup d.client)) = .ok pinPath
  undo : guard.undo = (s.steps d.client pinPath).map Prod.snd
  works : ∀ j step, (s.steps d.client pinPath)[j]? = some step →
    Works s.system (log ++ ((s.steps d.client pinPath).take j).map Prod.fst) step.1
  log_eq : d.log = log ++ (s.steps d.client pinPath).map Prod.fst ++ mtus
  mtus : ∀ c ∈ mtus, ∃ mtu, c = s.mtuCmd s.dev mtu

def Tidy (K : s.Kernel σ) (d : Daemon) : Prop :=
  match d.phase with
  | .exited _ => K.state d.log = K.state []
  | .waiting guard => ∃ log pinPath mtus, d.InPlace K guard log pinPath mtus

theorem release_log (d : Daemon) (guard : InterfaceGuard) :
    (d.release s guard).log = d.log ++ guard.undo.reverse := by
  simp only [release, InterfaceGuard.drop, (run_logs s.system).exec_drop]

theorem InPlace.release {guard : InterfaceGuard} {log mtus : List Cmd}
    {pinPath : Option (IpAddr × Path)} (h : d.InPlace K guard log pinPath mtus)
    (hundoes : s.UndoesWork (d.release s guard).log) :
    K.state (d.release s guard).log = K.state [] := by
  rw [release_log, h.undo, h.log_eq] at hundoes ⊢
  rw [K.state_unwind (fun _ => Settings.isStep_of_mem) h.works (K.state_unseen _ h.mtus) hundoes]
  exact h.clean

theorem install_log (d : Daemon) : d.log <+: (d.install s).log := by
  rcases Settings.exec_apply (s := s) d.client d.log with
    ⟨e, hexec⟩ | ⟨pinPath, k, -, -, ⟨-, hexec⟩ | ⟨step, e, -, hexec⟩⟩
  · simp only [install, hexec, List.prefix_rfl]
  · simp only [install, hexec, List.prefix_append]
  · simp only [install, hexec, List.append_assoc, List.prefix_append]

theorem tidy_install (h : K.state d.log = K.state [])
    (hundoes : s.UndoesWork (d.install s).log) : (d.install s).Tidy K := by
  rcases Settings.exec_apply (s := s) d.client d.log with
    ⟨e, hexec⟩ | ⟨pinPath, k, hpin, hk, ⟨hall, hexec⟩ | ⟨step, e, hstep, hexec⟩⟩
  · simp only [install, Tidy, hexec]
    exact h
  · simp only [install, Tidy, hexec]
    refine ⟨d.log, pinPath, [], h, hpin, rfl, ?_, (List.append_nil _).symm,
      fun c hc => absurd hc List.not_mem_nil⟩
    intro j step hstep
    have hj : j < (s.steps d.client pinPath).length := (List.getElem?_eq_some_iff.mp hstep).1
    exact hk.done j step (hall ▸ hj) hstep
  · simp only [install, hexec] at hundoes
    simp only [install, Tidy, hexec]
    rw [K.state_broken (fun _ => Settings.isStep_of_mem) hk hstep hundoes]
    exact h

theorem InPlace.pollMtu {guard : InterfaceGuard} {log mtus : List Cmd}
    {pinPath : Option (IpAddr × Path)} (h : d.InPlace K guard log pinPath mtus)
    (sampled : Option Nat) : ∃ mtus', (d.pollMtu s sampled).InPlace K guard log pinPath mtus' := by
  cases sampled with
  | none => exact ⟨mtus, h⟩
  | some sampled =>
    simp only [Daemon.pollMtu]
    split
    · refine ⟨mtus ++ [s.mtuCmd s.dev (UInt16.ofNat (min sampled 65535))], h.clean, h.resolved,
        h.undo, h.works, ?_, ?_⟩
      · show d.log ++ [_] = _
        rw [h.log_eq, List.append_assoc _ mtus]
      · intro c hc
        rcases List.mem_append.mp hc with hmem | hlast
        · exact h.mtus c hmem
        · exact ⟨_, List.mem_singleton.mp hlast⟩
    · exact ⟨mtus, h⟩

theorem pollMtu_phase (s : Settings) (d : Daemon) (sampled : Option Nat) :
    (d.pollMtu s sampled).phase = d.phase := by
  cases sampled with
  | none => rfl
  | some sampled =>
    simp only [pollMtu]
    split <;> rfl

/-- Only the buffer changes. -/
theorem InPlace.other {guard : InterfaceGuard} {log mtus : List Cmd}
    {pinPath : Option (IpAddr × Path)} (h : d.InPlace K guard log pinPath mtus) {bytes : Bytes}
    (hother : (d.client.capsules.push bytes).drain.messages.any reconfigures = false) :
    InPlace K { d with client := d.client.receive bytes } guard log pinPath mtus := by
  have hclient : d.client.receive bytes =
      { d.client with capsules := ⟨(d.client.capsules.push bytes).drain.rest⟩ } := by
    rw [Tunnel.receive, foldl_applyCapsule_of_other _ hother]
  rw [hclient]
  exact ⟨h.clean, h.resolved, h.undo, h.works, h.log_eq, h.mtus⟩

theorem InPlace.receive {guard : InterfaceGuard} {log mtus : List Cmd}
    {pinPath : Option (IpAddr × Path)} (h : d.InPlace K guard log pinPath mtus)
    (hphase : d.phase = .waiting guard) {bytes : Bytes}
    (hundoes : s.UndoesWork (d.receive s guard bytes).log) : (d.receive s guard bytes).Tidy K := by
  revert hundoes
  simp only [Daemon.receive]
  split
  · exact h.release
  · split
    · intro hundoes
      have hreleased := hundoes.mono (install_log _)
      exact tidy_install (h.release hreleased) hundoes
    · rename_i hother
      intro _
      have hplace := h.other (Bool.not_eq_true _ ▸ hother)
      simp only [hphase] at hplace
      simp only [Tidy, hphase]
      exact ⟨log, pinPath, mtus, hplace⟩

/-- Only a daemon that waits takes a step. -/
theorem step_cases {event : DaemonEvent} (hstep : d.step s event = some d') :
    ∃ guard, d.phase = .waiting guard ∧
      (event.bytes = none ∧ (d' = d.leave s guard ∨ ∃ sampled, d' = d.pollMtu s sampled) ∨
        ∃ bytes, event = .chunk bytes ∧ d' = d.receive s guard bytes) := by
  cases hphase : d.phase with
  | exited result => simp [Daemon.step, hphase] at hstep
  | waiting guard =>
    refine ⟨guard, rfl, ?_⟩
    simp only [Daemon.step, hphase] at hstep
    cases event with
    | terminate | close => exact Or.inl ⟨rfl, Or.inl (Option.some.inj hstep).symm⟩
    | poll sampled => exact Or.inl ⟨rfl, Or.inr ⟨sampled, (Option.some.inj hstep).symm⟩⟩
    | chunk bytes => exact Or.inr ⟨bytes, rfl, (Option.some.inj hstep).symm⟩

theorem Tidy.step (h : d.Tidy K) {event : DaemonEvent} (hstep : d.step s event = some d')
    (hundoes : s.UndoesWork d'.log) : d'.Tidy K := by
  obtain ⟨guard, hphase, hcases⟩ := step_cases hstep
  simp only [Tidy, hphase] at h
  obtain ⟨log, pinPath, mtus, hplace⟩ := h
  rcases hcases with ⟨-, rfl | ⟨sampled, rfl⟩⟩ | ⟨bytes, -, rfl⟩
  · exact hplace.release hundoes
  · obtain ⟨mtus', hplace'⟩ := hplace.pollMtu sampled
    simp only [Tidy, pollMtu_phase, hphase]
    exact ⟨log, pinPath, mtus', hplace'⟩
  · exact hplace.receive hphase hundoes

/-- Commands are only ever added to the log. -/
theorem step_log {event : DaemonEvent} (hstep : d.step s event = some d') : d.log <+: d'.log := by
  have hrelease (d : Daemon) (guard : InterfaceGuard) : d.log <+: (d.release s guard).log := by
    rw [release_log]
    exact List.prefix_append _ _
  obtain ⟨guard, -, ⟨-, rfl | ⟨_ | sampled, rfl⟩⟩ | ⟨bytes, -, rfl⟩⟩ := step_cases hstep
  · exact hrelease d guard
  · exact List.prefix_rfl
  · simp only [pollMtu]
    split
    · exact List.prefix_append d.log [_]
    · exact List.prefix_rfl
  · simp only [Daemon.receive]
    split
    · exact hrelease _ guard
    · split
      · exact (hrelease { d with client := d.client.receive bytes } guard).trans (install_log _)
      · exact List.prefix_rfl

theorem step_client {event : DaemonEvent} (hstep : d.step s event = some d') :
    d'.client = event.bytes.toList.foldl Tunnel.receive d.client := by
  obtain ⟨guard, -, ⟨hbytes, rfl | ⟨_ | sampled, rfl⟩⟩ | ⟨bytes, rfl, rfl⟩⟩ := step_cases hstep
  · rw [hbytes]
    rfl
  · rw [hbytes]
    rfl
  · rw [hbytes]
    simp only [pollMtu]
    split <;> rfl
  · simp only [Daemon.receive]
    split
    · rfl
    · split <;> rfl

theorem run_client {events : List DaemonEvent} (h : Run (Fires (step s)) d events d') :
    d'.client = (events.filterMap DaemonEvent.bytes).foldl Tunnel.receive d.client := by
  induction h with
  | nil => rfl
  | @snoc _ _ _ event _ hlast ih =>
    rw [List.filterMap_append, List.foldl_append, ← ih, step_client hlast]
    cases hbytes : event.bytes with
    | none => simp [hbytes]
    | some bytes => simp [hbytes]

section Example

/-- What a command adds to the number of addresses and routes in place. -/
def weight (cmd : Cmd) : Int :=
  match cmd.args with
  | _ :: "add" :: _ => 1
  | _ :: "del" :: _ => -1
  | _ => 0

/-- A proxy behind a router, on a system where every command works. -/
def testSettings : Settings where
  platform := linux
  mtuCmd := Linux.mtuCmd
  subnets := hostIters
  system := fun _ cmd =>
    if cmd.args.take 2 = ["route", "get"] then
      .ok ⟨true, "203.0.113.9 via 192.168.1.1 dev eth0 src 192.168.1.7 uid 0", ""⟩
    else .ok ⟨true, "", ""⟩
  dev := "strawc0"
  pin := some (.v4 0xcb007109#32)
  installRoutes := true
  trackMtu := true

theorem testSettings_works (log : List Cmd) (c : Cmd) : Works testSettings.system log c := by
  unfold Works testSettings
  dsimp only
  split
  · exact ⟨_, rfl, rfl⟩
  · exact ⟨_, rfl, rfl⟩

def entryCount : testSettings.Kernel Int where
  state log := log.foldl (fun n cmd => n + weight cmd) 0
  failed hfails := absurd (testSettings_works _ _) hfails
  unseen hmtu := by
    obtain ⟨mtu, rfl⟩ := hmtu
    rw [List.foldl_append]
    exact Int.add_zero _
  undo {log step mid} hstep _ _ hmid := by
    have hcancel : weight step.1 + weight step.2 = 0 := by
      cases hstep <;> rfl
    simp only [List.foldl_append, List.foldl_cons, List.foldl_nil] at hmid ⊢
    omega

/-- An ADDRESS_ASSIGN with one address, as a capsule. -/
def testAssign (last : UInt8) : Bytes := [1, 7, 0, 4, 10, 100, 0, last, 32]

def testTunnel : Tunnel :=
  ⟨.new, [⟨0, 4, .v4 0x0a640002#32, 32⟩], [⟨4, .v4 0x0a000000#32, .v4 0x0a000000#32, 0⟩]⟩

end Example

end Daemon

end Client

end Straw
