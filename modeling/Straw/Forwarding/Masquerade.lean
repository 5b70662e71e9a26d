import Straw.Capsule.Codec
import Straw.IpText

/-!
# Masquerading and its undoing

`setup_nat` enables forwarding and appends a masquerade rule for every pool that is not
there yet; dropping the guard deletes the rules again. A rule in a chain is its
arguments, and whether `setup_nat` has appended it or it was there before.

Rules are compared by the text of their arguments. The commands themselves mask the address
of `-s`, so that to them 10.0.0.1/24 and 10.0.0.0/24 name one rule and here two.
-/

namespace Straw.Masquerade

open Outcome Proc
set_option autoImplicit false

inductive NatCommand where
  | iptables
  | ip6tables
deriving DecidableEq

def NatCommand.text : NatCommand → String
  | .iptables => "iptables"
  | .ip6tables => "ip6tables"

/-- An `IpNet` as it is printed. Host bits are kept here and masked by `iptables`. -/
structure Pool where
  addr : IpAddr
  prefixLen : Nat
deriving DecidableEq

def Pool.toText (pool : Pool) : String := pool.addr.toText ++ "/" ++ toString pool.prefixLen

structure MasqueradeRule where
  command : NatCommand
  args : List String
deriving DecidableEq

def masqueradeRules (pools : List Pool) (interface : String) : List MasqueradeRule :=
  pools.map fun pool =>
    { command := match pool.addr with
        | .v4 _ => .iptables
        | .v6 _ => .ip6tables
      args := ["-t", "nat", "POSTROUTING", "-s", pool.toText, "-o", interface, "-j", "MASQUERADE"] }

def forwardingSysctls (pools : List Pool) : List String :=
  (if pools.any fun p => p.addr.width = 32 then ["net.ipv4.ip_forward=1"] else []) ++
    if pools.any fun p => p.addr.width = 128 then ["net.ipv6.conf.all.forwarding=1"] else []

def withAction {ε : Type} (args : List String) (action : String) : Outcome ε (List String) := do
  let table ← slice args 0 2
  let chain ← slice args 2 args.length
  .ok (table ++ [action] ++ chain)

section Kernel

structure ChainRule where
  spec : List String
  added : Bool
deriving DecidableEq

abbrev Chain := List ChainRule

/-- What `-C` looks for, by the text of the rule. -/
def Chain.holds (chain : Chain) (spec : List String) : Bool := chain.any fun r => r.spec = spec

def Chain.deleteFirst (chain : Chain) (spec : List String) : Chain :=
  chain.eraseP fun r => r.spec = spec

/-- The POSTROUTING chains of the two commands. -/
structure Kernel where
  chains : NatCommand → Chain

def Kernel.set (k : Kernel) (command : NatCommand) (chain : Chain) : Kernel :=
  ⟨Function.update k.chains command chain⟩

/-- Why a command had no effect: it could not be started, or it ended with an error. -/
inductive CommandFault where
  | notRun (message : String)
  | failed

/-- Run a command line; the result is whether it succeeded. -/
def Kernel.invoke (k : Kernel) (fault : Option CommandFault) (command : NatCommand) :
    List String → Except String Bool × Kernel
  | "-t" :: "nat" :: action :: "POSTROUTING" :: spec =>
    match fault with
    | some (.notRun message) => (.error message, k)
    | some .failed => (.ok false, k)
    | none =>
      if action = "-C" then (.ok ((k.chains command).holds spec), k)
      else if action = "-A" then
        (.ok true, k.set command (k.chains command ++ [⟨spec, true⟩]))
      else if action = "-D" then
        (.ok ((k.chains command).holds spec), k.set command ((k.chains command).deleteFirst spec))
      else (.ok false, k)
  | _ => (.ok false, k)

/-- Which of the commands fail, by the place of their sysctl or rule in the list. -/
structure NatEnv where
  sysctl : Nat → Option CommandFault
  check : Nat → Option CommandFault
  append : Nat → Option CommandFault

end Kernel

section Setup

abbrev NatProc := Proc Kernel ProxyError

def status (fault : Option CommandFault) (command : NatCommand) (argv : List String) :
    NatProc (Except String Bool) := fun k =>
  let r := k.invoke fault command argv
  (.ok r.1, r.2)

def enableForwarding (env : NatEnv) : List (String × Nat) → NatProc Unit
  | [] => pure ()
  | (sysctl, i) :: rest =>
    match env.sysctl i with
    | some (.notRun e) => throw (.config s!"sysctl failed to run: {e}")
    | some .failed => throw (.config s!"sysctl -w {sysctl} failed")
    | none => enableForwarding env rest

def installRules (env : NatEnv) : List (MasqueradeRule × Nat) → NatProc Unit
  | [] => pure ()
  | (rule, i) :: rest => do
    let check ← ofOutcome (withAction rule.args "-C")
    let checked ← status (env.check i) rule.command check
    if checked.toOption = some true then installRules env rest
    else
      let append ← ofOutcome (withAction rule.args "-A")
      match ← status (env.append i) rule.command append with
      | .error e => throw (.config (rule.command.text ++ s!" failed to run: {e}"))
      | .ok false => throw (.config (rule.command.text ++ " -A POSTROUTING rule failed"))
      | .ok true => installRules env rest

structure NatGuard where
  rules : List MasqueradeRule
deriving DecidableEq

def setupNat (env : NatEnv) (pools : List Pool) (interface : String) : NatProc NatGuard := do
  enableForwarding env (forwardingSysctls pools).zipIdx
  let rules := masqueradeRules pools interface
  installRules env rules.zipIdx
  pure ⟨rules⟩

/-- `Drop for NatGuard`, with no `-D` that fails for a reason of its own. -/
def NatGuard.drop (guard : NatGuard) : NatProc Unit :=
  guard.rules.foldlM (fun _ rule => do
    let argv ← ofOutcome (withAction rule.args "-D")
    let _ ← status none rule.command argv) ()

end Setup

/-! What the commands do to the chains -/

namespace MasqueradeRule

def spec (rule : MasqueradeRule) : List String := rule.args.drop 3

/-- The arguments name the table and the chain first. -/
def WellFormed (rule : MasqueradeRule) : Prop :=
  rule.args = "-t" :: "nat" :: "POSTROUTING" :: rule.spec

theorem eq_of_spec {a b : MasqueradeRule} (ha : a.WellFormed) (hb : b.WellFormed)
    (hcommand : a.command = b.command) (hspec : a.spec = b.spec) : a = b := by
  rw [WellFormed, hspec, ← hb] at ha
  cases a
  cases b
  simp only at hcommand ha
  rw [hcommand, ha]

theorem withAction_eq {ε : Type} {rule : MasqueradeRule} (h : rule.WellFormed) (action : String) :
    (withAction rule.args action : Outcome ε (List String)) =
      .ok ("-t" :: "nat" :: action :: "POSTROUTING" :: rule.spec) := by
  have hlong : 2 ≤ rule.args.length := by
    rw [h]
    simp
  rw [withAction, slice, if_pos ⟨Nat.zero_le 2, hlong⟩, ok_bind, slice,
    if_pos ⟨hlong, Nat.le_refl _⟩, ok_bind, h]
  simp

end MasqueradeRule

theorem masqueradeRules_wellFormed (pools : List Pool) (interface : String) :
    ∀ rule ∈ masqueradeRules pools interface, rule.WellFormed := by
  intro rule hrule
  obtain ⟨pool, -, rfl⟩ := List.mem_map.mp hrule
  rfl

namespace Kernel

def holds (k : Kernel) (rule : MasqueradeRule) : Bool := (k.chains rule.command).holds rule.spec

def append (k : Kernel) (rule : MasqueradeRule) : Kernel :=
  k.set rule.command (k.chains rule.command ++ [⟨rule.spec, true⟩])

def delete (k : Kernel) (rule : MasqueradeRule) : Kernel :=
  k.set rule.command ((k.chains rule.command).deleteFirst rule.spec)

variable {k : Kernel} {rule : MasqueradeRule}

theorem set_self (k : Kernel) (command : NatCommand) (chain : Chain) :
    (k.set command chain).chains command = chain := by
  simp only [set, Function.update_self]

theorem set_of_ne (k : Kernel) {command c : NatCommand} (h : c ≠ command) (chain : Chain) :
    (k.set command chain).chains c = k.chains c := by
  simp only [set, Function.update_of_ne h]

theorem ext {k l : Kernel} (h : ∀ c, k.chains c = l.chains c) : k = l := by
  cases k
  cases l
  congr 1
  exact funext h

end Kernel

section Running

variable {env : NatEnv} {k : Kernel} {rule : MasqueradeRule} {i : Nat}
  {rest : List (MasqueradeRule × Nat)}

/-- `-C` runs and finds the rule. -/
def Found (env : NatEnv) (k : Kernel) (x : MasqueradeRule × Nat) : Prop :=
  env.check x.2 = none ∧ k.holds x.1 = true

instance (env : NatEnv) (k : Kernel) (x : MasqueradeRule × Nat) : Decidable (Found env k x) :=
  match h : env.check x.2 with
  | none => decidable_of_iff (k.holds x.1 = true) (by simp [Found, h])
  | some _ => .isFalse (by simp [Found, h])

theorem exec_check (rule : MasqueradeRule) (fault : Option CommandFault) (k : Kernel) :
    ∃ r, (status fault rule.command
        ("-t" :: "nat" :: "-C" :: "POSTROUTING" :: rule.spec)).exec k = (.ok r, k) ∧
      (r.toOption = some true ↔ fault = none ∧ k.holds rule = true) := by
  match fault with
  | some (.notRun message) => exact ⟨.error message, rfl, by simp [Except.toOption]⟩
  | some .failed => exact ⟨.ok false, rfl, by simp [Except.toOption]⟩
  | none => exact ⟨.ok (k.holds rule), rfl, by simp [Except.toOption]⟩

theorem exec_found (h : rule.WellFormed) (hfound : Found env k (rule, i)) :
    (installRules env ((rule, i) :: rest)).exec k = (installRules env rest).exec k := by
  obtain ⟨r, hcheck, hr⟩ := exec_check rule (env.check i) k
  rw [installRules, exec_bind, MasqueradeRule.withAction_eq h]
  change (status (env.check i) rule.command _ >>= _ : NatProc Unit).exec k = _
  rw [exec_bind, hcheck]
  simp only [if_pos (hr.mpr hfound)]

theorem exec_not_found (h : rule.WellFormed) (hfound : ¬ Found env k (rule, i))
    (rest : List (MasqueradeRule × Nat)) :
    (∃ e, (env.append i).isSome ∧
        (installRules env ((rule, i) :: rest)).exec k = (fail e, k)) ∨
      (env.append i = none ∧ (installRules env ((rule, i) :: rest)).exec k =
        (installRules env rest).exec (k.append rule)) := by
  obtain ⟨r, hcheck, hr⟩ := exec_check rule (env.check i) k
  have hnot : ¬ r.toOption = some true := fun hr' => hfound (hr.mp hr')
  have hstep : (installRules env ((rule, i) :: rest)).exec k =
      (status (env.append i) rule.command
        ("-t" :: "nat" :: "-A" :: "POSTROUTING" :: rule.spec) >>= fun
          | .error e => throw (.config (rule.command.text ++ s!" failed to run: {e}"))
          | .ok false => throw (.config (rule.command.text ++ " -A POSTROUTING rule failed"))
          | .ok true => installRules env rest : NatProc Unit).exec k := by
    rw [installRules, exec_bind, MasqueradeRule.withAction_eq h]
    change (status (env.check i) rule.command _ >>= _ : NatProc Unit).exec k = _
    rw [exec_bind, hcheck]
    simp only [if_neg hnot]
    rw [exec_bind, MasqueradeRule.withAction_eq h]
    rfl
  rw [hstep]
  match env.append i with
  | some (.notRun message) => exact Or.inl ⟨_, rfl, rfl⟩
  | some .failed => exact Or.inl ⟨_, rfl, rfl⟩
  | none => exact Or.inr ⟨rfl, rfl⟩

theorem exec_drop {rules : List MasqueradeRule} (h : ∀ rule ∈ rules, rule.WellFormed)
    (k : Kernel) :
    ((NatGuard.mk rules).drop.exec k).2 = rules.foldl Kernel.delete k := by
  induction rules generalizing k with
  | nil => rfl
  | cons rule rules ih =>
    have hdrop : ((NatGuard.mk (rule :: rules)).drop.exec k) =
        (NatGuard.mk rules).drop.exec (k.delete rule) := by
      simp only [NatGuard.drop, List.foldlM_cons]
      rw [exec_bind, exec_bind, MasqueradeRule.withAction_eq (h rule List.mem_cons_self)]
      rfl
    rw [hdrop, ih (fun r hr => h r (List.mem_cons_of_mem rule hr))]
    rfl

end Running

end Straw.Masquerade
