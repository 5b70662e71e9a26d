import Straw.IpParse
import Straw.IpText
import Straw.Capsule.Codec

/-!
# Commands that configure an interface

A command is a program with its arguments. What they are is up to the platform: `ip` on
Linux, `ifconfig` and `route` on macOS, and a program that fails everywhere else. So is how
the current path to an address is asked for and read.
-/

namespace Straw

set_option autoImplicit false

def IpNet.toText : IpNet → String
  | .v4 net => Ipv4Addr.toText net.network ++ "/" ++ toString net.len
  | .v6 net => Ipv6Addr.toText net.network ++ "/" ++ toString net.len

namespace Iface

open Text

structure Cmd where
  program : String
  args : List String
deriving DecidableEq

def Cmd.toText (cmd : Cmd) : String := cmd.program ++ " " ++ " ".intercalate cmd.args

/-- What a program leaves behind when it ends; the two streams are decoded. -/
structure Output where
  success : Bool
  stdout : String
  stderr : String
deriving DecidableEq

def trimmed (s : String) : String := String.ofList (trim isWhitespace s.toList)

/-- A gateway, unless the destination is on the link, and a device. -/
abbrev Path := Option IpAddr × String

/-- The functions a platform provides. The last one is given the means to run a command
that asks for the current route. -/
structure Platform where
  addrCmd : String → String → IpAddr → Nat → Cmd
  routeCmd : String → IpNet → String → Cmd
  pinCmd : String → IpAddr → Option IpAddr → String → Cmd
  pathTo : (Cmd → Except String Output) → IpAddr → Except ProxyError Path

/-- Both platforms ask one command and read its output. -/
def askPath (query : Cmd) (program shown : String) (parse : List Char → Option Path)
    (output : Cmd → Except String Output) (dst : IpAddr) : Except ProxyError Path :=
  match output query with
  | .error e => .error (.config ("failed to run " ++ program ++ ": " ++ e))
  | .ok out =>
    if !out.success then
      .error (.config (shown ++ " " ++ dst.toText ++ " failed: " ++ trimmed out.stderr))
    else
      match parse out.stdout.toList with
      | some path => .ok path
      | none => .error (.config ("could not parse the current route to " ++ dst.toText))

/-! Linux -/

namespace Linux

def addrCmd (action dev : String) (addr : IpAddr) (prefixLen : Nat) : Cmd :=
  ⟨"ip", ["addr", action, addr.toText ++ "/" ++ toString prefixLen, "dev", dev]⟩

def routeCmd (action : String) (net : IpNet) (dev : String) : Cmd :=
  ⟨"ip", ["route", action, net.toText, "dev", dev]⟩

def pinCmd (action : String) (proxy : IpAddr) (gateway : Option IpAddr) (dev : String) : Cmd :=
  let via := match gateway with
    | some gw => ["via", gw.toText]
    | none => []
  ⟨"ip", ["route", action, proxy.toText ++ "/" ++ toString proxy.width] ++ via ++ ["dev", dev]⟩

def parseRouteGet (output : List Char) : Option Path := do
  let first ← (lines output).head?
  let tokens := splitWhitespace first
  let after (key : String) : Option (List Char) := do
    let i ← tokens.findIdx? (· = key.toList)
    tokens[i + 1]?
  let dev ← after "dev"
  let gateway := (after "via").bind IpAddr.fromStr
  return (gateway, String.ofList dev)

def pathTo (output : Cmd → Except String Output) (dst : IpAddr) : Except ProxyError Path :=
  askPath ⟨"ip", ["route", "get", dst.toText]⟩ "ip route get" "ip route get"
    parseRouteGet output dst

end Linux

def linux : Platform := ⟨Linux.addrCmd, Linux.routeCmd, Linux.pinCmd, Linux.pathTo⟩

/-! macOS -/

namespace Macos

def netmask (prefixLen : Nat) : String :=
  let bits := if prefixLen = 0 then 0#32 else 0xffffffff#32 <<< (32 - min prefixLen 32)
  Ipv4Addr.toText bits

def isIpv6 : IpAddr → Bool
  | .v4 _ => false
  | .v6 _ => true

def addrCmd (action dev : String) (addr : IpAddr) (prefixLen : Nat) : Cmd :=
  let family := if isIpv6 addr then "inet6" else "inet"
  let tail :=
    if action = "add" then
      match addr with
      | .v4 _ => [addr.toText, "netmask", netmask prefixLen]
      | .v6 _ => ["prefixlen", toString prefixLen]
    else ["-alias"]
  ⟨"ifconfig", [dev, family, addr.toText] ++ tail⟩

def verb (action : String) : String := if action = "add" then "add" else "delete"

def routeCmd (action : String) (net : IpNet) (dev : String) : Cmd :=
  let family := match net with
    | .v4 _ => []
    | .v6 _ => ["-inet6"]
  ⟨"route", ["-n", verb action] ++ family ++ ["-net", net.toText, "-interface", dev]⟩

def pinCmd (action : String) (proxy : IpAddr) (gateway : Option IpAddr) (dev : String) : Cmd :=
  let family := if isIpv6 proxy then ["-inet6"] else []
  let hop := match gateway with
    | some gw => [gw.toText]
    | none => ["-interface", dev]
  ⟨"route", ["-n", verb action] ++ family ++ ["-host", proxy.toText] ++ hop⟩

def parseRouteGet (output : List Char) : Option Path := do
  let field (key : String) : Option (List Char) :=
    (lines output).findSome? fun line => do
      let (name, value) ← splitOnce ':' line
      if trim isWhitespace name = key.toList then some (trim isWhitespace value) else none
  let dev ← field "interface"
  let gateway := (field "gateway").bind IpAddr.fromStr
  return (gateway, String.ofList dev)

def pathTo (output : Cmd → Except String Output) (dst : IpAddr) : Except ProxyError Path :=
  let family := if isIpv6 dst then ["-inet6"] else []
  askPath ⟨"route", ["-n", "get"] ++ family ++ [dst.toText]⟩ "route get" "route -n get"
    parseRouteGet output dst

end Macos

def macos : Platform := ⟨Macos.addrCmd, Macos.routeCmd, Macos.pinCmd, Macos.pathTo⟩

/-! Undoing -/

/-- A command and its undo are run by one program and are not the same. -/
def Undo (apply undo : Cmd) : Prop := apply.program = undo.program ∧ apply ≠ undo

/-- Every command of the platform has an undo. -/
structure Platform.Undoes (p : Platform) : Prop where
  addr : ∀ dev addr len, Undo (p.addrCmd "add" dev addr len) (p.addrCmd "del" dev addr len)
  route : ∀ net dev, Undo (p.routeCmd "add" net dev) (p.routeCmd "del" net dev)
  pin : ∀ proxy gateway dev,
    Undo (p.pinCmd "add" proxy gateway dev) (p.pinCmd "del" proxy gateway dev)

theorem linux_undoes : linux.Undoes := by
  refine ⟨?_, ?_, ?_⟩
  · intro dev addr len
    exact ⟨rfl, by simp [linux, Linux.addrCmd]⟩
  · intro net dev
    exact ⟨rfl, by simp [linux, Linux.routeCmd]⟩
  · intro proxy gateway dev
    exact ⟨rfl, by simp [linux, Linux.pinCmd]⟩

theorem macos_undoes : macos.Undoes := by
  refine ⟨?_, ?_, ?_⟩
  · intro dev addr len
    refine ⟨rfl, ?_⟩
    cases addr with
    | v4 a => simp [macos, Macos.addrCmd]
    | v6 a => simp [macos, Macos.addrCmd]
  · intro net dev
    exact ⟨rfl, by simp [macos, Macos.routeCmd, Macos.verb]⟩
  · intro proxy gateway dev
    exact ⟨rfl, by simp [macos, Macos.pinCmd, Macos.verb]⟩

/-! Every other platform -/

namespace Unsupported

def unsupported : Cmd := ⟨"false", ["unsupported-platform"]⟩

def pathTo (_output : Cmd → Except String Output) (_dst : IpAddr) : Except ProxyError Path :=
  .error (.config "interface configuration is supported on Linux and macOS only")

end Unsupported

def unsupported : Platform :=
  ⟨fun _ _ _ _ => Unsupported.unsupported, fun _ _ _ => Unsupported.unsupported,
    fun _ _ _ _ => Unsupported.unsupported, Unsupported.pathTo⟩

end Iface

end Straw
