import Straw.Lib.Resources
import Straw.Lib.Spawned
import Straw.Lib.Table
import Straw.UdpBind.Alloc
import Straw.UdpBind.Handler

/-!
# Bind sessions as tasks

One session is the task of its request handler, the rewrite loop it spawns, and the
receive loop that one spawns in turn. Every await of the handler may succeed or fail;
its outcome is part of the step's label. The UDP socket is owned by whichever tasks hold
a reference to it: the handler after the bind, then the rewrite loop and the receive
loop. What the loops do to single datagrams plays no part in who owns the socket.
-/

namespace Straw

open Transition
set_option autoImplicit false

/-- The relay-wide state; a sink stands for the sending half of a session's queue. -/
structure UdpBindState where
  allocator : Option PortAllocator
  sessions : Table SessionId Unit

namespace UdpBindState

def inUse (g : UdpBindState) : Finset SocketAddr :=
  match g.allocator with
  | some a => a.inUse
  | none => ∅

def register (g : UdpBindState) (id : SessionId) : UdpBindState :=
  { g with sessions := g.sessions.insert id () }

def unregister (g : UdpBindState) (id : SessionId) : UdpBindState :=
  { g with sessions := g.sessions.remove id }

def release (g : UdpBindState) (addr : SocketAddr) : UdpBindState :=
  { g with allocator := g.allocator.map fun a => a.release addr }

end UdpBindState

def sessionQueueDepth : Nat := 256
def bindAttempts : Nat := 16

abbrev ProxyResult := Except ProxyError Unit

/-- Where the handler of a request stands. `addr` is the allocated tuple, `bound` the
address its socket is bound to. -/
inductive BindPc where
  | idle
  | entered
  | validated
  | refusing (e : ProxyError)
  | allocating (attempts : Nat)
  | binding (attempts : Nat) (addr : SocketAddr)
  | unbound (attempts : Nat) (addr : SocketAddr)
  | accepting (addr bound : SocketAddr)
  | reporting (addr bound : SocketAddr)
  | registering (addr bound : SocketAddr)
  | spawning (addr bound : SocketAddr)
  | serving (addr : SocketAddr)
  | aborting (addr : SocketAddr) (result : ProxyResult)
  | unregistering (addr : SocketAddr) (result : ProxyResult)
  | releasing (addr : SocketAddr) (result : ProxyResult)
  | returned (result : ProxyResult)
deriving DecidableEq

structure BindSession where
  handler : BindPc
  run : Spawned SocketAddr
  inbound : Spawned SocketAddr
  queue : Nat

def BindSession.fresh : BindSession := ⟨.idle, .unspawned, .unspawned, 0⟩

inductive BindAct where
  | request
  | validate (r : ProxyResult)
  | authenticate (r : ProxyResult)
  | respond (r : ProxyResult)
  | allocate
  | bind (bound : Option SocketAddr)
  | giveBack
  | sendResponse (r : ProxyResult)
  | sendObserved (r : ProxyResult)
  | register
  | spawn
  | capsules (r : ProxyResult)
  | abort
  | unregister
  | release
  | deliver
  | pollRun
  | recv
  | suspendRun
  | dropRun
  | pollInbound
  | suspendInbound
  | failInbound
  | dropInbound

/-- The address a socket is bound to: port 0 asks the system for any port. -/
def BoundTo (addr bound : SocketAddr) : Prop :=
  bound.ip = addr.ip ∧ (addr.port = 0 ∨ bound = addr)

instance (addr bound : SocketAddr) : Decidable (BoundTo addr bound) :=
  inferInstanceAs (Decidable (_ ∧ _))

namespace BindPc

def onOk (r : ProxyResult) (next : BindPc) : BindPc :=
  match r with
  | .ok () => next
  | .error e => .returned (.error e)

def retry (attempts : Nat) : BindPc :=
  if attempts = 0 then .refusing (.config "could not bind any allocated port")
  else .allocating attempts

end BindPc

/-- One step of the handler, up to its effect on the tasks it spawned. -/
def handleConnectUdpBindStream (id : SessionId) (g : UdpBindState) :
    BindAct → BindPc → Option (UdpBindState × BindPc)
  | .request, .idle => some (g, .entered)
  | .validate r, .entered =>
    some (g, match r with
      | .ok () => .validated
      | .error e => .refusing e)
  | .authenticate r, .validated =>
    some (g, match g.allocator, r with
      | none, _ => .refusing (.config "udp_bind is not enabled")
      | some _, .ok () => .allocating bindAttempts
      | some _, .error e => .refusing e)
  | .respond r, .refusing e => some (g, .onOk r (.returned (.error e)))
  | .allocate, .allocating (attempts + 1) =>
    match g.allocator.map PortAllocator.allocate with
    | none => none
    | some (a, none) =>
      some ({ g with allocator := some a }, .refusing (.config "no free bind address"))
    | some (a, some addr) => some ({ g with allocator := some a }, .binding attempts addr)
  | .bind none, .binding attempts addr => some (g, .unbound attempts addr)
  | .bind (some bound), .binding _ addr =>
    if BoundTo addr bound then some (g, .accepting addr bound) else none
  | .giveBack, .unbound attempts addr => some (g.release addr, .retry attempts)
  | .sendResponse r, .accepting addr bound => some (g, .onOk r (.reporting addr bound))
  | .sendObserved r, .reporting addr bound => some (g, .onOk r (.registering addr bound))
  | .register, .registering addr bound => some (g.register id, .spawning addr bound)
  | .spawn, .spawning addr _ => some (g, .serving addr)
  | .capsules r, .serving addr => some (g, .aborting addr r)
  | .abort, .aborting addr r => some (g, .unregistering addr r)
  | .unregister, .unregistering addr r => some (g.unregister id, .releasing addr r)
  | .release, .releasing addr r => some (g.release addr, .returned r)
  | _, _ => none

def BindSession.runAfter (l : BindSession) : BindAct → Spawned SocketAddr
  | .spawn =>
    match l.handler with
    | .spawning _ bound => .spawn bound
    | _ => l.run
  | .abort => l.run.abort
  | _ => l.run

/-- One step of the spawned loops. The rewrite loop starts by spawning the receive loop.
It waits for datagrams of the peer while its queue is `connected`; when the queue is
closed and empty it aborts the receive loop and ends. -/
def BindSession.runLoops (l : BindSession) (connected : Bool) : BindAct → Option BindSession
  | .deliver =>
    if connected ∧ l.queue < sessionQueueDepth then some { l with queue := l.queue + 1 } else none
  | .pollRun =>
    match l.run with
    | .waiting bound false =>
      some { l with run := .polling bound false, inbound := .spawn bound }
    | run => run.poll.map fun run => { l with run }
  | .recv =>
    match l.run with
    | .polling _ _ =>
      if 0 < l.queue then some { l with queue := l.queue - 1 }
      else if connected then l.run.suspend.map fun run => { l with run }
      else l.run.finish.map fun run => { l with run, inbound := l.inbound.abort }
    | _ => none
  -- a datagram of the peer waits for the socket
  | .suspendRun => l.run.suspend.map fun run => { l with run }
  | .dropRun => l.run.drop.map fun run => { l with run }
  | .pollInbound => l.inbound.poll.map fun inbound => { l with inbound }
  | .suspendInbound => l.inbound.suspend.map fun inbound => { l with inbound }
  -- receiving on the socket failed
  | .failInbound => l.inbound.finish.map fun inbound => { l with inbound }
  | .dropInbound => l.inbound.drop.map fun inbound => { l with inbound }
  | _ => none

namespace BindSession

def advance (id : SessionId) (act : BindAct) (g : UdpBindState) (l : BindSession) :
    Option (UdpBindState × BindSession) :=
  match handleConnectUdpBindStream id g act l.handler with
  | some (g, handler) => some (g, { l with handler, run := l.runAfter act })
  | none => (l.runLoops (g.sessions id).isSome act).map fun l => (g, l)

end BindSession

abbrev BindSys := Tasks SessionId UdpBindState BindSession
abbrev BindLabel := Tasks.Label SessionId BindAct Empty

def BindSys.step : BindSys → BindLabel → Option BindSys :=
  Tasks.step BindSession.advance fun d _ => d.elim

def BindSys.initial (allocator : Option PortAllocator) : BindSys :=
  ⟨⟨allocator, Table.empty⟩, fun _ => .fresh⟩

end Straw
