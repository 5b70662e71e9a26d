import Straw.UdpBind.Context

/-!
# The rewrite loop of a bind session

The relay frames what arrives on the bound socket and hands it to the peer.
-/

namespace Straw

open Outcome
set_option autoImplicit false

/-- None means drop: no context can carry the datagram. -/
def encapsulate (table : ContextTable) (remote : SocketAddr) (payload : Bytes) :
    Outcome ContextError (Option Bytes) :=
  match table.compressedContextFor remote with
  | some id => discardErr (table.encodeDatagram id remote payload)
  | none =>
    match table.uncompressedContext with
    | none => .ok none
    | some id => discardErr (table.encodeDatagram id remote payload)

theorem encapsulate_of_none {table : ContextTable} {remote : SocketAddr}
    (h : (table.compressedContextFor remote).or table.uncompressedContext = none)
    (payload : Bytes) : encapsulate table remote payload = .ok none := by
  obtain ⟨hcompressed, huncompressed⟩ := Option.or_eq_none_iff.mp h
  rw [encapsulate, hcompressed, huncompressed]

theorem encapsulate_of_some {table : ContextTable} {remote : SocketAddr} {id : Nat}
    (h : (table.compressedContextFor remote).or table.uncompressedContext = some id)
    (payload : Bytes) :
    encapsulate table remote payload = discardErr (table.encodeDatagram id remote payload) := by
  unfold encapsulate
  cases hcompressed : table.compressedContextFor remote with
  | some id' =>
    rw [hcompressed] at h
    obtain rfl : id' = id := by simpa using h
    rfl
  | none =>
    rw [hcompressed, Option.none_or] at h
    rw [h]

end Straw
