import Straw.UdpBind.Socket

/-!
# The relay's side of a bind session
-/

namespace Straw

set_option autoImplicit false

/-- The relay's table, and the capsules it sent on the request stream. -/
structure BindStream where
  contexts : ContextTable
  sent : List Bytes

namespace BindStream

def handleContextCapsule (s : BindStream) (typeId : Nat) (data : Bytes) :
    Outcome ProxyError BindStream := do
  if typeId = capsuleCompressionAssign then
    let assign ← ProxyError.ofDecode (CompressionAssign.decode data)
    match s.contexts.register assign with
    | .error _ => .ok s
    | .ok table =>
      match table.ack assign.contextId with
      | .error _ => .ok { s with contexts := table }
      | .ok table =>
        let buf ← encodeContextCapsule capsuleCompressionAck assign.contextId
        .ok ⟨table, s.sent ++ [buf]⟩
  else if typeId = capsuleCompressionClose then
    let contextId ← ProxyError.ofDecode (decodeContextCapsule data)
    .ok { s with contexts := s.contexts.close contextId }
  else .ok s

/-- One capsule of the stream, in `run_capsules`; an error ends the session. -/
def receive (s : BindStream) (chunk : Bytes) : Outcome ProxyError BindStream := do
  match ← ProxyError.ofDecode (nextCapsule chunk).1 with
  | some (.unknown typeId data) => s.handleContextCapsule typeId data
  | _ => .ok s

end BindStream

end Straw
