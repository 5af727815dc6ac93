import SearchPolling.Redis.Connection
import SearchPolling.Store

/-!
# A server

A server that keeps texts under keys, and can always be reached.
-/

namespace SearchPolling
namespace Redis
namespace Server

/-- The reply to a command, and what is kept afterwards. -/
def reply (m : Store.Memory) : Command → List UInt8 × Store.Memory
  | .ping => (Reply.line '+' "PONG".toList, m)
  | .get key =>
    match m.load key with
    | some value => (Reply.encodeBytes (Text.utf8 value), m)
    | none => (Reply.line '$' "-1".toList, m)
  | .set key value => (Reply.line '+' "OK".toList, m.save key value)

/-- The reply to bytes, and what is kept afterwards. -/
def answer (bytes : List UInt8) (m : Store.Memory) : List UInt8 × Store.Memory :=
  match Command.ofBytes? bytes with
  | some c => reply m c
  | none => (Reply.line '-' "ERR unknown command".toList, m)

/-- The network with nothing but this server. -/
def network : Network Store.Memory where
  connect m := (true, m)
  send bytes m :=
    let (reply, m) := answer bytes m
    (some reply, m)

end Server
end Redis
end SearchPolling
