import SearchPolling.Redis.Server

/-!
# A scripted server

A server that replies as a script says, and as any other server where the script says
nothing.  It keeps a record of the commands that it was given.
-/

namespace SearchPolling
namespace Rehearsal

open Redis (Command Network)

/-- What a script says about one command. -/
inductive ScriptedReply where
  /-- The reply is up to the server. -/
  | own
  | bytes (bytes : List UInt8)
  /-- The connection is closed. -/
  | hangUp
  deriving DecidableEq, Repr

/-- A scripted server. -/
structure ScriptedServer where
  /-- What becomes of the commands to come, in their order. -/
  replies : List ScriptedReply
  memory : Store.Memory
  /-- The words of the commands that have come, in their order. -/
  commands : List (List String)

namespace ScriptedServer

/-- The server at the beginning of a script. -/
def ofReplies (replies : List ScriptedReply) : ScriptedServer :=
  ⟨replies, .empty, []⟩

/-- The server with one more command in its record. -/
def record (s : ScriptedServer) (bytes : List UInt8) : ScriptedServer :=
  match Command.ofBytes? bytes with
  | some c => { s with commands := s.commands ++ [c.words] }
  | none => s

/-- What the script says about the next command. -/
def next (s : ScriptedServer) : ScriptedReply × ScriptedServer :=
  match s.replies with
  | [] => (.own, s)
  | reply :: replies => (reply, { s with replies })

/-- What the server sends back, unless it closes the connection. -/
def answer (bytes : List UInt8) (s : ScriptedServer) : Option (List UInt8) × ScriptedServer :=
  let (scripted, s) := (s.record bytes).next
  match scripted with
  | .own =>
    let (reply, memory) := Redis.Server.answer bytes s.memory
    (some reply, { s with memory })
  | .bytes reply => (some reply, s)
  | .hangUp => (none, s)

/-- The network with nothing but this server, where it can be reached or not. -/
def network (reachable : Bool) : Network ScriptedServer where
  connect s := (reachable, s)
  send bytes s := s.answer bytes

end ScriptedServer
end Rehearsal
end SearchPolling
