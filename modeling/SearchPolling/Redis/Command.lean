import SearchPolling.Redis.Reply

/-!
# Commands

The commands that a state store gives to a server, as a list of byte texts, and what it
makes of the replies.
-/

namespace SearchPolling
namespace Redis

/-- A command. -/
inductive Command where
  | ping
  | get (key : String)
  | set (key value : String)
  deriving DecidableEq, Repr

/-- Why a command was not carried out. -/
inductive Fault where
  /-- No connection could be opened. -/
  | unreachable
  /-- The connection was closed before the reply. -/
  | closed
  /-- What came is no reply. -/
  | malformed
  /-- The reply is an error. -/
  | refused (reply : Reply)
  /-- The command needs a reply of another kind. -/
  | unsuitable (reply : Reply)

namespace Fault

def message : Fault → String
  | unreachable => "connection refused"
  | closed => "connection closed"
  | malformed => "malformed reply"
  | refused _ => "the server replied with an error"
  | unsuitable _ => "unexpected reply"

end Fault

namespace Command

/-- The words of a command. -/
def words : Command → List String
  | ping => ["PING"]
  | get key => ["GET", key]
  | set key value => ["SET", key, value]

/-- The bytes of a command. -/
def encode (c : Command) : List UInt8 :=
  Reply.encodeTexts (c.words.map Text.utf8)

/-- The command of words. -/
def ofWords? : List String → Option Command
  | ["PING"] => some ping
  | ["GET", key] => some (get key)
  | ["SET", key, value] => some (set key value)
  | _ => none

/-- Reads the bytes of a command. -/
def ofBytes? (bytes : List UInt8) : Option Command :=
  match Reply.ofBytes? bytes with
  | some (.list items) => (items.mapM Reply.text?).bind ofWords?
  | _ => none

@[simp] theorem ofWords?_words (c : Command) : ofWords? c.words = some c := by
  cases c <;> rfl

/-- The text that a reply without error brings: only a query for a key brings one, and
nothing if the key has none. -/
def text? (c : Command) (reply : Reply) : Except Fault (Option String) :=
  match c, reply with
  | get _, .nil => .ok none
  | get _, reply =>
    match reply.text? with
    | some text => .ok (some text)
    | none => .error (.unsuitable reply)
  | ping, reply => if reply.text?.isSome then .ok none else .error (.unsuitable reply)
  | set _ _, _ => .ok none

/-- What the bytes that came back mean; there are none if the connection was closed. -/
def result (c : Command) : Option (List UInt8) → Except Fault (Option String)
  | none => .error .closed
  | some bytes =>
    match Reply.ofBytes? bytes with
    | none => .error .malformed
    | some reply => if reply.isError then .error (.refused reply) else c.text? reply

end Command
end Redis
end SearchPolling
