import SearchPolling.Polling.Notice
import SearchPolling.Redis.Address
import SearchPolling.Redis.Connection

/-!
# The state store

The service keeps its state on a server.  If the server does not answer at the start
that is no obstacle: a call that fails is only one that fails.  If the address cannot be
used at all, the state is kept in memory.
-/

namespace SearchPolling
namespace Redis

/-- What an operator is told at the start. -/
inductive Notice where
  | addressUnusable
  | connected
  | unavailable
  deriving DecidableEq, Repr

namespace Notice

/-- How important a notice is. -/
def level : Notice → Polling.Level
  | addressUnusable => .warn
  | connected => .info
  | unavailable => .warn

/-- The text of a notice, up to a reason. -/
def message : Notice → String
  | addressUnusable => "Invalid REDIS_URL, polling state will not persist"
  | connected => "Connected to Redis"
  | unavailable => "Redis unavailable at startup, will retry on next save"

def line (n : Notice) : String :=
  n.level.name ++ " " ++ n.message

end Notice

/-- Where state is kept. -/
inductive StateStore where
  | server (address : Address) (slot : Slot)
  | memory (memory : Store.Memory)

/-- What the call of a state store gives. -/
structure StateStore.Outcome (σ α : Type) where
  result : Except Store.Failure α
  store : StateStore
  network : σ

namespace StateStore

variable {σ : Type}

/-- The store on the server at an address, before the first call. -/
def ofAddress (a : Address) : StateStore :=
  .server a .initial

/-- The store that the service uses for an address, and what the operator is told. -/
def start (net : Address → Network σ) (url : String) (s : σ) :
    StateStore × List Notice × σ :=
  match Address.ofString? url with
  | none => (.memory .empty, [.addressUnusable], s)
  | some a =>
    let (call, slot, s) := (net a).call .ping .initial s
    (.server a slot, [if call.result.isOk then .connected else .unavailable], s)

/-- The number of connections that have been opened. -/
def opened : StateStore → Nat
  | server _ slot => slot.opened
  | memory _ => 0

/-- Carries out a command on a server, or the same without one. -/
def call (net : Address → Network σ) (c : Command) (store : StateStore) (s : σ) :
    Outcome σ (Option String) :=
  match store with
  | server a slot =>
    let (call, slot, s) := (net a).call c slot s
    ⟨call.result.mapError fun f => .redis f.message, .server a slot, s⟩
  | memory m =>
    match c with
    | .ping => ⟨.ok none, .memory m, s⟩
    | .get key => ⟨.ok (m.load key), .memory m, s⟩
    | .set key value => ⟨.ok none, .memory (m.save key value), s⟩

/-- Loads the text under a key. -/
def load (net : Address → Network σ) (key : String) (store : StateStore) (s : σ) :
    Outcome σ (Option String) :=
  store.call net (.get key) s

/-- Saves a text under a key. -/
def save (net : Address → Network σ) (key value : String) (store : StateStore) (s : σ) :
    Outcome σ Unit :=
  let o := store.call net (.set key value) s
  ⟨o.result.map fun _ => (), o.store, o.network⟩

end StateStore
end Redis
end SearchPolling
