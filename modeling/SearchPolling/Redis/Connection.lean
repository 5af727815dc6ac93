import SearchPolling.Redis.Command

/-!
# Connections

All who use a server share one slot, which holds a connection or is empty.  A call takes
the connection from the slot, or opens one and leaves it in the slot if the slot is
empty.  A call that fails empties the slot, so that the next one opens a connection
again.

Connections are numbered in the order in which they are opened.
-/

namespace SearchPolling
namespace Redis

/-- The slot for a connection. -/
structure Slot where
  cached : Option Nat
  /-- The number of connections that have been opened. -/
  opened : Nat
  deriving DecidableEq, Repr

namespace Slot

/-- The slot before the first call. -/
def initial : Slot :=
  ⟨none, 0⟩

/-- Takes a connection for a call.  If the slot is empty a connection is opened, which
works only if the server can be reached. -/
def take (s : Slot) (reachable : Bool) : Option Nat × Slot :=
  match s.cached with
  | some n => (some n, s)
  | none => if reachable then (some s.opened, ⟨some s.opened, s.opened + 1⟩) else (none, s)

/-- The slot without its connection, whichever that is. -/
def clear (s : Slot) : Slot :=
  { s with cached := none }

/-- The slot behind a call. -/
def settle (s : Slot) (failed : Bool) : Slot :=
  if failed then s.clear else s

@[simp] theorem take_of_cached {s : Slot} {n : Nat} (h : s.cached = some n) (reachable : Bool) :
    s.take reachable = (some n, s) := by
  simp [take, h]

@[simp] theorem settle_false (s : Slot) : s.settle false = s := rfl

@[simp] theorem cached_settle_true (s : Slot) : (s.settle true).cached = none := rfl

end Slot

/-- What lies behind a connection: whether the server can be reached, and the bytes that
it sends back to bytes, unless it closes the connection. -/
structure Network (σ : Type) where
  connect : σ → Bool × σ
  send : List UInt8 → σ → Option (List UInt8) × σ

/-- What came of a call. -/
structure Call where
  /-- The connection on which the command was sent, if it was. -/
  connection : Option Nat
  result : Except Fault (Option String)

namespace Network

variable {σ : Type}

/-- Whether a connection can be had for a call; the server is asked only if the slot is
empty. -/
def reach (net : Network σ) (slot : Slot) (s : σ) : Bool × σ :=
  if slot.cached.isSome then (true, s) else net.connect s

/-- Carries out a command. -/
def call (net : Network σ) (c : Command) (slot : Slot) (s : σ) : Call × Slot × σ :=
  let (reachable, s) := net.reach slot s
  match slot.take reachable with
  | (none, slot) => (⟨none, .error .unreachable⟩, slot, s)
  | (some n, slot) =>
    let (answer, s) := net.send c.encode s
    let result := c.result answer
    (⟨some n, result⟩, slot.settle (!result.isOk), s)

end Network
end Redis
end SearchPolling
