import SearchPolling.Dictionary

/-!
# The event sink

Events are published to all who subscribe at the time.  The sink holds a fixed
number of the latest events, and each subscriber has a cursor; one who falls behind
further than that is told how many events were lost and goes on with the oldest one
that is held.

Positions count the events that were ever put into the sink.  An event that nobody
subscribes to is not put into it.
-/

namespace SearchPolling
namespace Polling

/-- The events that are held, and who has read how far. -/
structure Sink (κ α : Type) where
  /-- The number of events that are held at most. -/
  slots : Nat
  /-- The number of events that were ever put in. -/
  sent : Nat
  /-- The events that are held, the latest first. -/
  recent : List α
  /-- The position that each subscriber reads next. -/
  cursors : List (κ × Nat)
  deriving Repr

/-- What a subscriber receives. -/
inductive Delivery (α : Type) where
  | event (e : α)
  /-- So many events were lost. -/
  | lagged (count : Nat)
  deriving Repr

/-- The least power of two that is not below a number. -/
def powerOfTwoFrom (n : Nat) : Nat :=
  if n ≤ 1 then 1 else 1 <<< ((n - 1).log2 + 1)

namespace Sink

variable {κ α : Type} [DecidableEq κ]

/-- The greatest capacity that a sink may be given. -/
def greatestCapacity : Nat := (1 <<< 63) - 1

/-- A sink of the given capacity, which is rounded up to a power of two; a capacity
of zero counts as one. -/
def ofCapacity (capacity : Nat) : Sink κ α where
  slots := powerOfTwoFrom (max capacity 1)
  sent := 0
  recent := []
  cursors := []

/-- A sink, if its capacity is one that can be asked for.  That there is memory for its
slots is taken for granted. -/
def ofCapacity? (capacity : Nat) : Option (Sink κ α) :=
  if capacity ≤ greatestCapacity then some (ofCapacity capacity) else none

/-- The number of subscribers. -/
def subscriberCount (s : Sink κ α) : Nat :=
  s.cursors.length

/-- The position that a subscriber reads next. -/
def cursor? (s : Sink κ α) (name : κ) : Option Nat :=
  s.cursors.lookup name

/-- The sink without a subscriber. -/
def unsubscribe (s : Sink κ α) (name : κ) : Sink κ α :=
  { s with cursors := s.cursors.filter fun c => c.1 ≠ name }

/-- The sink with a subscriber who has read all events up to now. -/
def subscribe (s : Sink κ α) (name : κ) : Sink κ α :=
  { s with cursors := (name, s.sent) :: (s.unsubscribe name).cursors }

/-- Publishes an event and tells how many subscribers it reaches. -/
def publish (s : Sink κ α) (e : α) : Nat × Sink κ α :=
  if s.cursors.isEmpty then (0, s)
  else (s.subscriberCount,
    { s with sent := s.sent + 1, recent := (e :: s.recent).take s.slots })

/-- The position of the oldest event that is held. -/
def oldest (s : Sink κ α) : Nat :=
  s.sent - s.recent.length

/-- Moves the cursor of a subscriber. -/
def moveCursor (s : Sink κ α) (name : κ) (position : Nat) : Sink κ α :=
  { s with cursors := s.cursors.map fun c => if c.1 = name then (c.1, position) else c }

/-- What comes next at a position, and the position after it. -/
def next? (s : Sink κ α) (position : Nat) : Option (Delivery α × Nat) :=
  if position < s.oldest then some (.lagged (s.oldest - position), s.oldest)
  else if position < s.sent then
    (s.recent[s.sent - 1 - position]?).map fun e => (.event e, position + 1)
  else none

/-- What comes from a position on, up to a number of entries, and the position after
them. -/
def collect (s : Sink κ α) : Nat → Nat → List (Delivery α) × Nat
  | 0, position => ([], position)
  | n + 1, position =>
    match s.next? position with
    | none => ([], position)
    | some (d, position') =>
      let rest := collect s n position'
      (d :: rest.1, rest.2)

/-- The number of entries that hold everything that is unread at any position. -/
def entryBound (s : Sink κ α) : Nat :=
  s.recent.length + 1

/-- Receives up to a number of entries, or all that there are. -/
def receive (s : Sink κ α) (name : κ) (most : Option Nat) :
    Option (List (Delivery α) × Sink κ α) :=
  (s.cursor? name).map fun position =>
    let bound := match most with
      | some n => min n s.entryBound
      | none => s.entryBound
    let (entries, position') := s.collect bound position
    (entries, s.moveCursor name position')

end Sink
end Polling
end SearchPolling
