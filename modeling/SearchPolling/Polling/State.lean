import SearchPolling.Metrics.Registry
import SearchPolling.Polling.Notice

/-!
# The state of polling

Polling is active or stopped.  While it is active a timer is armed, whose ticks issue
queries; starting issues one at once.  A query belongs to the cycle in which it was
issued.  A reset opens a new cycle, which has no queries outstanding, and arms the
timer anew; what the queries of earlier cycles answer is ignored.

Each function below is one critical section: it maps a state to the next one and to
the effects that the change has on its surroundings, in their order.  Timers are told
apart by a generation, which every disposal of a timer advances; a tick of another
generation than the current one does nothing.
-/

namespace SearchPolling
namespace Polling

open Metrics (Measurement TickOutcome)

/-- The state of polling. -/
structure State where
  record : Record
  /-- The queries of the current cycle that have not been answered. -/
  outstanding : Nat
  /-- Whether a query was outstanding at the last tick. -/
  congested : Bool
  /-- Whether ticks issue no queries. -/
  suppressed : Bool
  /-- The generation of the timer that is armed. -/
  timer : Option UInt64
  generation : UInt64
  cycle : UInt64
  /-- The number of snapshots that have been taken. -/
  snapshots : Nat
  deriving DecidableEq, Repr

/-- The record as it was right after a transition, numbered in the order of the
transitions. -/
structure Snapshot where
  seq : Nat
  record : Record
  deriving DecidableEq, Repr

/-- What a change of the state does to its surroundings. -/
inductive Effect where
  /-- A query is sent on its way. -/
  | issue (origin : Origin) (cycle : UInt64)
  /-- A timer is started; its period is in seconds. -/
  | arm (generation period : UInt64)
  /-- The timer of a generation is stopped. -/
  | disarm (generation : UInt64)
  | measure (m : Measurement)
  | note (n : Notice)
  /-- An event goes to all who subscribe. -/
  | publish (e : Event)

/-- A change: the state after it, and its effects in their order. -/
structure Change where
  state : State
  effects : List Effect

/-- Whether a query that is outstanding makes a tick congested: it always does. -/
def isCongested (pending : Bool) : Bool :=
  pending

namespace Change

/-- One change after another. -/
def andThen (c : Change) (f : State → Change) : Change :=
  let d := f c.state
  ⟨d.state, c.effects ++ d.effects⟩

/-- A change with more effects. -/
def also (c : Change) (effects : List Effect) : Change :=
  ⟨c.state, c.effects ++ effects⟩

end Change

namespace State

/-- The state of a new session. -/
def initial (interval : UInt64) : State where
  record := ⟨false, interval⟩
  outstanding := 0
  congested := false
  suppressed := false
  timer := none
  generation := 0
  cycle := 0
  snapshots := 0

instance : Inhabited State := ⟨initial standardInterval⟩

/-- Whether a query of the current cycle is outstanding. -/
def pending (s : State) : Bool :=
  0 < s.outstanding

/-- What an observer is told. -/
def status (s : State) : Status where
  active := s.record.active
  refreshInterval := s.record.refreshInterval
  pending := s.pending
  congested := s.congested
  suppressed := s.suppressed

/-- Takes the next snapshot. -/
def snapshot (s : State) : Snapshot × State :=
  let seq := s.snapshots + 1
  (⟨seq, s.record⟩, { s with snapshots := seq })

/-- The measurement of the outstanding queries. -/
def measureOutstanding (s : State) : Effect :=
  .measure (.inFlight s.outstanding.toUInt64)

/-- Issues a query in the current cycle. -/
def issue (s : State) (origin : Origin) : Change :=
  let s := { s with outstanding := s.outstanding + 1 }
  ⟨s, [s.measureOutstanding, .issue origin s.cycle]⟩

/-- Stops the timer, if one is armed, and makes all timers obsolete. -/
def disposeTimer (s : State) : Change :=
  ⟨{ s with timer := none, generation := s.generation + 1 },
    match s.timer with
    | some generation => [.disarm generation]
    | none => []⟩

/-- Arms the timer anew; its first tick comes one period later. -/
def armTimer (s : State) : Change :=
  s.disposeTimer.andThen fun s =>
    ⟨{ s with timer := some s.generation }, [.arm s.generation s.record.refreshInterval]⟩

/-- Opens a new cycle. -/
def reset (s : State) : Change :=
  let discarded := s.outstanding
  let s := { s with cycle := s.cycle + 1, outstanding := 0 }
  let told : List Effect := if discarded = 0 then [] else [.note (.discarding discarded)]
  (Change.mk s (told ++ [s.measureOutstanding])).andThen armTimer

/-- Starts polling, unless it is active. -/
def start (s : State) : Change :=
  if s.record.active then ⟨s, []⟩
  else
    (s.issue .eager).andThen fun s =>
      ({ s with record.active := true }.armTimer).also
        [.measure (.active true), .note (.started s.record.refreshInterval)]

/-- Stops polling; queries on their way go on. -/
def stop (s : State) : Change :=
  ({ s with record.active := false }.disposeTimer).also [.measure (.active false)]

/-- Sets whether ticks issue no queries. -/
def suppress (s : State) (suppressed : Bool) : Change :=
  ⟨{ s with suppressed }, []⟩

/-- Opens a new cycle, if polling is active. -/
def dropCycle (s : State) : Change :=
  if s.record.active then s.reset.also [.note .cycleDropped] else ⟨s, []⟩

/-- Sets the interval, in a new cycle if polling is active. -/
def setInterval (s : State) (seconds : UInt64) : Change :=
  let s := { s with record.refreshInterval := seconds }
  if s.record.active then s.reset else ⟨s, []⟩

/-- Takes over the interval of a stored record. -/
def adoptInterval (s : State) (seconds : UInt64) : Change :=
  ⟨{ s with record.refreshInterval := seconds }, []⟩

/-- What becomes of a tick. -/
def tickOutcome (s : State) : TickOutcome :=
  if s.suppressed then .suppressed else if s.congested then .congested else .issued

/-- Acts on a tick of the timer of a generation.  Without a change the tick is
obsolete, and its timer ends. -/
def tick (s : State) (generation : UInt64) : Option Change :=
  if s.generation ≠ generation ∨ s.record.active = false then none
  else
    let wasCongested := s.congested
    let s := { s with congested := isCongested s.pending }
    let outcome := s.tickOutcome
    let c : Change := match outcome with
      | .suppressed => ⟨s, [.note .tickSuppressed]⟩
      | .congested =>
        ⟨s, [.note (if wasCongested then .stillCongested else .congested s.outstanding)]⟩
      | .issued => s.issue .tick
    some (c.also [.measure (.tick outcome), .measure (.congested c.state.congested)])

/-- Whether a query belongs to the current cycle. -/
def isCurrent (s : State) (cycle : UInt64) : Bool :=
  s.cycle = cycle

/-- Takes note that a query has been answered. -/
def retire (s : State) (cycle : UInt64) : Change :=
  if s.isCurrent cycle then
    let s := { s with outstanding := s.outstanding - 1 }
    ⟨s, [s.measureOutstanding]⟩
  else ⟨s, []⟩

end State
end Polling
end SearchPolling
