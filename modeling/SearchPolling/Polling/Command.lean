import SearchPolling.Polling.State

/-!
# Commands

What an operator may ask of polling.  Carrying out a command is one critical section,
then effects that take place once it is over, and then the record is stored if the
command took a snapshot of it.
-/

namespace SearchPolling
namespace Polling

/-- What an operator may ask. -/
inductive Command where
  | start
  /-- The stop is stored if `persist` is set. -/
  | stop (persist : Bool)
  | setInterval (seconds : UInt64)
  | suppress (suppressed : Bool)
  | dropCycle
  /-- The session ends: polling stops, and will resume in the next session. -/
  | endSession
  deriving DecidableEq, Repr

/-- How a command is carried out. -/
structure Call where
  change : Change
  /-- The effects that take place after the critical section. -/
  afterwards : List Effect
  /-- The snapshot to be stored. -/
  snapshot : Option Snapshot

namespace Call

/-- A call that takes no snapshot. -/
def unstored (c : Change) (afterwards : List Effect) : Call :=
  ⟨c, afterwards, none⟩

/-- A call whose critical section ends with a snapshot. -/
def stored (c : Change) (afterwards : List Effect) : Call :=
  let (snapshot, s) := c.state.snapshot
  ⟨⟨s, c.effects⟩, afterwards, some snapshot⟩

/-- All effects of a call, in their order. -/
def effects (c : Call) : List Effect :=
  c.change.effects ++ c.afterwards

end Call

namespace Command

/-- Starts polling. -/
def callStart (s : State) : Call :=
  .stored s.start []

/-- Stops polling. -/
def callStop (s : State) (persist : Bool) : Call :=
  let told : List Effect := [.note (.stopped persist)]
  if persist then .stored s.stop told else .unstored s.stop told

/-- Sets an interval that can be used. -/
def callSetInterval (s : State) (seconds : UInt64) : Call :=
  .stored (s.setInterval seconds)
    [.measure (.refreshInterval seconds), .note (.intervalSet seconds)]

/-- How a command is carried out; an interval that cannot be used is refused. -/
def call (s : State) : Command → Except InvalidInterval Call
  | start => .ok (callStart s)
  | stop persist => .ok (callStop s persist)
  | setInterval seconds =>
    match checkInterval seconds with
    | .error e => .error e
    | .ok _ => .ok (callSetInterval s seconds)
  | suppress b =>
    .ok (.unstored (s.suppress b) [.measure (.suppressed b), .note (.suppressionSet b)])
  | dropCycle => .ok (.unstored s.dropCycle [])
  | endSession => .ok (if s.record.active then callStop s false else .unstored ⟨s, []⟩ [])

end Command
end Polling
end SearchPolling
