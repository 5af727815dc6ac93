import SearchPolling.Api.Reception
import SearchPolling.Rehearsal.Script

/-!
# The rehearsed world

Sessions, the scripted store and the scripted search service.  Saves may be held back
by a gate with a number of permits; within a session one record is written at a time,
and those who wait for their turn or for a permit get it in the order in which they
asked.

A session lives as long as it has a handle, an operation under way or a query on its
way.  Its timer dies with it.
-/

namespace SearchPolling
namespace Rehearsal

open Polling (Engine Event Snapshot QueryId Flight Surroundings Delivery)

/-- Who receives the events of a session. -/
inductive Subscriber where
  /-- The report of the rehearsal. -/
  | report
  | named (name : String)
  deriving DecidableEq, Repr

/-- A session of polling. -/
structure Session where
  engine : Engine Subscriber
  /-- Whether a record is being written. -/
  writing : Bool
  /-- The operations that wait for their turn to write. -/
  writers : List Nat

/-- What is answered when an operation is over. -/
inductive Reply where
  | status
  /-- The session gets a handle. -/
  | opened
  | http (r : Api.Request)

/-- An operation under way, which is known by the step that began it. -/
structure Operation where
  step : Nat
  session : Nat
  snapshot : Snapshot
  reply : Reply

/-- Something that can go on. -/
inductive Task where
  /-- A query reaches the search service. -/
  | pose (session : Nat) (id : QueryId)
  /-- A query is answered. -/
  | answer (session : Nat) (id : QueryId) (result : SearchResult)
  | tick (session : Nat) (generation : UInt64)
  /-- It is the turn of an operation to write. -/
  | write (step : Nat)
  /-- An operation has got a permit. -/
  | save (step : Nat)

/-- Everything there is. -/
structure World where
  shared : Surroundings
  store : Store.Memory
  failLoad : Bool
  failSave : Bool
  /-- The permits that are left, if saves are held back at all. -/
  gate : Option Nat
  /-- The operations that wait for a permit. -/
  gateQueue : List Nat
  manual : Bool
  replies : List SearchResult
  /-- The queries that wait for an answer, the oldest first. -/
  waiting : List (Nat × QueryId)
  /-- The number of queries that have reached the search service. -/
  reached : Nat
  sessions : List Session
  /-- The session that has a handle. -/
  current : Option Nat
  underWay : List Operation
  ready : List Task
  /-- The session whose events a name receives. -/
  receivers : List (String × Nat)
  requests : List Search.Request
  saves : List Save
  /-- The operations that are over, with their answers. -/
  finished : List (Nat × Answer)

namespace World

/-- A session by its number. -/
def session? (w : World) (n : Nat) : Option Session :=
  w.sessions[n]?

/-- The world with another session in the place of one. -/
def setSession (w : World) (n : Nat) (s : Session) : World :=
  { w with sessions := w.sessions.set n s }

/-- The world with a changed session. -/
def modifySession (w : World) (n : Nat) (f : Session → Session) : World :=
  { w with sessions := w.sessions.modify n f }

/-- The world with a changed engine. -/
def modifyEngine (w : World) (n : Nat) (f : Engine Subscriber → Engine Subscriber) : World :=
  w.modifySession n fun s => { s with engine := f s.engine }

/-- Whether a session lives. -/
def isAlive (w : World) (n : Nat) : Bool :=
  w.current = some n || w.underWay.any (fun o => o.session = n) ||
    (w.session? n).any fun s => !s.engine.flights.isEmpty

/-- The world with more that can go on. -/
def schedule (w : World) (tasks : List Task) : World :=
  { w with ready := w.ready ++ tasks }

/-- Lets an engine do something.  The queries that it issues are put on their way. -/
def onEngine {α : Type} (w : World) (n : Nat) (unknown : α)
    (f : Engine.Placed Subscriber → α × Engine.Placed Subscriber) : α × World :=
  match w.session? n with
  | none => (unknown, w)
  | some s =>
    let (a, p) := f ⟨s.engine, w.shared⟩
    let issued := p.world.issued - w.shared.issued
    let poses := (List.range issued).map fun i =>
      Task.pose n (.ofNat (w.shared.issued + 1 + i))
    (a, ({ w with shared := p.world }.setSession n { s with engine := p.engine }).schedule poses)

/-- Lets an engine do something that gives nothing. -/
def runEngine (w : World) (n : Nat)
    (f : Engine.Placed Subscriber → Engine.Placed Subscriber) : World :=
  (w.onEngine n () fun p => ((), f p)).2

/-- The status of a session. -/
def status? (w : World) (n : Nat) : Option Polling.Status :=
  (w.session? n).map fun s => s.engine.state.status

/-- An operation by its step. -/
def operation? (w : World) (step : Nat) : Option Operation :=
  w.underWay.find? fun o => o.step = step

/-! ## Answers -/

/-- Takes down the answer of a step. -/
def answered (w : World) (step : Nat) (a : Answer) : World :=
  { w with finished := w.finished ++ [(step, a)] }

/-- Answers a request. -/
def respond (w : World) (step : Nat) (r : Api.Request) (response : Api.Response) : World :=
  let (sent, shared) := Api.respond w.shared r response 0
  { w with shared }.answered step (.response sent)

/-- Answers for a session as it is now. -/
def reply (w : World) (step n : Nat) (how : Reply) : World :=
  match w.status? n with
  | none => w
  | some s =>
    match how with
    | .status => w.answered step (.status s)
    | .opened =>
      let w := { w with current := some n }.modifyEngine n fun e =>
        { e with sink := e.sink.subscribe .report }
      w.answered step (.status s)
    | .http r => w.respond step r (.ofStatus s)

/-! ## Writing records -/

/-- Ends an operation. -/
def finish (w : World) (o : Operation) : World :=
  { w with underWay := w.underWay.filter fun p => p.step ≠ o.step }.reply o.step o.session o.reply

/-- Ends a turn to write; the next in line gets it. -/
def release (w : World) (n : Nat) : World :=
  match w.session? n with
  | none => w
  | some s =>
    match s.writers with
    | [] => w.setSession n { s with writing := false }
    | next :: rest => (w.setSession n { s with writers := rest }).schedule [.write next]

/-- What becomes of a save. -/
def saveResult (w : World) : Except Store.Failure Unit :=
  if w.failSave then .error (.unavailable "connection refused") else .ok ()

/-- Saves the record of an operation. -/
def save (w : World) (o : Operation) : World :=
  match w.session? o.session with
  | none => w
  | some s =>
    let key := s.engine.stateKey
    let record := o.snapshot.record
    let result := w.saveResult
    let attempt : Save := ⟨key, record.render, result.isOk⟩
    let w := { w with
      saves := w.saves ++ [attempt]
      store := Polling.storeAfter w.store key record result }
    let w := w.runEngine o.session (Engine.noteSaved · record result)
    (w.release o.session).finish o

/-- Passes the gate, or waits in front of it. -/
def passGate (w : World) (o : Operation) : World :=
  match w.gate with
  | none => w.save o
  | some 0 => { w with gateQueue := w.gateQueue ++ [o.step] }
  | some (permits + 1) => { w with gate := some permits }.save o

/-- Claims the snapshot of an operation and saves it, unless it is stale. -/
def write (w : World) (o : Operation) : World :=
  let (claimed, w) := w.onEngine o.session false (Engine.claim · o.snapshot)
  if claimed then w.passGate o else (w.release o.session).finish o

/-- Begins to store a snapshot, or waits for its turn. -/
def beginWrite (w : World) (o : Operation) : World :=
  match w.session? o.session with
  | none => w
  | some s =>
    let w := { w with underWay := w.underWay ++ [o] }
    if s.writing then w.setSession o.session { s with writers := s.writers ++ [o.step] }
    else (w.setSession o.session { s with writing := true }).write o

/-- Goes on with a snapshot, if there is one, and answers. -/
def conclude (w : World) (step n : Nat) (how : Reply) : Option Snapshot → World
  | none => w.reply step n how
  | some snapshot => w.beginWrite ⟨step, n, snapshot, how⟩

/-! ## Tasks -/

/-- The flight of a query. -/
def flight? (w : World) (n : Nat) (id : QueryId) : Option Flight :=
  (w.session? n).bind fun s => s.engine.flights.find? fun f => f.id = id

/-- Answers a query. -/
def answerQuery (w : World) (n : Nat) (id : QueryId) (result : SearchResult) : World :=
  match w.flight? n id with
  | none => w
  | some f => w.runEngine n (Engine.answer · f result)

/-- Puts a query to the search service, which answers at once unless it is told when. -/
def poseQuery (w : World) (n : Nat) (id : QueryId) : World :=
  match w.flight? n id with
  | none => w
  | some f =>
    let w := { w with requests := w.requests ++ [f.request], reached := w.reached + 1 }
    if w.manual then { w with waiting := w.waiting ++ [(n, id)] }
    else
      match w.replies with
      | [] => w.answerQuery n id (.ok .empty)
      | r :: rest => { w with replies := rest }.answerQuery n id r

/-- Whether the timer of a generation is armed in a living session. -/
def isArmed (w : World) (n : Nat) (generation : UInt64) : Bool :=
  w.isAlive n && (w.session? n).any fun s =>
    s.engine.timers.any fun t => t.generation = generation

/-- Lets a task go on. -/
def runTask (w : World) : Task → World
  | .pose n id => w.poseQuery n id
  | .answer n id result => w.answerQuery n id result
  | .tick n generation =>
    if w.isArmed n generation then w.runEngine n (Engine.tick · generation) else w
  | .write step =>
    match w.operation? step with
    | none => w
    | some o => w.write o
  | .save step =>
    match w.operation? step with
    | none => w
    | some o => w.save o

/-- Lets everything go on that can, in turn, for at most so many tasks. -/
def settleWithin : Nat → World → World
  | 0, w => w
  | n + 1, w =>
    match w.ready with
    | [] => w
    | t :: rest => settleWithin n ({ w with ready := rest }.runTask t)

/-- A number of tasks that suffices: a task brings about one more at most, a tick a
query and the end of a turn to write the next one. -/
def taskBound (w : World) : Nat :=
  2 * w.ready.length + w.underWay.length

/-- Lets everything go on until all that is left has to wait. -/
def settle (w : World) : World :=
  settleWithin w.taskBound w

end World
end Rehearsal
end SearchPolling
