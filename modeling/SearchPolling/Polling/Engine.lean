import SearchPolling.Polling.Command
import SearchPolling.Polling.Persistence
import SearchPolling.Polling.Sink
import SearchPolling.Polling.Timer
import SearchPolling.Search.Descriptor

/-!
# The polling engine

An engine is the state of polling together with what it set going: the timers that
were armed, the queries on their way and the events that subscribers have yet to
receive.  Engines share their surroundings: the clock, the search descriptor, the
metrics and the notices.

A query carries the descriptor's request as it was when the query was issued.  Whether
the answer counts is decided in a critical section of its own; the event is published
after it.
-/

namespace SearchPolling
namespace Polling

/-- A query on its way. -/
structure Flight where
  /-- Queries are numbered in the order in which they are issued, from one on. -/
  number : Nat
  origin : Origin
  cycle : UInt64
  request : Search.Request
  /-- When the query was put to the search service. -/
  posed : Nat

/-- The identifier of a query on its way. -/
def Flight.id (f : Flight) : QueryId :=
  .ofNat f.number

/-- What all engines share. -/
structure Surroundings where
  /-- The time in milliseconds. -/
  now : Nat
  descriptor : Search.Descriptor
  registry : Metrics.Registry
  /-- What the operator has been told, the latest first. -/
  notices : List Notice
  /-- The number of queries that have been issued. -/
  issued : Nat

/-- A session of polling. -/
structure Engine (κ : Type) where
  state : State
  /-- The key under which the record is stored. -/
  stateKey : String
  /-- Whether what happens is measured. -/
  measured : Bool
  sink : Sink κ Event
  writer : Writer
  timers : List Timer
  flights : List Flight

namespace Surroundings

/-- The surroundings with one more notice. -/
def say (w : Surroundings) (n : Notice) : Surroundings :=
  { w with notices := n :: w.notices }

/-- The surroundings with one more measurement. -/
def measure (w : Surroundings) (m : Metrics.Measurement) : Surroundings :=
  { w with registry := w.registry.record m }

/-- The next query, as it is issued now. -/
def nextFlight (w : Surroundings) (origin : Origin) (cycle : UInt64) : Flight :=
  ⟨w.issued + 1, origin, cycle, w.descriptor.request, w.now⟩

/-- The surroundings in which one more query has been issued. -/
def sendOff (w : Surroundings) (f : Flight) : Surroundings :=
  { w with issued := w.issued + 1 }.say (.issuing f.origin f.id)

end Surroundings

namespace Engine

variable {κ : Type} [DecidableEq κ]

/-- An engine in its surroundings. -/
structure Placed (κ : Type) where
  engine : Engine κ
  world : Surroundings

/-- Publishes an event. -/
def publish (p : Placed κ) (e : Event) : Placed κ :=
  let (reached, sink) := p.engine.sink.publish e
  ⟨{ p.engine with sink }, if reached = 0 then p.world.say .unheard else p.world⟩

/-- Lets an effect take place. -/
def perform (p : Placed κ) : Effect → Placed κ
  | .issue origin cycle =>
    let flight := p.world.nextFlight origin cycle
    ⟨{ p.engine with flights := p.engine.flights ++ [flight] }, p.world.sendOff flight⟩
  | .arm generation period =>
    ⟨{ p.engine with timers := p.engine.timers ++ [.armed generation period p.world.now] },
      p.world⟩
  | .disarm generation =>
    ⟨{ p.engine with timers := p.engine.timers.filter fun t => t.generation ≠ generation },
      p.world⟩
  | .measure m => if p.engine.measured then ⟨p.engine, p.world.measure m⟩ else p
  | .note n => ⟨p.engine, p.world.say n⟩
  | .publish e => publish p e

/-- Lets effects take place in their order. -/
def performAll (p : Placed κ) (effects : List Effect) : Placed κ :=
  effects.foldl perform p

/-- Carries out a change. -/
def carryOut (p : Placed κ) (c : Change) : Placed κ :=
  performAll ⟨{ p.engine with state := c.state }, p.world⟩ c.effects

/-- Opens a session. -/
def opening (stateKey : String) (interval : UInt64) (capacity : Nat) (measured : Bool)
    (w : Surroundings) : Placed κ :=
  let c := State.opening interval
  carryOut ⟨{
    state := c.state, stateKey, measured
    sink := .ofCapacity capacity
    writer := .initial
    timers := []
    flights := [] }, w⟩ c

/-- Carries out a command.  Gives the snapshot to be stored, if there is one. -/
def command (p : Placed κ) (c : Command) : Except InvalidInterval (Option Snapshot) × Placed κ :=
  match c.call p.engine.state with
  | .error e => (.error e, ⟨p.engine, p.world.say (.intervalRejected e)⟩)
  | .ok call => (.ok call.snapshot, performAll (carryOut p call.change) call.afterwards)

/-- Takes over what was found in the store, without starting. -/
def adopt (p : Placed κ) (found : Restored) : Placed κ :=
  let p := performAll p found.effects
  match found.record? with
  | none => p
  | some record => carryOut p (p.engine.state.adopt record)

/-- Takes over what was found in the store.  Gives the snapshot to be stored if polling
was started. -/
def restore (p : Placed κ) (found : Restored) : Option Snapshot × Placed κ :=
  let p := adopt p found
  if found.isActive then
    let call := Command.callStart p.engine.state
    (call.snapshot, performAll (carryOut p call.change) call.afterwards)
  else (none, p)

/-- The engine whose timer of a generation has been acted on. -/
def wind (e : Engine κ) (generation : UInt64) (now : Nat) : Engine κ :=
  { e with timers := e.timers.map fun t => if t.generation = generation then t.acted now else t }

/-- Acts on a tick of the timer of a generation, which is due next as it should be or,
if it is obsolete, ends. -/
def tick (p : Placed κ) (generation : UInt64) : Placed κ :=
  match p.engine.state.tick generation with
  | none => performAll p [.disarm generation]
  | some c => carryOut ⟨p.engine.wind generation p.world.now, p.world⟩ c

/-- The notice of an answer that counts. -/
def answerNotice (id : QueryId) (elapsed : Nat) :
    Except Search.Failure Search.Response → Notice
  | .ok r => .returned id r.total elapsed
  | .error e => .failed id elapsed e.message

/-- The event of an answer that counts. -/
def answerEvent (f : Flight) (now : Nat) (result : Except Search.Failure Search.Response) :
    Event where
  id := f.id
  origin := f.origin
  completedAt := .ofMillis now
  elapsedMs := (now - f.posed).toUInt64
  outcome := .ofSearch result

/-- What takes place after it has been decided that an answer counts. -/
def countedEffects (f : Flight) (now : Nat) (result : Except Search.Failure Search.Response) :
    List Effect :=
  let elapsed := now - f.posed
  [.note (answerNotice f.id elapsed result),
    .measure (.queryCompleted f.origin result.isOk (elapsed * 1000000)),
    .publish (answerEvent f now result)]

/-- What takes place after it has been decided that an answer is ignored. -/
def ignoredEffects (f : Flight) : List Effect :=
  [.note (.discarded f.id), .measure (.queryDiscarded f.origin)]

/-- What takes place after it has been decided whether an answer counts. -/
def answerEffects (counts : Bool) (f : Flight) (now : Nat)
    (result : Except Search.Failure Search.Response) : List Effect :=
  if counts then countedEffects f now result else ignoredEffects f

/-- The engine whose query is no longer on its way. -/
def land (e : Engine κ) (f : Flight) : Engine κ :=
  { e with flights := e.flights.filter fun g => g.number ≠ f.number }

/-- Decides about the answer to a query on its way. -/
def retire (p : Placed κ) (f : Flight) : Placed κ :=
  carryOut ⟨p.engine.land f, p.world⟩ (p.engine.state.retire f.cycle)

/-- Takes in the answer to a query on its way. -/
def answer (p : Placed κ) (f : Flight) (result : Except Search.Failure Search.Response) :
    Placed κ :=
  performAll (retire p f)
    (answerEffects (p.engine.state.isCurrent f.cycle) f p.world.now result)

/-- Claims a snapshot for writing, unless it is stale, which is told. -/
def claim (p : Placed κ) (snapshot : Snapshot) : Bool × Placed κ :=
  match p.engine.writer.claim? snapshot with
  | none => (false, performAll p (skippedEffects snapshot))
  | some writer => (true, ⟨{ p.engine with writer }, p.world⟩)

/-- Takes note of an attempt to save a record. -/
def noteSaved (p : Placed κ) (record : Record) (result : Except Store.Failure Unit) : Placed κ :=
  performAll p (savedEffects record result)

end Engine
end Polling
end SearchPolling
