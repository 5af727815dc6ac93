import SearchPolling.Rehearsal.World

/-!
# Running a script

A step is begun, then everything goes on until it has to wait, and then the report is
written.  A step that needs a session is refused while there is no handle.
-/

namespace SearchPolling
namespace Rehearsal

open Polling (Engine Event Delivery Timer Surroundings Restored)

namespace World

/-- The world before the first session. -/
def opening (s : Script) : World where
  shared := {
    now := 0
    descriptor := ⟨s.request⟩
    registry := .fresh
    notices := []
    issued := 0 }
  store := s.store
  failLoad := s.failLoad
  failSave := s.failSave
  gate := s.gate
  gateQueue := []
  manual := s.manual
  replies := s.replies
  waiting := []
  reached := 0
  sessions := []
  current := none
  underWay := []
  ready := []
  receivers := []
  requests := []
  saves := []
  finished := []

/-- What the store has under a key. -/
def load (w : World) (key : String) : Except Store.Failure (Option String) :=
  if w.failLoad then .error (.unavailable "connection refused") else .ok (w.store.load key)

/-- Opens a session, which gets its handle once the record it found is stored again. -/
def launch (w : World) (step : Nat) (o : Options) : World :=
  let n := w.sessions.length
  let p : Engine.Placed Subscriber :=
    Engine.opening o.stateKey o.defaultInterval o.resultBuffer o.measured w.shared
  let w := { w with
    shared := p.world
    sessions := w.sessions ++ [Session.mk p.engine false []] }
  let found := Restored.ofLoad (w.load o.stateKey)
  let (snapshot, w) := w.onEngine n none (Engine.restore · found)
  w.conclude step n .opened snapshot

/-- Carries out a command in a session and answers. -/
def command (w : World) (step n : Nat) (c : Polling.Command) : World :=
  let (result, w) := w.onEngine n (.ok none) (Engine.command · c)
  match result with
  | .ok snapshot => w.conclude step n .status snapshot
  | .error e => w.answered step (.refused e)

/-- Answers a request to the control interface of a session. -/
def http (w : World) (step n : Nat) (r : Api.Request) : World :=
  if r.isPreflight then w.answered step (.response (.preflight r))
  else
    let (reception, w) := w.onEngine n (.answered (.empty 500)) (Api.receive · r)
    match reception with
    | .answered response => w.respond step r response
    | .storing snapshot => w.conclude step n (.http r) (some snapshot)

/-- The timers that are due, with their sessions. -/
def dueTimers (w : World) : List (Nat × Timer) :=
  let all := w.sessions.zipIdx.flatMap fun (s, n) =>
    if w.isAlive n then s.engine.timers.map fun t => (n, t) else []
  (all.filter fun (_, t) => t.isDue w.shared.now).mergeSort fun a b => a.2.due ≤ b.2.due

/-- Lets the clock jump. -/
def advance (w : World) (milliseconds : Nat) : World :=
  let w := { w with shared := { w.shared with now := w.shared.now + milliseconds } }
  w.schedule (w.dueTimers.map fun (n, t) => .tick n t.generation)

/-- Answers waiting queries, each taken from the given place. -/
def complete (w : World) (result : SearchResult) (place : Nat) : Nat → List Bool × World
  | 0 => ([], w)
  | count + 1 =>
    match w.waiting[place]? with
    | none =>
      let (flags, w) := complete w result place count
      (false :: flags, w)
    | some (n, id) =>
      let w := { w with waiting := w.waiting.eraseIdx place }.schedule [.answer n id result]
      let (flags, w) := complete w result place count
      (true :: flags, w)

/-- Grants permits, to those who wait for one first. -/
def grant (w : World) (writes : Nat) : World :=
  match w.gate with
  | none => w
  | some permits =>
    let served := w.gateQueue.take writes
    { w with
      gateQueue := w.gateQueue.drop writes
      gate := some (permits + (writes - served.length)) }.schedule (served.map .save)

/-- Ends what a name receives. -/
def unsubscribe (w : World) (name : String) : World :=
  match w.receivers.lookup name with
  | none => w
  | some n =>
    { w with receivers := w.receivers.filter fun r => r.1 ≠ name }.modifyEngine n fun e =>
      { e with sink := e.sink.unsubscribe (.named name) }

/-- Lets a name receive the events of a session from now on. -/
def subscribe (w : World) (n : Nat) (name : String) : World :=
  let w := w.unsubscribe name
  { w with receivers := (name, n) :: w.receivers }.modifyEngine n fun e =>
    { e with sink := e.sink.subscribe (.named name) }

/-- What a subscriber of a session receives. -/
def receiveFrom (w : World) (n : Nat) (who : Subscriber) (most : Option Nat) :
    List (Delivery Event) × World :=
  match w.session? n with
  | none => ([], w)
  | some s =>
    match s.engine.sink.receive who most with
    | none => ([], w)
    | some (entries, sink) =>
      (entries, w.setSession n { s with engine := { s.engine with sink } })

/-- What a name receives, and whether it has received all that its session, which lives
no more, will ever publish. -/
def receive (w : World) (name : String) (most : Option Nat) : Answer × World :=
  match w.receivers.lookup name with
  | none => (.noSubscriber, w)
  | some n =>
    let (entries, w) := w.receiveFrom n (.named name) most
    let more := match most with
      | some m => decide (entries.length < m)
      | none => true
    (.deliveries entries (more && !w.isAlive n), w)

/-- Begins a step that needs a session. -/
def beginIn (w : World) (step n : Nat) : Step → World
  | .command c => w.command step n c
  | .getters =>
    match w.status? n with
    | some s => w.answered step (.getters s)
    | none => w
  | .subscribe name => (w.subscribe n name).answered step .nothing
  | .http r => w.http step n r
  | _ => w

/-- Begins a step. -/
def begin (w : World) (step : Nat) : Step → World
  | .advance ms => (w.advance ms).answered step .nothing
  | .complete result count place =>
    let (flags, w) := w.complete result place count
    w.answered step (.flags flags)
  | .setManual manual => { w with manual }.answered step .nothing
  | .failLoad failLoad => { w with failLoad }.answered step .nothing
  | .failSave failSave => { w with failSave }.answered step .nothing
  | .grant writes => (w.grant writes).answered step .nothing
  | .putRecord key value => { w with store := w.store.save key value }.answered step .nothing
  | .record key => w.answered step (.text (w.store.load key))
  | .setQuery query =>
    let descriptor := w.shared.descriptor.apply (.query query)
    { w with shared := { w.shared with descriptor } }.answered step .nothing
  | .setRequest text =>
    match Search.Request.decoder.ofString text with
    | .error f => w.answered step (.fault f)
    | .ok r =>
      let descriptor := w.shared.descriptor.apply (.request r)
      { w with shared := { w.shared with descriptor } }.answered step .nothing
  | .getRequest => w.answered step (.request w.shared.descriptor.request)
  | .unsubscribe name => (w.unsubscribe name).answered step .nothing
  | .receive name most =>
    let (a, w) := w.receive name most
    w.answered step a
  | .drop => { w with current := none }.answered step .nothing
  | .launch o => { w with current := none }.launch step o
  | .metrics => w.answered step (.metrics w.shared.registry.exportLines)
  | s =>
    match w.current with
    | none => w.answered step .noSession
    | some n => w.beginIn step n s

/-- What was published since the last report, by session. -/
def collectEvents (w : World) : List Nat → List (Nat × Delivery Event) × World
  | [] => ([], w)
  | n :: rest =>
    let (entries, w) := w.receiveFrom n .report none
    let (more, w) := w.collectEvents rest
    (entries.map (fun e => (n + 1, e)) ++ more, w)

/-- Writes the report of a step, and begins a new page. -/
def report (w : World) (step : Nat) : Report × World :=
  let (events, w) := w.collectEvents (List.range w.sessions.length)
  let earlier := w.finished.filter fun (k, _) => k ≠ step
  ({ answer := (w.finished.lookup step).getD .blocked
     unblocked := earlier.mergeSort fun a b => a.1 ≤ b.1
     status := w.current.bind w.status?
     issued := w.reached
     waiting := w.waiting.length
     requests := w.requests
     saves := w.saves
     events
     notices := w.shared.notices.reverse },
   { w with
     shared := { w.shared with notices := [] }
     requests := []
     saves := []
     finished := [] })

/-- Runs steps, which are counted from `k`. -/
def runSteps (w : World) (k : Nat) : List Step → List Report
  | [] => []
  | s :: rest =>
    let (r, w) := (w.begin k s).settle.report k
    r :: w.runSteps (k + 1) rest

end World

/-- Runs a script: the report of the opening of the first session, then one for each
step. -/
def Script.run (s : Script) : List Report :=
  (World.opening s).runSteps 0 (.launch s.options :: s.steps)

end Rehearsal
end SearchPolling
