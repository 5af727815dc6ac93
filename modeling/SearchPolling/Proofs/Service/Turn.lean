import SearchPolling.Proofs.Service.Effects

/-!
# What a step may do to queries and timers

Most of what happens to a service leaves its queries and timers alone.  What decides
about them is a small part of the service, its view, and there are six ways in which a
step may turn the view: not at all, by a tick that issues a query, by a start, by a
stop, by a reset, and by an answer.  `Service.turn` says which one an action takes and
what it leaves behind in the records of the run; the invariants of queries and timers
are derived from it alone.

A tick of an obsolete timer does not count among the six.  It ends the loop of every
timer of its generation, which changes nothing once it is known that the only loop that
goes on is that of the timer which is armed.
-/

namespace SearchPolling
namespace Polling

/-- What decides about queries and timers. -/
structure View where
  active : Bool
  outstanding : Nat
  cycle : UInt64
  timer : Option UInt64
  generation : UInt64
  flights : List Flight
  issued : Nat
  /-- The generations of the timers whose loops go on. -/
  running : List UInt64

namespace View

def issue (v : View) (f : Flight) : View :=
  { v with
    outstanding := v.outstanding + 1
    flights := v.flights ++ [f]
    issued := v.issued + 1 }

/-- The timer, if there is one, is stopped. -/
def dispose (v : View) : View :=
  { v with
    timer := none
    generation := v.generation + 1
    running := v.running.filter (some · ≠ v.timer) }

def arm (v : View) : View :=
  { v.dispose with
    timer := some v.dispose.generation
    running := v.dispose.running ++ [v.dispose.generation] }

def land (v : View) (f : Flight) : View :=
  { v with
    outstanding := if v.cycle = f.cycle then v.outstanding - 1 else v.outstanding
    flights := v.flights.filter (·.number ≠ f.number) }

/-- Effects with a footprint take place in given surroundings. -/
def leave (v : View) (w : Surroundings) (p : Footprint) : View :=
  { v with
    flights := v.flights ++ w.nextFlights p.issues
    issued := v.issued + p.issues.length
    running := p.running v.running }

theorem leave_of_no_issue (v : View) (w : Surroundings) (armed : List UInt64)
    (running : List UInt64 → List UInt64) :
    v.leave w ⟨[], armed, running⟩ = { v with running := running v.running } := by
  simp [leave]

@[simp] theorem leave_none (v : View) (w : Surroundings) : v.leave w .none = v :=
  v.leave_of_no_issue w [] id

end View

/-- What a step leaves behind in the records of a run. -/
structure Marks where
  /-- The queries that are issued. -/
  issued : List Flight := []
  /-- The queries that are answered. -/
  landed : List Flight := []
  /-- The generations of the timers that are armed. -/
  armed : List UInt64 := []
  /-- Whether a new cycle is opened. -/
  resets : Bool := false
  /-- Whether the timer is disposed of. -/
  disposes : Bool := false

namespace Command

/-- Whether a command opens a new cycle: the cycle is dropped, or an interval is
accepted, while polling is active. -/
def resets (s : State) : Command → Bool
  | .dropCycle => s.record.active
  | .setInterval seconds => s.record.active && (checkInterval seconds).isOk
  | _ => false

def disposes (s : State) : Command → Bool
  | .start => !s.record.active
  | .stop _ => true
  | .endSession => s.record.active
  | c => c.resets s

end Command

namespace Service

variable {κ : Type}

def viewOf (p : Engine.Placed κ) : View where
  active := p.engine.state.record.active
  outstanding := p.engine.state.outstanding
  cycle := p.engine.state.cycle
  timer := p.engine.state.timer
  generation := p.engine.state.generation
  flights := p.engine.flights
  issued := p.world.issued
  running := p.engine.timers.map (·.generation)

abbrev view (s : Service κ) : View :=
  viewOf s.placed

def resets (s : Service κ) : Action κ → Bool
  | .command c => c.resets s.state
  | _ => false

def disposes (s : Service κ) : Action κ → Bool
  | .command c => c.disposes s.state
  | _ => false

def landed (s : Service κ) : Action κ → List Flight
  | .answer place _ => s.flights[place]?.toList
  | _ => []

def marks (s : Service κ) (a : Action κ) : Marks where
  issued := s.world.nextFlights (Footprint.of (s.effects a)).issues
  landed := s.landed a
  armed := (Footprint.of (s.effects a)).armed
  resets := s.resets a
  disposes := s.disposes a

/-- The next query, as the service would issue it. -/
def next (s : Service κ) (origin : Origin) : Flight :=
  s.world.nextFlight origin s.state.cycle

theorem viewOf_performAll (p : Engine.Placed κ) (es : List Effect) :
    viewOf (Engine.performAll p es) = (viewOf p).leave p.world (.of es) := by
  simp only [viewOf, View.leave, Footprint.of, Engine.performAll_state,
    Engine.performAll_flights, Engine.performAll_timers]

variable [DecidableEq κ]

/-- The ways in which a step may turn the view. -/
inductive Turn (s : Service κ) (a : Action κ) : Prop
  | quiet (hview : (s.step a).view = s.view) (hmarks : s.marks a = {})
  | obsolete (generation : UInt64) (haction : a = .tick generation)
      (hobsolete : s.state.generation ≠ generation ∨ s.state.record.active = false)
      (hview : (s.step a).view =
        { s.view with running := s.view.running.filter (· ≠ generation) })
      (hmarks : s.marks a = {})
  | ticked (haction : a = .tick s.state.generation) (hactive : s.state.record.active = true)
      (hview : (s.step a).view = s.view.issue (s.next .tick))
      (hmarks : s.marks a = { issued := [s.next .tick] })
  | started (haction : a = .command .start) (hstopped : s.state.record.active = false)
      (hview : (s.step a).view =
        ({ s.view with active := true }.issue (s.next .eager)).arm)
      (hmarks : s.marks a =
        { issued := [s.next .eager], armed := [s.state.generation + 1], disposes := true })
  | stopped
      (hview : (s.step a).view = { s.view with active := false }.dispose)
      (hmarks : s.marks a = { disposes := true })
  | reset (hactive : s.state.record.active = true)
      (hview : (s.step a).view =
        { s.view with cycle := s.view.cycle + 1, outstanding := 0 }.arm)
      (hmarks : s.marks a =
        { armed := [s.state.generation + 1], resets := true, disposes := true })
  | answered (f : Flight) (hf : f ∈ s.flights)
      (hview : (s.step a).view = s.view.land f)
      (hmarks : s.marks a = { landed := [f] })

/-- The view after a step, read off the step's silent change and its effects. -/
theorem view_step (s : Service κ) (a : Action κ) :
    (s.step a).view =
      (viewOf (s.base a)).leave (s.base a).world (.of (s.effects a)) := by
  rw [view, step_placed, viewOf_performAll]

end Service

/-! ## The footprints of the state's changes -/

namespace State

theorem footprint_disposeTimer (s : State) :
    Footprint.of s.disposeTimer.effects = ⟨[], [], (·.filter (some · ≠ s.timer))⟩ := by
  cases h : s.timer with
  | none =>
      have hall (generations : List UInt64) :
          generations.filter (some · ≠ (none : Option UInt64)) = generations :=
        List.filter_eq_self.mpr (by simp)
      simp only [disposeTimer, h, hall]
      rfl
  | some generation =>
      simp only [disposeTimer, h, Footprint.of_disarm, Option.some.injEq, ne_eq]

theorem footprint_armTimer (s : State) :
    Footprint.of s.armTimer.effects =
      ⟨[], [s.generation + 1],
        fun generations => generations.filter (some · ≠ s.timer) ++ [s.generation + 1]⟩ := by
  have happend : s.armTimer.effects =
      s.disposeTimer.effects ++ [.arm (s.generation + 1) s.record.refreshInterval] := rfl
  rw [happend, Footprint.of_append, footprint_disposeTimer, Footprint.of_arm]
  rfl

theorem footprint_reset (s : State) :
    Footprint.of s.reset.effects = Footprint.of s.armTimer.effects := by
  simp only [reset, Change.andThen, measureOutstanding, Footprint.of_append,
    footprint_armTimer]
  split <;> simp

theorem footprint_start (s : State) (h : s.record.active = false) :
    Footprint.of s.start.effects =
      ⟨[(.eager, s.cycle)], [s.generation + 1],
        fun generations => generations.filter (some · ≠ s.timer) ++ [s.generation + 1]⟩ := by
  have happend : s.start.effects =
      (s.issue .eager).effects ++
        ({ (s.issue .eager).state with record.active := true }.armTimer.effects ++
          [.measure (.active true), .note (.started s.record.refreshInterval)]) := by
    simp only [start, h]
    rfl
  rw [happend, Footprint.of_append, Footprint.of_append, footprint_armTimer]
  rfl

theorem footprint_stop (s : State) :
    Footprint.of s.stop.effects = Footprint.of s.disposeTimer.effects := by
  have happend : s.stop.effects = s.disposeTimer.effects ++ [.measure (.active false)] := rfl
  rw [happend, Footprint.of_append, Footprint.of_measure, Footprint.of_nil,
    Footprint.andThen_none]

theorem footprint_retire (s : State) (cycle : UInt64) :
    Footprint.of (s.retire cycle).effects = .none := by
  simp only [retire]
  split <;> rfl

end State

theorem Call.footprint_stored (c : Change) (afterwards : List Effect)
    (h : Footprint.of afterwards = .none) :
    Footprint.of (Call.stored c afterwards).effects = Footprint.of c.effects := by
  have happend : (Call.stored c afterwards).effects = c.effects ++ afterwards := rfl
  rw [happend, Footprint.of_append, h, Footprint.andThen_none]

theorem Call.footprint_unstored (c : Change) (afterwards : List Effect)
    (h : Footprint.of afterwards = .none) :
    Footprint.of (Call.unstored c afterwards).effects = Footprint.of c.effects := by
  have happend : (Call.unstored c afterwards).effects = c.effects ++ afterwards := rfl
  rw [happend, Footprint.of_append, h, Footprint.andThen_none]

namespace Service

variable {κ : Type} [DecidableEq κ]

/-! ## Each action takes one of the six ways -/

omit [DecidableEq κ] in
theorem marks_obey {s : Service κ} {c : Command} {call : Call} (h : c.call s.state = .ok call) :
    s.marks (.command c) =
      { issued := s.world.nextFlights (Footprint.of call.effects).issues
        armed := (Footprint.of call.effects).armed
        resets := c.resets s.state
        disposes := c.disposes s.state } := by
  simp only [marks, effects, h]
  rfl

theorem view_obey {s : Service κ} {c : Command} {call : Call} (h : c.call s.state = .ok call) :
    (s.step (.command c)).view =
      (viewOf { s.placed with engine.state := call.change.state }).leave s.world
        (.of call.effects) := by
  rw [view_step]
  simp only [base, effects, h]

/-- A command whose change and effects leave queries and timers alone turns nothing. -/
theorem turn_quiet_command {s : Service κ} {c : Command} {call : Call}
    (h : c.call s.state = .ok call) (hfoot : Footprint.of call.effects = .none)
    (hstate : viewOf { s.placed with engine.state := call.change.state } = s.view)
    (hresets : c.resets s.state = false) (hdisposes : c.disposes s.state = false) :
    Turn s (.command c) := by
  refine .quiet ?_ ?_
  · rw [view_obey h, hfoot, View.leave_none, hstate]
  · rw [marks_obey h, hfoot, hresets, hdisposes]
    rfl

/-- A command that opens a new cycle turns the view by a reset. -/
theorem turn_reset_command {s : Service κ} {c : Command} {call : Call}
    (h : c.call s.state = .ok call) (hactive : s.state.record.active = true)
    (hfoot : Footprint.of call.effects = Footprint.of s.state.armTimer.effects)
    (hstate : viewOf { s.placed with engine.state := call.change.state } =
      { s.view with
        cycle := s.view.cycle + 1
        outstanding := 0
        timer := some (s.view.generation + 1)
        generation := s.view.generation + 1 })
    (hresets : c.resets s.state = true) (hdisposes : c.disposes s.state = true) :
    Turn s (.command c) := by
  refine .reset hactive ?_ ?_
  · rw [view_obey h, hfoot, State.footprint_armTimer, View.leave_of_no_issue, hstate]
    rfl
  · rw [marks_obey h, hfoot, State.footprint_armTimer, hresets, hdisposes]
    rfl

theorem turn_start (s : Service κ) : Turn s (.command .start) := by
  have hcall : Command.call s.state .start = .ok (Command.callStart s.state) := rfl
  have hfoot : Footprint.of (Command.callStart s.state).effects =
      Footprint.of s.state.start.effects := Call.footprint_stored _ _ rfl
  cases hactive : s.state.record.active with
  | true =>
      have hstart : s.state.start = ⟨s.state, []⟩ := by simp [State.start, hactive]
      refine turn_quiet_command hcall ?_ ?_ rfl ?_
      · rw [hfoot, hstart, Footprint.of_nil]
      · simp only [Command.callStart, hstart]
        rfl
      · simp [Command.disposes, hactive]
  | false =>
      refine .started rfl hactive ?_ ?_
      · rw [view_obey hcall, hfoot, State.footprint_start _ hactive]
        simp only [Command.callStart, State.start, hactive]
        rfl
      · rw [marks_obey hcall, hfoot, State.footprint_start _ hactive]
        simp [Command.resets, Command.disposes, hactive, next]

/-- A stop turns the view as a stop does, whether it is stored or not. -/
theorem turn_stop_command {s : Service κ} {c : Command} (persist : Bool)
    (hcall : c.call s.state = .ok (Command.callStop s.state persist))
    (hresets : c.resets s.state = false) (hdisposes : c.disposes s.state = true) :
    Turn s (.command c) := by
  have hfoot : Footprint.of (Command.callStop s.state persist).effects =
      Footprint.of s.state.disposeTimer.effects := by
    rw [← State.footprint_stop]
    cases persist with
    | true => exact Call.footprint_stored _ _ rfl
    | false => exact Call.footprint_unstored _ _ rfl
  have hstate : viewOf { s.placed with
        engine.state := (Command.callStop s.state persist).change.state } =
      { s.view with
        active := false
        timer := none
        generation := s.view.generation + 1 } := by
    cases persist <;> rfl
  refine .stopped ?_ ?_
  · rw [view_obey hcall, hfoot, State.footprint_disposeTimer, View.leave_of_no_issue, hstate]
    rfl
  · rw [marks_obey hcall, hfoot, State.footprint_disposeTimer, hresets, hdisposes]
    rfl

theorem turn_setInterval (s : Service κ) (seconds : UInt64) :
    Turn s (.command (.setInterval seconds)) := by
  cases hcheck : checkInterval seconds with
  | error e =>
      have hcall : Command.call s.state (.setInterval seconds) = .error e := by
        simp only [Command.call, hcheck]
      refine .quiet ?_ ?_
      · rw [view_step]
        simp only [base, effects, hcall, Footprint.of_note, Footprint.of_nil,
          View.leave_none]
      · simp [marks, effects, hcall, landed, resets, disposes, Command.resets,
          Command.disposes, hcheck, Except.isOk, Except.toBool, Footprint.none]
  | ok _ =>
      have hcall : Command.call s.state (.setInterval seconds) =
          .ok (Command.callSetInterval s.state seconds) := by
        simp only [Command.call, hcheck]
      have hfoot : Footprint.of (Command.callSetInterval s.state seconds).effects =
          Footprint.of (s.state.setInterval seconds).effects :=
        Call.footprint_stored _ _ rfl
      cases hactive : s.state.record.active with
      | true =>
          have hreset : s.state.setInterval seconds =
              { s.state with record.refreshInterval := seconds }.reset := by
            simp [State.setInterval, hactive]
          refine turn_reset_command hcall hactive ?_ ?_ ?_ ?_
          · rw [hfoot, hreset, State.footprint_reset, State.footprint_armTimer,
              State.footprint_armTimer]
          · simp only [Command.callSetInterval, hreset]
            rfl
          · simp [Command.resets, hactive, hcheck, Except.isOk, Except.toBool]
          · simp [Command.disposes, Command.resets, hactive, hcheck, Except.isOk, Except.toBool]
      | false =>
          have hset : s.state.setInterval seconds =
              ⟨{ s.state with record.refreshInterval := seconds }, []⟩ := by
            simp [State.setInterval, hactive]
          refine turn_quiet_command hcall ?_ ?_ ?_ ?_
          · rw [hfoot, hset, Footprint.of_nil]
          · simp only [Command.callSetInterval, hset]
            rfl
          · simp [Command.resets, hactive]
          · simp [Command.disposes, Command.resets, hactive]

theorem turn_dropCycle (s : Service κ) : Turn s (.command .dropCycle) := by
  have hcall : Command.call s.state .dropCycle = .ok (.unstored s.state.dropCycle []) := rfl
  have hfoot : Footprint.of (Call.unstored s.state.dropCycle []).effects =
      Footprint.of s.state.dropCycle.effects := Call.footprint_unstored _ _ rfl
  cases hactive : s.state.record.active with
  | true =>
      have hreset : s.state.dropCycle = s.state.reset.also [.note .cycleDropped] := by
        simp [State.dropCycle, hactive]
      refine turn_reset_command hcall hactive ?_ ?_ hactive hactive
      · rw [hfoot, hreset, Change.also, Footprint.of_append, State.footprint_reset]
        exact Footprint.andThen_none _
      · rw [hreset]
        rfl
  | false =>
      have hdrop : s.state.dropCycle = ⟨s.state, []⟩ := by simp [State.dropCycle, hactive]
      refine turn_quiet_command hcall ?_ ?_ hactive hactive
      · rw [hfoot, hdrop, Footprint.of_nil]
      · rw [hdrop]
        rfl

theorem turn_endSession (s : Service κ) : Turn s (.command .endSession) := by
  cases hactive : s.state.record.active with
  | true =>
      refine turn_stop_command false ?_ rfl hactive
      simp [Command.call, hactive]
  | false =>
      have hcall : Command.call s.state .endSession = .ok (.unstored ⟨s.state, []⟩ []) := by
        simp [Command.call, hactive]
      exact turn_quiet_command hcall rfl rfl rfl hactive

/-- A tick is obsolete unless it is of the current generation and polling is active. -/
theorem tick_eq_none_iff (s : State) (generation : UInt64) :
    s.tick generation = none ↔ s.generation ≠ generation ∨ s.record.active = false := by
  simp only [State.tick]
  split
  · next h => simpa using h
  · next h => simpa using h

/-- A tick that is not obsolete is dropped, which changes nothing but whether polling is
congested, or issues a query. -/
theorem tick_cases {s : State} (h : s.record.active = true) :
    (∃ congested effects, s.tick s.generation = some ⟨{ s with congested }, effects⟩ ∧
      Footprint.of effects = .none) ∨
    ∃ effects, s.tick s.generation =
        some ⟨{ s with congested := false, outstanding := s.outstanding + 1 }, effects⟩ ∧
      Footprint.of effects = ⟨[(.tick, s.cycle)], [], id⟩ := by
  have hcurrent : ¬(s.generation ≠ s.generation ∨ s.record.active = false) := by simp [h]
  simp only [State.tick, if_neg hcurrent]
  cases houtcome : State.tickOutcome { s with congested := isCongested s.pending } with
  | suppressed => exact Or.inl ⟨_, _, rfl, rfl⟩
  | congested => exact Or.inl ⟨_, _, rfl, rfl⟩
  | issued =>
      have hfree : isCongested s.pending = false := by
        simp only [State.tickOutcome] at houtcome
        split at houtcome
        · cases houtcome
        · split at houtcome
          · cases houtcome
          · next hc => simpa using hc
      exact Or.inr ⟨_, by rw [hfree]; rfl, rfl⟩

omit [DecidableEq κ] in
/-- Acting on a timer does not change of which generations the timers are. -/
theorem viewOf_wind (p : Engine.Placed κ) (generation : UInt64) (now : Nat) (t : State) :
    viewOf ⟨{ p.engine.wind generation now with state := t }, p.world⟩ =
      viewOf { p with engine.state := t } := by
  have hsame : (p.engine.wind generation now).timers.map (·.generation) =
      p.engine.timers.map (·.generation) := by
    simp only [Engine.wind, List.map_map]
    apply List.map_congr_left
    intro t _
    simp only [Function.comp]
    split <;> rfl
  simp only [viewOf, hsame]
  rfl

theorem turn_tick (s : Service κ) (generation : UInt64) : Turn s (.tick generation) := by
  by_cases hobsolete : s.state.generation ≠ generation ∨ s.state.record.active = false
  · have hnone := (tick_eq_none_iff s.state generation).mpr hobsolete
    refine .obsolete generation rfl hobsolete ?_ ?_
    · rw [view_step]
      simp only [base, effects, hnone, Footprint.of_disarm, View.leave_of_no_issue]
    · simp only [marks, effects, hnone, Footprint.of_disarm]
      rfl
  · obtain ⟨hgeneration, hactive⟩ := not_or.mp hobsolete
    obtain rfl := Decidable.not_not.mp hgeneration
    have hactive : s.state.record.active = true := by simpa using hactive
    rcases tick_cases hactive with ⟨congested, es, htick, hfoot⟩ | ⟨es, htick, hfoot⟩
    · refine .quiet ?_ ?_
      · rw [view_step]
        simp only [base, effects, htick, hfoot, View.leave_none, viewOf_wind]
        rfl
      · simp only [marks, effects, htick, hfoot]
        rfl
    · refine .ticked rfl hactive ?_ ?_
      · rw [view_step]
        simp only [base, effects, htick, hfoot, viewOf_wind]
        rfl
      · simp only [marks, effects, htick, hfoot]
        rfl

omit [DecidableEq κ] in
theorem footprint_answer (s : Service κ) (f : Flight)
    (result : Except Search.Failure Search.Response) :
    Footprint.of ((s.state.retire f.cycle).effects ++
      Engine.answerEffects (s.state.isCurrent f.cycle) f s.world.now result) = .none := by
  rw [Footprint.of_append, State.footprint_retire, Footprint.none_andThen, Engine.answerEffects]
  split <;> rfl

omit [DecidableEq κ] in
/-- A query that is answered counts no longer among the outstanding ones, if it is of
the current cycle. -/
theorem viewOf_land (s : Service κ) (f : Flight) :
    viewOf ⟨{ s.placed.engine.land f with state := (s.state.retire f.cycle).state }, s.world⟩ =
      s.view.land f := by
  by_cases hcycle : s.state.cycle = f.cycle
  · have hcurrent : s.state.isCurrent f.cycle = true := by simpa [State.isCurrent]
    have hview : s.view.cycle = f.cycle := hcycle
    rw [View.land, if_pos hview]
    simp only [State.retire, hcurrent, if_true]
    rfl
  · have hcurrent : s.state.isCurrent f.cycle = false := by simpa [State.isCurrent]
    have hview : ¬s.view.cycle = f.cycle := hcycle
    rw [View.land, if_neg hview]
    simp only [State.retire, hcurrent, Bool.false_eq_true, if_false]
    rfl

theorem view_answer {s : Service κ} {place : Nat} {f : Flight}
    (h : s.flights[place]? = some f) (result : Except Search.Failure Search.Response) :
    (s.step (.answer place result)).view = s.view.land f := by
  rw [view_step]
  simp only [base, effects, h, footprint_answer, View.leave_none, viewOf_land]

theorem turn_answer (s : Service κ) (place : Nat)
    (result : Except Search.Failure Search.Response) : Turn s (.answer place result) := by
  cases hplace : s.flights[place]? with
  | none =>
      refine .quiet ?_ ?_
      · simp only [step, takeAnswer, hplace]
      · simp only [marks, effects, landed, hplace]
        rfl
  | some f =>
      have hfoot := footprint_answer s f result
      refine .answered f (List.mem_of_getElem? hplace) (view_answer hplace result) ?_
      · simp only [marks, effects, landed, hplace, hfoot]
        rfl

/-- Writing records leaves queries and timers alone, and so does what the outside
does. -/
theorem turn_silent (s : Service κ) (a : Action κ) (hfoot : Footprint.of (s.effects a) = .none)
    (hview : viewOf (s.base a) = s.view) (hlanded : s.landed a = [])
    (hresets : s.resets a = false) (hdisposes : s.disposes a = false) : Turn s a := by
  refine .quiet ?_ ?_
  · rw [view_step, hfoot, View.leave_none, hview]
  · simp only [marks, hfoot, hlanded, hresets, hdisposes]
    rfl

/-- Every step turns the view in one of these ways. -/
theorem turn (s : Service κ) (a : Action κ) : Turn s a := by
  cases a with
  | command c =>
      cases c with
      | start => exact turn_start s
      | stop persist => exact turn_stop_command persist rfl rfl rfl
      | setInterval seconds => exact turn_setInterval s seconds
      | suppress b => exact turn_quiet_command rfl rfl rfl rfl rfl
      | dropCycle => exact turn_dropCycle s
      | endSession => exact turn_endSession s
  | tick generation => exact turn_tick s generation
  | answer place result => exact turn_answer s place result
  | claim place =>
      refine turn_silent s _ ?_ ?_ rfl rfl rfl
      · simp only [effects]
        split
        · split <;> rfl
        · rfl
      · simp only [base]
        split <;> rfl
  | save result =>
      refine turn_silent s _ ?_ rfl rfl rfl rfl
      simp only [effects]
      split
      · rfl
      · cases result <;> rfl
  | receive name most =>
      refine turn_silent s _ rfl ?_ rfl rfl rfl
      simp only [base, step]
      split <;> rfl
  | _ => exact turn_silent s _ rfl rfl rfl rfl rfl

/-- A step opens the next cycle if it resets, and stays in its cycle otherwise. -/
theorem cycle_step (s : Service κ) (a : Action κ) :
    (s.step a).view.cycle = s.view.cycle + if (s.marks a).resets then 1 else 0 := by
  cases s.turn a with
  | quiet hview hmarks => simp [hview, hmarks]
  | obsolete _ _ _ hview hmarks => simp [hview, hmarks]
  | ticked _ _ hview hmarks => simp [hview, hmarks, View.issue]
  | started _ _ hview hmarks => simp [hview, hmarks, View.issue, View.arm, View.dispose]
  | stopped hview hmarks => simp [hview, hmarks, View.dispose]
  | reset _ hview hmarks => simp [hview, hmarks, View.arm, View.dispose]
  | answered f _ hview hmarks => simp [hview, hmarks, View.land]

/-- A run leads so many cycles on as it has resets. -/
theorem cycle_run (s : Service κ) (as : List (Action κ)) :
    (s.run as).state.cycle =
      s.state.cycle + UInt64.ofNat (tally (fun s a => (s.marks a).resets) s as) := by
  induction as generalizing s with
  | nil => simp [tally]
  | cons a as ih =>
      have hstep : (s.step a).state.cycle =
          s.state.cycle + if (s.marks a).resets then 1 else 0 := s.cycle_step a
      rw [run_cons, ih, hstep]
      simp only [tally, UInt64.ofNat_add, ← UInt64.add_assoc]
      split <;> rfl

/-- A step makes all timers obsolete if it disposes of the timer, and none otherwise. -/
theorem generation_step (s : Service κ) (a : Action κ) :
    (s.step a).view.generation =
      s.view.generation + if (s.marks a).disposes then 1 else 0 := by
  cases s.turn a with
  | quiet hview hmarks => simp [hview, hmarks]
  | obsolete _ _ _ hview hmarks => simp [hview, hmarks]
  | ticked _ _ hview hmarks => simp [hview, hmarks, View.issue]
  | started _ _ hview hmarks => simp [hview, hmarks, View.issue, View.arm, View.dispose]
  | stopped hview hmarks => simp [hview, hmarks, View.dispose]
  | reset _ hview hmarks => simp [hview, hmarks, View.arm, View.dispose]
  | answered f _ hview hmarks => simp [hview, hmarks, View.land]

/-- What the queries alone decide is preserved by every step, if it is when a query is
issued, when one is answered and when a cycle is opened. -/
theorem preserved_of_queries {P : View → Prop} {s : Service κ} (h : P s.view) (a : Action κ)
    (hsame : ∀ v w : View, P v → w.outstanding = v.outstanding → w.cycle = v.cycle →
      w.flights = v.flights → w.issued = v.issued → P w)
    (hissue : ∀ origin, P (s.view.issue (s.next origin)))
    (hland : ∀ f ∈ s.flights, P (s.view.land f))
    (hreset : (s.marks a).resets = true →
      P { s.view with cycle := s.view.cycle + 1, outstanding := 0 }) :
    P (s.step a).view := by
  cases s.turn a with
  | quiet hview _ =>
      rw [hview]
      exact h
  | obsolete _ _ _ hview _ =>
      rw [hview]
      exact hsame _ _ h rfl rfl rfl rfl
  | ticked _ _ hview _ =>
      rw [hview]
      exact hissue .tick
  | started _ _ hview _ =>
      rw [hview]
      exact hsame _ _ (hissue .eager) rfl rfl rfl rfl
  | stopped hview _ =>
      rw [hview]
      exact hsame _ _ h rfl rfl rfl rfl
  | reset _ hview hmarks =>
      rw [hview]
      exact hsame _ _ (hreset (by rw [hmarks])) rfl rfl rfl rfl
  | answered f hf hview _ =>
      rw [hview]
      exact hland f hf

/-- A query is issued in the cycle that is current then. -/
theorem cycle_issued {s : Service κ} {a : Action κ} {f : Flight}
    (h : f ∈ (s.marks a).issued) : (s.step a).state.cycle = f.cycle := by
  have hcycle : (s.step a).state.cycle = (s.step a).view.cycle := rfl
  rw [hcycle, cycle_step]
  cases s.turn a with
  | ticked _ _ _ hmarks =>
      rw [hmarks] at h ⊢
      rw [List.mem_singleton.mp h]
      exact UInt64.add_zero _
  | started _ _ _ hmarks =>
      rw [hmarks] at h ⊢
      rw [List.mem_singleton.mp h]
      exact UInt64.add_zero _
  | quiet _ hmarks => simp [hmarks] at h
  | obsolete _ _ _ _ hmarks => simp [hmarks] at h
  | stopped _ hmarks => simp [hmarks] at h
  | reset _ _ hmarks => simp [hmarks] at h
  | answered _ _ _ hmarks => simp [hmarks] at h

end Service
end Polling
end SearchPolling
