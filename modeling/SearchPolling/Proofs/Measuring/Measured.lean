import SearchPolling.Proofs.Service.Record

/-!
# What is measured

Each change of the state measures what it has changed, while the state is still held.  Only
an interval that was set and a suppression are measured afterwards.  This module says for
every change, every command and every action exactly what is measured, in its order; what the
registry shows after a run follows from nothing else.
-/

namespace SearchPolling
namespace Polling

open Metrics (Measurement Registry TickOutcome)

/-- What is measured by effects, in their order. -/
def Effect.measurements (es : List Effect) : List Measurement :=
  es.filterMap Effect.measurement?

theorem Effect.measurements_append (es fs : List Effect) :
    measurements (es ++ fs) = measurements es ++ measurements fs :=
  List.filterMap_append

open Effect (measurements)

namespace Engine

variable {κ : Type}

@[simp] theorem performAll_measured (p : Placed κ) (es : List Effect) :
    (performAll p es).engine.measured = p.engine.measured :=
  performAll_preserves (·.engine.measured) perform_measured p es

theorem registry_performAll {p : Placed κ} (h : p.engine.measured = true) (es : List Effect) :
    (performAll p es).world.registry = p.world.registry.recordAll (measurements es) := by
  rw [performAll_registry, if_pos h]
  rfl

theorem registry_carryOut {p : Placed κ} (h : p.engine.measured = true) (c : Change) :
    (carryOut p c).world.registry = p.world.registry.recordAll (measurements c.effects) :=
  registry_performAll (p := ⟨{ p.engine with state := c.state }, p.world⟩) h c.effects

end Engine

namespace State

/-- What becomes of a tick that comes now. -/
def nextOutcome (s : State) : TickOutcome :=
  { s with congested := isCongested s.pending }.tickOutcome

theorem measurements_disposeTimer (s : State) : measurements s.disposeTimer.effects = [] := by
  simp only [disposeTimer]
  split <;> rfl

theorem measurements_armTimer (s : State) : measurements s.armTimer.effects = [] := by
  have hparts : s.armTimer.effects =
      s.disposeTimer.effects ++ [.arm (s.generation + 1) s.record.refreshInterval] := rfl
  rw [hparts, Effect.measurements_append, measurements_disposeTimer]
  rfl

theorem measurements_reset (s : State) : measurements s.reset.effects = [.inFlight 0] := by
  simp only [reset, Change.andThen, Effect.measurements_append, measurements_armTimer]
  split <;> rfl

theorem measurements_start (s : State) :
    measurements s.start.effects =
      if s.record.active then []
      else [.inFlight (s.outstanding + 1).toUInt64, .active true] := by
  by_cases hactive : s.record.active
  · simp only [start, hactive, if_true]
    rfl
  · have hparts : s.start.effects =
        (s.issue .eager).effects ++
          ({ (s.issue .eager).state with record.active := true }.armTimer.effects ++
            [.measure (.active true), .note (.started s.record.refreshInterval)]) := by
      simp only [start, hactive]
      rfl
    rw [hparts, Effect.measurements_append, Effect.measurements_append, measurements_armTimer,
      if_neg hactive]
    rfl

theorem measurements_stop (s : State) : measurements s.stop.effects = [.active false] := by
  have hparts : s.stop.effects =
      { s with record.active := false }.disposeTimer.effects ++ [.measure (.active false)] := rfl
  rw [hparts, Effect.measurements_append, measurements_disposeTimer]
  rfl

theorem measurements_dropCycle (s : State) :
    measurements s.dropCycle.effects = if s.record.active then [.inFlight 0] else [] := by
  by_cases hactive : s.record.active
  · simp only [dropCycle, hactive, if_true, Change.also, Effect.measurements_append,
      measurements_reset]
    rfl
  · simp only [dropCycle, hactive]
    rfl

theorem measurements_setInterval (s : State) (seconds : UInt64) :
    measurements (s.setInterval seconds).effects =
      if s.record.active then [.inFlight 0] else [] := by
  by_cases hactive : s.record.active
  · simp only [setInterval, hactive, if_true, measurements_reset]
  · simp only [setInterval, hactive]
    rfl

/-- A tick that is acted on is counted, whatever becomes of it. -/
theorem measurements_tick {s : State} {generation : UInt64} {c : Change}
    (h : s.tick generation = some c) :
    measurements c.effects =
      (if s.nextOutcome = .issued then [.inFlight (s.outstanding + 1).toUInt64] else []) ++
        [.tick s.nextOutcome, .congested (isCongested s.pending)] := by
  simp only [tick] at h
  split at h
  · cases h
  · obtain rfl := Option.some.inj h
    simp only [Change.also, Effect.measurements_append, nextOutcome]
    split <;> next houtcome => simp only [houtcome]; rfl

/-- The state after a tick that is acted on. -/
theorem state_tick {s : State} {generation : UInt64} {c : Change}
    (h : s.tick generation = some c) :
    c.state =
      { s with
        outstanding := s.outstanding + if s.nextOutcome = .issued then 1 else 0
        congested := isCongested s.pending } := by
  simp only [tick] at h
  split at h
  · cases h
  · obtain rfl := Option.some.inj h
    simp only [Change.also, nextOutcome]
    split <;> next houtcome => simp only [houtcome]; rfl

theorem measurements_retire (s : State) (cycle : UInt64) :
    measurements (s.retire cycle).effects =
      if s.isCurrent cycle then [.inFlight (s.outstanding - 1).toUInt64] else [] := by
  simp only [retire]
  split <;> rfl

end State

namespace Command

/-- What a command measures in its critical section. -/
def measuredInside (s : State) : Command → List Measurement
  | .start =>
    if s.record.active then [] else [.inFlight (s.outstanding + 1).toUInt64, .active true]
  | .stop _ => [.active false]
  | .setInterval _ => if s.record.active then [.inFlight 0] else []
  | .suppress _ => []
  | .dropCycle => if s.record.active then [.inFlight 0] else []
  | .endSession => if s.record.active then [.active false] else []

/-- What a command measures when its critical section is over. -/
def measuredAfterwards : Command → List Measurement
  | .setInterval seconds => [.refreshInterval seconds]
  | .suppress suppressed => [.suppressed suppressed]
  | _ => []

theorem measurements_call {s : State} {c : Command} {call : Call} (h : c.call s = .ok call) :
    measurements call.change.effects = c.measuredInside s ∧
      measurements call.afterwards = c.measuredAfterwards := by
  cases c with
  | start =>
      obtain rfl := Except.ok.inj h
      exact ⟨s.measurements_start, rfl⟩
  | stop persist =>
      obtain rfl := Except.ok.inj h
      cases persist <;> exact ⟨s.measurements_stop, rfl⟩
  | setInterval seconds =>
      simp only [Command.call] at h
      split at h
      · cases h
      · obtain rfl := Except.ok.inj h
        exact ⟨s.measurements_setInterval seconds, rfl⟩
  | suppress b =>
      obtain rfl := Except.ok.inj h
      exact ⟨rfl, rfl⟩
  | dropCycle =>
      obtain rfl := Except.ok.inj h
      exact ⟨s.measurements_dropCycle, rfl⟩
  | endSession =>
      obtain rfl := Except.ok.inj h
      rw [measuredInside]
      split
      · exact ⟨s.measurements_stop, rfl⟩
      · exact ⟨rfl, rfl⟩

/-- In a critical section only gauges of the state are measured. -/
theorem mem_measuredInside {s : State} {c : Command} {m : Measurement}
    (h : m ∈ c.measuredInside s) : (∃ n, m = .inFlight n) ∨ ∃ b, m = .active b := by
  cases c with
  | start =>
      simp only [measuredInside] at h
      split at h
      · cases h
      · simp only [List.mem_cons, List.not_mem_nil, or_false] at h
        rcases h with rfl | rfl
        · exact .inl ⟨_, rfl⟩
        · exact .inr ⟨_, rfl⟩
  | stop persist => exact .inr ⟨_, List.mem_singleton.mp h⟩
  | suppress b => cases h
  | setInterval seconds =>
      simp only [measuredInside] at h
      split at h
      · exact .inl ⟨_, List.mem_singleton.mp h⟩
      · cases h
  | dropCycle =>
      simp only [measuredInside] at h
      split at h
      · exact .inl ⟨_, List.mem_singleton.mp h⟩
      · cases h
  | endSession =>
      simp only [measuredInside] at h
      split at h
      · exact .inr ⟨_, List.mem_singleton.mp h⟩
      · cases h

end Command

namespace Service

variable {κ : Type}

/-- What an action measures, in its order. -/
def measured (s : Service κ) (a : Action κ) : List Measurement :=
  measurements (s.effects a)

theorem measured_answer {s : Service κ} {place : Nat} {f : Flight}
    (h : s.flights[place]? = some f) (result : Except Search.Failure Search.Response) :
    s.measured (.answer place result) =
      if s.state.isCurrent f.cycle then
        [.inFlight (s.state.outstanding - 1).toUInt64,
          .queryCompleted f.origin result.isOk ((s.world.now - f.posed) * 1000000)]
      else [.queryDiscarded f.origin] := by
  simp only [measured, effects, h, Effect.measurements_append, State.measurements_retire,
    Engine.answerEffects]
  split <;> rfl

theorem measured_save (s : Service κ) (result : Except Store.Failure Unit) :
    s.measured (.save result) =
      s.writing.toList.map fun _ => .storeOperation "save" result.isOk := by
  simp only [measured, effects]
  split
  · next hwriting => rw [hwriting]; rfl
  · next hwriting => rw [hwriting]; cases result <;> rfl

theorem measured_claim (s : Service κ) (place : Nat) : s.measured (.claim place) = [] := by
  simp only [measured, effects]
  split
  · split <;> rfl
  · rfl

variable [DecidableEq κ]

/-- No silent change touches the registry. -/
theorem registry_base (s : Service κ) (a : Action κ) :
    (s.base a).world.registry = s.world.registry ∧
      (s.base a).engine.measured = s.placed.engine.measured := by
  cases a with
  | command c =>
      simp only [base]
      split <;> exact ⟨rfl, rfl⟩
  | tick generation =>
      simp only [base]
      split <;> exact ⟨rfl, rfl⟩
  | answer place result =>
      simp only [base]
      split <;> exact ⟨rfl, rfl⟩
  | claim place =>
      simp only [base]
      split <;> exact ⟨rfl, rfl⟩
  | receive name most =>
      simp only [base, step]
      split <;> exact ⟨rfl, rfl⟩
  | _ => exact ⟨rfl, rfl⟩

theorem measured_step (s : Service κ) (a : Action κ) :
    (s.step a).placed.engine.measured = s.placed.engine.measured := by
  rw [step_placed, Engine.performAll_measured]
  exact (s.registry_base a).2

theorem registry_step {s : Service κ} (h : s.placed.engine.measured = true) (a : Action κ) :
    (s.step a).world.registry = s.world.registry.recordAll (s.measured a) := by
  obtain ⟨hregistry, hmeasured⟩ := s.registry_base a
  rw [world, step_placed, Engine.registry_performAll (hmeasured.trans h), hregistry]
  rfl

/-- The registry after a run in which everything is measured. -/
theorem registry_run {s : Service κ} (h : s.placed.engine.measured = true)
    (as : List (Action κ)) :
    (s.run as).world.registry = s.world.registry.recordAll (along measured s as) := by
  induction as generalizing s with
  | nil => rfl
  | cons a as ih =>
      have hstep : (s.step a).placed.engine.measured = true := by rw [measured_step, h]
      rw [run_cons, ih hstep, registry_step h, along, Registry.recordAll_append]

end Service

namespace Launch

variable {κ : Type}

/-- What is measured while a service is opened. -/
def measuredFirst (l : Launch) : List Measurement :=
  measurements (State.opening l.interval).effects ++
    (.storeOperation "load" l.found.isAnswered ::
      l.found.record?.toList.map fun r => .refreshInterval r.refreshInterval)

/-- A session that is opened says at first what it would show without a record. -/
theorem measurements_opening (interval : UInt64) :
    measurements (State.opening interval).effects =
      [.active false, .suppressed false,
        .refreshInterval (State.opening interval).state.record.refreshInterval] := by
  simp only [State.opening]
  split <;> rfl

theorem measurements_found (found : Restored) :
    measurements found.effects = [.storeOperation "load" found.isAnswered] := by
  cases found <;> rfl

theorem state_opening (interval : UInt64) :
    (State.opening interval).state =
      .initial (if (checkInterval interval).isOk then interval else standardInterval) := by
  simp only [State.opening]
  cases checkInterval interval <;> rfl

/-- Nothing but the interval of the record is known when a session has been opened. -/
theorem state_opened (l : Launch) :
    (l.opened : Service κ).state = .initial l.firstRecord.refreshInterval := by
  simp only [Service.state, opened, Engine.adopt, firstRecord]
  cases l.found.record? with
  | none =>
      simp only [Engine.performAll_state, opening, Engine.opening, Engine.carryOut,
        state_opening]
  | some record =>
      simp only [Engine.performAll_state, opening, Engine.opening, Engine.carryOut, State.adopt,
        State.adoptInterval, Change.also, state_opening]
      rfl

theorem measured_opened (l : Launch) :
    (l.opened : Service κ).placed.engine.measured = l.measured := by
  simp only [opened, opening, Engine.opening, Engine.adopt, Engine.carryOut]
  split <;> simp only [Engine.performAll_measured]

theorem registry_opened (l : Launch) (h : l.measured = true) :
    (l.opened : Service κ).world.registry = l.world.registry.recordAll l.measuredFirst := by
  have hopening : (l.opening : Engine.Placed κ).world.registry =
      l.world.registry.recordAll (measurements (State.opening l.interval).effects) :=
    Engine.registry_performAll h _
  have hmeasured : (l.opening : Engine.Placed κ).engine.measured = true := by
    rw [opening, Engine.opening, Engine.carryOut, Engine.performAll_measured]
    exact h
  have hfound : (Engine.performAll (l.opening : Engine.Placed κ) l.found.effects).world.registry =
      l.world.registry.recordAll (measurements (State.opening l.interval).effects ++
        [.storeOperation "load" l.found.isAnswered]) := by
    rw [Engine.registry_performAll hmeasured, hopening, measurements_found,
      Registry.recordAll_append]
  simp only [opened, Engine.adopt, Service.world, measuredFirst]
  split
  · next hnone =>
      rw [hfound, hnone]
      rfl
  · next record hsome =>
      have hadopt : measurements
          ((Engine.performAll (l.opening : Engine.Placed κ) l.found.effects).engine.state.adopt
            record).effects = [.refreshInterval record.refreshInterval] := rfl
      rw [Engine.carryOut, Engine.registry_performAll (by
        simpa only [Engine.performAll_measured] using hmeasured), hadopt, hfound, hsome,
        ← Registry.recordAll_append]
      simp

end Launch
end Polling
end SearchPolling
