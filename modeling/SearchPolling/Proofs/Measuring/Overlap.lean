import SearchPolling.Proofs.Measuring.Measured
import SearchPolling.Proofs.Measuring.Meters
import SearchPolling.Proofs.Queries.Telling

/-!
# Calls that overlap

Only the critical section of a command is carried out while nobody else can act.  What is
left of its call comes after that: something may be measured and told, and then the snapshot
waits to be stored.  In between anything may happen, the critical sections and remainders of
other calls among it, and so it may between the decision on an answer and its telling.

A call that nothing overtakes is carried out as before (`Overlapping.finish_at_once`), so a
launch with its first start is one of the runs (`Overlapping.run_first`).  In which ways a
stage may change the state, and what it measures then, is said by `Overlapping.advance`.
-/

namespace SearchPolling
namespace Polling

open Metrics (Measurement Registry)
open Effect (measurements)

namespace Lagging

variable {κ : Type} [DecidableEq κ]

theorem measured_step (d : Lagging κ) (m : Move κ) :
    (d.step m).service.placed.engine.measured = d.service.placed.engine.measured := by
  cases m with
  | tell place =>
      simp only [step, tell]
      split
      · rfl
      · exact Engine.performAll_measured _ _
  | act a =>
      cases a with
      | answer place result =>
          simp only [step, judge]
          split
          · rfl
          · exact Engine.performAll_measured _ _
      | _ => exact d.service.measured_step _

theorem registry_step {d : Lagging κ} (h : d.service.placed.engine.measured = true)
    (m : Move κ) :
    (d.step m).service.world.registry =
      d.service.world.registry.recordAll (measurements (d.effects m)) := by
  cases m with
  | tell place =>
      simp only [step, tell, effects]
      split
      · rfl
      · exact Engine.registry_performAll h _
  | act a =>
      cases a with
      | answer place result =>
          simp only [step, judge, effects]
          split
          · rfl
          · next f _ =>
              exact Engine.registry_carryOut (p := ⟨d.service.placed.engine.land f, _⟩) h _
      | _ => exact Service.registry_step h _

end Lagging

/-- A call whose critical section is over, as the command made it from the state that it
met. -/
structure OpenCall where
  command : Command
  met : State
  call : Call
  call_eq : command.call met = .ok call

namespace OpenCall

/-- What is measured when the rest of a call is done. -/
def measured (o : OpenCall) : List Measurement :=
  measurements o.call.afterwards

theorem measured_eq (o : OpenCall) : o.measured = o.command.measuredAfterwards :=
  (Command.measurements_call o.call_eq).2

end OpenCall

/-- A service of which only the critical sections are whole. -/
structure Overlapping (κ : Type) where
  lagging : Lagging κ
  /-- The calls that have not returned, in the order of their critical sections. -/
  calls : List OpenCall

/-- What may happen to a service of which only the critical sections are whole. -/
inductive Stage (κ : Type) where
  /-- A move takes place; if it is a command, only its critical section does. -/
  | enter (m : Move κ)
  /-- The call at a place among those that have not returned does what is left of it. -/
  | finish (place : Nat)

namespace Overlapping

variable {κ : Type}

abbrev service (d : Overlapping κ) : Service κ :=
  d.lagging.service

abbrev state (d : Overlapping κ) : State :=
  d.service.state

abbrev registry (d : Overlapping κ) : Registry :=
  d.service.world.registry

def withService (d : Overlapping κ) (s : Service κ) : Overlapping κ :=
  { d with lagging.service := s }

/-- The critical section of a command.  A command that is refused has none. -/
def enterCommand (d : Overlapping κ) (c : Command) : Overlapping κ :=
  match h : c.call d.state with
  | .error _ => d.withService (d.service.obey c)
  | .ok call =>
    { d.withService { d.service with placed := Engine.carryOut d.service.placed call.change } with
      calls := d.calls ++ [⟨c, d.state, call, h⟩] }

def finish (d : Overlapping κ) (place : Nat) : Overlapping κ :=
  match d.calls[place]? with
  | none => d
  | some o =>
    { d.withService
        { d.service with
          placed := Engine.performAll d.service.placed o.call.afterwards
          waiting := d.service.waiting ++ Service.snapshotsOf (.ok o.call.snapshot) } with
      calls := d.calls.eraseIdx place }

variable [DecidableEq κ]

def step (d : Overlapping κ) : Stage κ → Overlapping κ
  | .enter (.act (.command c)) => d.enterCommand c
  | .enter m => { d with lagging := d.lagging.step m }
  | .finish place => d.finish place

def run (d : Overlapping κ) (stages : List (Stage κ)) : Overlapping κ :=
  stages.foldl step d

/-- What the stages of a run give, in their order, each at the service that it meets. -/
def along {α : Type} (g : Overlapping κ → Stage κ → List α) (d : Overlapping κ) :
    List (Stage κ) → List α
  | [] => []
  | st :: stages => g d st ++ along g (d.step st) stages

omit [DecidableEq κ] in
/-- A service that has taken over what was found, but has not started. -/
def opened (l : Launch) : Overlapping κ :=
  ⟨⟨l.opened, []⟩, []⟩

omit [DecidableEq κ] in
/-- What happens first: polling starts if the record that was found is active. -/
def first (l : Launch) : List (Stage κ) :=
  if l.found.isActive then [.enter (.act (.command .start)), .finish 0] else []

@[simp] theorem run_nil (d : Overlapping κ) : d.run [] = d := rfl

@[simp] theorem run_cons (d : Overlapping κ) (st : Stage κ) (stages : List (Stage κ)) :
    d.run (st :: stages) = (d.step st).run stages := rfl

/-- A call that nothing overtakes is carried out as a command. -/
theorem finish_at_once (d : Overlapping κ) {c : Command} {call : Call}
    (h : c.call d.state = .ok call) :
    d.run [.enter (.act (.command c)), .finish d.calls.length] =
      d.withService (d.service.step (.command c)) := by
  have hentered : d.step (.enter (.act (.command c))) =
      { d.withService { d.service with placed := Engine.carryOut d.service.placed call.change } with
        calls := d.calls ++ [⟨c, d.state, call, h⟩] } := by
    simp only [step, enterCommand]
    split
    · next hcall => rw [h] at hcall; cases hcall
    · next hcall =>
        rw [h] at hcall
        obtain rfl := Except.ok.inj hcall
        rfl
  have hobeyed : d.service.step (.command c) =
      { d.service with
        placed := Engine.performAll (Engine.carryOut d.service.placed call.change) call.afterwards
        waiting := d.service.waiting ++ Service.snapshotsOf (.ok call.snapshot) } := by
    simp only [Service.step, Service.obey, Engine.command, h]
  rw [run_cons, run_cons, run_nil, hentered, hobeyed]
  simp [step, finish, withService, List.eraseIdx_append_of_length_le]

/-- A launch is one of the runs of the service that it opens. -/
theorem run_first (l : Launch) : (opened (κ := κ) l).run (first l) = ⟨.launched l, []⟩ := by
  cases hactive : l.found.isActive with
  | false =>
      have hcourse : l.course ([] : List (Action κ)) = [] := by
        simp [Launch.course, Launch.first, hactive]
      simp [first, hactive, opened, Lagging.launched, Launch.run, hcourse]
  | true =>
      have hcourse : l.course ([] : List (Action κ)) = [.command .start] := by
        simp [Launch.course, Launch.first, hactive]
      have hstart : Command.start.call (opened (κ := κ) l).state =
          .ok (Command.callStart (opened (κ := κ) l).state) := rfl
      have hfinished := (opened (κ := κ) l).finish_at_once hstart
      simpa [first, hactive, opened, Lagging.launched, Launch.run, hcourse, withService]
        using hfinished

/-- What every stage preserves holds after every run. -/
theorem run_preserves {P : Overlapping κ → Prop} (hstep : ∀ d st, P d → P (d.step st))
    {d : Overlapping κ} (h : P d) (stages : List (Stage κ)) : P (d.run stages) := by
  induction stages generalizing d with
  | nil => exact h
  | cons st stages ih => exact ih (hstep d st h)

/-! ## What a stage does -/

omit [DecidableEq κ] in
/-- What a stage measures, in its order. -/
def measured (d : Overlapping κ) : Stage κ → List Measurement
  | .enter (.act (.command c)) =>
    match c.call d.state with
    | .error _ => []
    | .ok call => measurements call.change.effects
  | .enter m => measurements (d.lagging.effects m)
  | .finish place =>
    match d.calls[place]? with
    | none => []
    | some o => o.measured

theorem measured_step (d : Overlapping κ) (st : Stage κ) :
    (d.step st).service.placed.engine.measured = d.service.placed.engine.measured := by
  cases st with
  | finish place =>
      simp only [step, finish]
      split
      · rfl
      · exact Engine.performAll_measured _ _
  | enter m =>
      cases m with
      | tell place => exact d.lagging.measured_step _
      | act a =>
          cases a with
          | command c =>
              simp only [step, enterCommand]
              split
              · exact d.service.measured_step (.command c)
              · exact Engine.performAll_measured _ _
          | _ => exact d.lagging.measured_step _

theorem registry_step {d : Overlapping κ} (h : d.service.placed.engine.measured = true)
    (st : Stage κ) : (d.step st).registry = d.registry.recordAll (d.measured st) := by
  cases st with
  | finish place =>
      simp only [step, finish, measured]
      split
      · rfl
      · exact Engine.registry_performAll h _
  | enter m =>
      cases m with
      | tell place => exact Lagging.registry_step h _
      | act a =>
          cases a with
          | command c =>
              simp only [step, enterCommand]
              split
              · next hcall =>
                  have hrefused : d.service.measured (.command c) = [] := by
                    simp only [Service.measured, Service.effects, hcall]
                    rfl
                  have hregistry := Service.registry_step h (.command c)
                  rw [hrefused] at hregistry
                  simp only [measured, hcall]
                  exact hregistry
              · next hcall =>
                  simp only [measured, hcall]
                  exact Engine.registry_carryOut h _
          | _ => exact Lagging.registry_step h _

omit [DecidableEq κ] in
/-- The call that a stage opens. -/
def opens (d : Overlapping κ) : Stage κ → List OpenCall
  | .enter (.act (.command c)) =>
    match h : c.call d.state with
    | .error _ => []
    | .ok call => [⟨c, d.state, call, h⟩]
  | _ => []

omit [DecidableEq κ] in
/-- The call that a stage ends. -/
def returns (d : Overlapping κ) : Stage κ → List OpenCall
  | .enter _ => []
  | .finish place => d.calls[place]?.toList

theorem calls_enter (d : Overlapping κ) (m : Move κ) :
    (d.step (.enter m)).calls = d.calls ++ d.opens (.enter m) := by
  cases m with
  | tell place => simp [step, opens]
  | act a =>
      cases a with
      | command c =>
          simp only [step, enterCommand, opens]
          split
          · exact (List.append_nil _).symm
          · rfl
      | _ => simp [step, opens]

theorem calls_finish (d : Overlapping κ) (place : Nat) :
    (d.step (.finish place)).calls = d.calls.eraseIdx place := by
  cases hplace : d.calls[place]? with
  | none =>
      have hlength : d.calls.length ≤ place := List.getElem?_eq_none_iff.mp hplace
      simp [step, finish, hplace, List.eraseIdx_of_length_le hlength]
  | some o => simp only [step, finish, hplace]

/-- The ways in which a stage may change the state, with what is measured then and the calls
that are opened and ended. -/
inductive Advance (d : Overlapping κ) (st : Stage κ) : Prop
  /-- The state is left alone, and no gauge is set. -/
  | aside (hstate : (d.step st).state = d.state) (hgauges : ∀ m ∈ d.measured st, m.isGauge = false)
      (hopens : d.opens st = []) (hreturns : d.returns st = [])
  | entered {o : OpenCall} (hmet : o.met = d.state)
      (hstate : (d.step st).state = o.call.change.state)
      (hmeasured : d.measured st = measurements o.call.change.effects)
      (hopens : d.opens st = [o]) (hreturns : d.returns st = [])
  | ticked {generation : UInt64} {c : Change} (h : d.state.tick generation = some c)
      (hstate : (d.step st).state = c.state) (hmeasured : d.measured st = measurements c.effects)
      (hopens : d.opens st = []) (hreturns : d.returns st = [])
  | judged (cycle : UInt64) (hstate : (d.step st).state = (d.state.retire cycle).state)
      (hmeasured : d.measured st = measurements (d.state.retire cycle).effects)
      (hopens : d.opens st = []) (hreturns : d.returns st = [])
  | finished {o : OpenCall} (hstate : (d.step st).state = d.state)
      (hmeasured : d.measured st = o.measured) (hopens : d.opens st = [])
      (hreturns : d.returns st = [o])

/-- What is measured when an answer is told sets no gauge. -/
theorem gauges_told (v : Verdict) (now : Nat) :
    ∀ m ∈ measurements (v.effects now), m.isGauge = false := by
  intro m hm
  rw [Verdict.effects] at hm
  split at hm
  · rw [List.mem_singleton.mp hm]
    rfl
  · rw [List.mem_singleton.mp hm]
    rfl

theorem advance_finish (d : Overlapping κ) (place : Nat) : d.Advance (.finish place) := by
  cases hplace : d.calls[place]? with
  | none =>
      refine .aside ?_ ?_ rfl ?_
      · simp only [step, finish, hplace]
      · simp [measured, hplace]
      · simp [returns, hplace]
  | some o =>
      refine .finished (o := o) ?_ ?_ rfl ?_
      · simp only [step, finish, hplace]
        exact Engine.performAll_state _ _
      · simp only [measured, hplace]
      · simp [returns, hplace]

theorem advance_tell (d : Overlapping κ) (place : Nat) : d.Advance (.enter (.tell place)) := by
  cases hplace : d.lagging.untold[place]? with
  | none =>
      refine .aside ?_ ?_ rfl rfl
      · simp only [step, Lagging.step, Lagging.tell, hplace]
      · simp [measured, Lagging.effects, hplace, measurements]
  | some v =>
      refine .aside ?_ ?_ rfl rfl
      · simp only [step, Lagging.step, Lagging.tell, hplace]
        exact Engine.performAll_state _ _
      · simp only [measured, Lagging.effects, hplace]
        exact gauges_told v _

theorem advance_command (d : Overlapping κ) (c : Command) :
    d.Advance (.enter (.act (.command c))) := by
  cases hcall : c.call d.state with
  | error e =>
      refine .aside ?_ ?_ ?_ rfl
      · simp only [step, enterCommand]
        split
        · simp only [withService, Service.obey, Engine.command, hcall]
        · next h => rw [hcall] at h; cases h
      · simp [measured, hcall]
      · simp only [opens]
        split
        · rfl
        · next h => rw [hcall] at h; cases h
  | ok call =>
      refine .entered (o := ⟨c, d.state, call, hcall⟩) rfl ?_ ?_ ?_ rfl
      · simp only [step, enterCommand]
        split
        · next h => rw [hcall] at h; cases h
        · next h =>
            obtain rfl := Except.ok.inj (hcall.symm.trans h)
            exact Engine.performAll_state _ _
      · simp only [measured, hcall]
      · simp only [opens]
        split
        · next h => rw [hcall] at h; cases h
        · next h =>
            obtain rfl := Except.ok.inj (hcall.symm.trans h)
            rfl

theorem advance_tick (d : Overlapping κ) (generation : UInt64) :
    d.Advance (.enter (.act (.tick generation))) := by
  have hstate : (d.step (.enter (.act (.tick generation)))).state =
      (d.service.base (.tick generation)).engine.state := d.service.state_step (.tick generation)
  have hmeasured : d.measured (.enter (.act (.tick generation))) =
      measurements (d.service.effects (.tick generation)) := rfl
  simp only [Service.effects] at hmeasured
  simp only [Service.base] at hstate
  cases htick : d.state.tick generation with
  | none =>
      rw [htick] at hstate hmeasured
      exact .aside hstate (by simp [hmeasured, measurements, Effect.measurement?]) rfl rfl
  | some c =>
      rw [htick] at hstate hmeasured
      exact .ticked htick hstate hmeasured rfl rfl

theorem advance_answer (d : Overlapping κ) (place : Nat)
    (result : Except Search.Failure Search.Response) :
    d.Advance (.enter (.act (.answer place result))) := by
  cases hplace : d.service.flights[place]? with
  | none =>
      refine .aside ?_ ?_ rfl rfl
      · simp only [step, Lagging.step, Lagging.judge, hplace]
      · simp [measured, Lagging.effects, hplace, measurements]
  | some f =>
      refine .judged f.cycle ?_ ?_ rfl rfl
      · simp only [step, Lagging.step, Lagging.judge, hplace]
        exact Engine.performAll_state _ _
      · simp only [measured, Lagging.effects, hplace]

theorem advance (d : Overlapping κ) (st : Stage κ) : d.Advance st := by
  cases st with
  | finish place => exact d.advance_finish place
  | enter m =>
      cases m with
      | tell place => exact d.advance_tell place
      | act a =>
          cases a with
          | command c => exact d.advance_command c
          | tick generation => exact d.advance_tick generation
          | answer place result => exact d.advance_answer place result
          | claim place =>
              have hmeasured : d.measured (.enter (.act (.claim place))) = [] :=
                d.service.measured_claim place
              refine .aside ((d.service.state_step (.claim place)).trans ?_)
                (by simp [hmeasured]) rfl rfl
              simp only [Service.base]
              split <;> rfl
          | save result =>
              have hmeasured : d.measured (.enter (.act (.save result))) =
                  d.service.writing.toList.map fun _ => .storeOperation "save" result.isOk :=
                d.service.measured_save result
              refine .aside (d.service.state_step (.save result)) ?_ rfl rfl
              intro m hm
              rw [hmeasured] at hm
              obtain ⟨t, _, rfl⟩ := List.mem_map.mp hm
              rfl
          | receive name most =>
              have hstate : (d.service.step (.receive name most)).state = d.state := by
                simp only [Service.step]
                split <;> rfl
              refine .aside hstate ?_ rfl rfl
              simp [measured, Lagging.effects, Service.effects, measurements]
          | _ =>
              refine .aside rfl ?_ rfl rfl
              simp [measured, Lagging.effects, Service.effects, measurements]

end Overlapping
end Polling
end SearchPolling
