import Mathlib.Data.List.Induction
import SearchPolling.Proofs.Measuring.Entries

/-!
# Congestion

Polling is congested if a query was outstanding when the last tick came.  A tick looks before
it issues its own query, and it looks whether or not ticks are suppressed; until the next one
the finding stands, whatever is answered, started, stopped, reset or set in between.

What becomes of a tick is told once: it is suppressed, or else congested if a query is
outstanding, or else it issues one.  A tick that issues none leaves everything as it was but for
the finding.
-/

namespace SearchPolling
namespace Polling

open Metrics (TickOutcome)

namespace State

theorem congested_start (s : State) : s.start.state.congested = s.congested := by
  simp only [start]
  split <;> rfl

theorem congested_setInterval (s : State) (seconds : UInt64) :
    (s.setInterval seconds).state.congested = s.congested := by
  simp only [setInterval]
  split <;> rfl

theorem congested_dropCycle (s : State) : s.dropCycle.state.congested = s.congested := by
  simp only [dropCycle]
  split <;> rfl

theorem congested_retire (s : State) (cycle : UInt64) :
    (s.retire cycle).state.congested = s.congested := by
  simp only [retire]
  split <;> rfl

theorem nextOutcome_eq (s : State) :
    s.nextOutcome =
      if s.suppressed then .suppressed else if s.pending then .congested else .issued := rfl

end State

/-- No command finds out whether polling is congested. -/
theorem Command.congested_call {s : State} {c : Command} {call : Call} (h : c.call s = .ok call) :
    call.change.state.congested = s.congested := by
  cases c with
  | start =>
      obtain rfl := Except.ok.inj h
      exact s.congested_start
  | stop persist =>
      obtain rfl := Except.ok.inj h
      cases persist <;> rfl
  | setInterval seconds =>
      simp only [Command.call] at h
      split at h
      · cases h
      · obtain rfl := Except.ok.inj h
        exact s.congested_setInterval seconds
  | suppress b =>
      obtain rfl := Except.ok.inj h
      rfl
  | dropCycle =>
      obtain rfl := Except.ok.inj h
      exact s.congested_dropCycle
  | endSession =>
      obtain rfl := Except.ok.inj h
      split <;> rfl

namespace Service

variable {κ : Type}

/-- Whether a query is outstanding, at a tick that is acted on. -/
def levels (s : Service κ) (a : Action κ) : List Bool :=
  if s.actsOnTick a then [s.state.pending] else []

/-- A tick of which something becomes is acted on. -/
theorem exists_tick_of_actsOnTick {s : Service κ} {a : Action κ} (h : s.actsOnTick a = true) :
    ∃ generation c, a = .tick generation ∧ s.state.tick generation = some c := by
  cases a with
  | tick generation =>
      obtain ⟨c, hc⟩ := Option.isSome_iff_exists.mp h
      exact ⟨generation, c, rfl, hc⟩
  | _ => cases h

theorem issued_tick_eq {s : Service κ} {generation : UInt64} {c : Change}
    (h : s.state.tick generation = some c) :
    (s.marks (.tick generation)).issued =
      if s.state.nextOutcome = .issued then [s.next .tick] else [] := by
  have hissued : (s.marks (.tick generation)).issued =
      s.world.nextFlights (Footprint.of c.effects).issues := by
    simp only [marks, effects, h]
  rw [hissued, State.issues_tick h]
  split <;> rfl

variable [DecidableEq κ]

theorem congested_of_not_tick {s : Service κ} {a : Action κ} (h : s.actsOnTick a = false) :
    (s.step a).state.congested = s.state.congested := by
  rw [state_step]
  cases a with
  | command c =>
      simp only [base]
      split
      · rfl
      · next hcall => exact Command.congested_call hcall
  | tick generation =>
      have hnone : s.state.tick generation = none := by simpa [actsOnTick] using h
      simp only [base, hnone]
  | answer place result =>
      simp only [base]
      split
      · rfl
      · exact State.congested_retire _ _
  | claim place =>
      simp only [base]
      split <;> rfl
  | receive name most =>
      simp only [base, step]
      split <;> rfl
  | _ => rfl

theorem state_step_tick {s : Service κ} {generation : UInt64} {c : Change}
    (h : s.state.tick generation = some c) : (s.step (.tick generation)).state = c.state := by
  rw [state_step]
  simp only [base, h]

/-- A step leaves the finding of the last tick, or makes one. -/
theorem congested_step (s : Service κ) (a : Action κ) :
    (s.step a).state.congested = (s.levels a).getLast?.getD s.state.congested := by
  by_cases hacts : s.actsOnTick a = true
  · obtain ⟨generation, c, rfl, htick⟩ := exists_tick_of_actsOnTick hacts
    rw [state_step_tick htick, State.state_tick htick, levels, if_pos hacts]
    rfl
  · rw [levels, if_neg hacts]
    exact congested_of_not_tick (by simpa using hacts)

/-- What becomes of a tick of the timer of a generation, and what it does. -/
structure Resolves (s : Service κ) (generation : UInt64) (outcome : TickOutcome) : Prop where
  told_once : (s.measured (.tick generation)).filterMap (·.tick?) = [outcome]
  issued_eq : (s.marks (.tick generation)).issued =
    if outcome = .issued then [s.next .tick] else []
  flights_eq : (s.step (.tick generation)).flights =
    s.flights ++ (s.marks (.tick generation)).issued
  /-- A tick that issues no query finds out whether one is outstanding, and does nothing else. -/
  idle : outcome ≠ .issued →
    (s.step (.tick generation)).state = { s.state with congested := s.state.pending } ∧
      (s.step (.tick generation)).view = s.view

theorem resolves_tick {s : Service κ} {generation : UInt64} {c : Change}
    (h : s.state.tick generation = some c) : s.Resolves generation s.state.nextOutcome where
  told_once := by
    have hmeasured : s.measured (.tick generation) = Effect.measurements c.effects := by
      simp only [measured, effects, h]
    rw [hmeasured, State.measurements_tick h]
    split <;> rfl
  issued_eq := issued_tick_eq h
  flights_eq := by
    have hview : (s.step (.tick generation)).flights = (s.step (.tick generation)).view.flights :=
      rfl
    rw [hview]
    cases s.turn (.tick generation) with
    | quiet hview hmarks => simp [hview, hmarks, viewOf]
    | obsolete _ _ _ hview hmarks => simp [hview, hmarks, viewOf]
    | ticked _ _ hview hmarks => simp [hview, hmarks, View.issue, viewOf]
    | started haction _ _ _ => cases haction
    | stopped _ hmarks => cases congrArg Marks.disposes hmarks
    | reset _ _ hmarks => cases congrArg Marks.disposes hmarks
    | answered f _ _ hmarks => cases congrArg Marks.landed hmarks
  idle := by
    intro hidle
    have hunissued : (s.marks (.tick generation)).issued = [] := by
      rw [issued_tick_eq h, if_neg hidle]
    constructor
    · rw [state_step_tick h, State.state_tick h, if_neg hidle]
      rfl
    · cases s.turn (.tick generation) with
      | quiet hview _ => exact hview
      | obsolete g haction hobsolete _ _ =>
          cases haction
          rw [(tick_eq_none_iff _ _).mpr hobsolete] at h
          cases h
      | ticked _ _ _ hmarks => rw [hmarks] at hunissued; cases hunissued
      | started haction _ _ _ => cases haction
      | stopped _ hmarks => cases congrArg Marks.disposes hmarks
      | reset _ _ hmarks => cases congrArg Marks.disposes hmarks
      | answered f _ _ hmarks => cases congrArg Marks.landed hmarks

end Service

namespace Launch

variable {κ : Type}

theorem congested_opened (l : Launch) : (l.opened : Service κ).state.congested = false := by
  rw [l.state_opened]
  rfl

variable [DecidableEq κ]

/-- Whether a query was outstanding at each tick that was acted on, in their order. -/
def levels (l : Launch) (as : List (Action κ)) : List Bool :=
  l.along Service.levels as

/-- Polling is congested by the finding of the last tick. -/
theorem congested_run (l : Launch) (as : List (Action κ)) :
    (l.run as).state.congested = (l.levels as).getLast?.getD false := by
  have hrun (s : Service κ) (bs : List (Action κ)) :
      (s.run bs).state.congested =
        (Service.along Service.levels s bs).getLast?.getD s.state.congested := by
    induction bs using List.reverseRecOn with
    | nil => rfl
    | append_singleton bs a ih =>
        rw [Service.run_concat, Service.congested_step, ih, Service.along_append]
        simp only [Service.along, List.append_nil, List.getLast?_append, Option.getD_or]
  rw [run, hrun, congested_opened]
  rfl

end Launch

variable {κ : Type} [DecidableEq κ]

/-- Polling is congested exactly if a query was outstanding at the last tick that was acted on,
and no other action changes that.  Of every tick that is acted on it is told once what becomes
of it, and a tick issues one query or leaves everything else as it was. -/
theorem congested_by_last_tick (l : Launch) (as : List (Action κ)) :
    (l.run as).state.congested = (l.levels as).getLast?.getD false ∧
      (∀ a, (l.run as).actsOnTick a = false →
        (l.run (as ++ [a])).state.congested = (l.run as).state.congested) ∧
      ∀ generation, (l.run as).actsOnTick (.tick generation) = true →
        (l.run as).Resolves generation
          (if (l.run as).state.suppressed then .suppressed
          else if (l.run as).state.pending then .congested
          else .issued) := by
  refine ⟨l.congested_run as, ?_, ?_⟩
  · intro a hother
    rw [l.run_concat]
    exact Service.congested_of_not_tick hother
  · intro generation hacts
    obtain ⟨c, htick⟩ := Option.isSome_iff_exists.mp hacts
    rw [← State.nextOutcome_eq]
    exact Service.resolves_tick htick

/-- The first tick meets the query of the start; its answer does not end the congestion, a tick
that is suppressed does. -/
theorem congested_until_next_tick :
    let as : List (Action Unit) := [.command .start, .tick 1, .answer 0 (.error .timeout),
      .command (.suppress true)]
    (Launch.standard.run as).state.congested = true ∧
      (Launch.standard.run as).state.pending = false ∧
      (Launch.standard.run as).actsOnTick (.tick 1) = true ∧
      (Launch.standard.run as).Resolves 1 .suppressed ∧
      (Launch.standard.run (as ++ [.tick 1])).state.congested = false := by
  intro as
  obtain ⟨hcongested, -, hresolves⟩ := congested_by_last_tick Launch.standard as
  have hlater := (congested_by_last_tick Launch.standard (as ++ [.tick 1])).1
  have hacts : (Launch.standard.run as).actsOnTick (.tick 1) = true := by decide
  refine ⟨hcongested.trans (by decide), by decide, hacts, hresolves 1 hacts, ?_⟩
  exact hlater.trans (by decide)

end Polling
end SearchPolling
