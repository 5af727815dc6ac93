import SearchPolling.Proofs.Measuring.Measured
import SearchPolling.Proofs.Measuring.Meters
import SearchPolling.Proofs.Queries.Publication

/-!
# What an action counts

An action enters in the counters at most one query, one tick or one save, whatever gauges it
sets besides.  Each entry has its counterpart in what the action does: a query that is
answered is entered once, by what became of it; a tick that is acted on is entered once; and
so is a save that ends.
-/

namespace SearchPolling
namespace Polling

open Metrics (Measurement Meter Registry TickOutcome)

namespace Service

variable {κ : Type}

/-! ## What an action counts -/

/-- What an action measures but for the gauges. -/
def entries (s : Service κ) : Action κ → List Measurement
  | .tick generation => (s.state.tick generation).toList.map fun _ => .tick s.state.nextOutcome
  | .answer place result =>
    s.flights[place]?.toList.map fun f =>
      if s.state.isCurrent f.cycle then
        .queryCompleted f.origin result.isOk ((s.world.now - f.posed) * 1000000)
      else .queryDiscarded f.origin
  | .save result => s.writing.toList.map fun _ => .storeOperation "save" result.isOk
  | _ => []

theorem gauges_call {s : State} {c : Command} {call : Call} (h : c.call s = .ok call) :
    ∀ m ∈ Effect.measurements call.effects, m.isGauge = true := by
  have hparts : Effect.measurements call.effects =
      c.measuredInside s ++ c.measuredAfterwards := by
    rw [Call.effects, Effect.measurements_append, (Command.measurements_call h).1,
      (Command.measurements_call h).2]
  rw [hparts]
  intro m hm
  rcases List.mem_append.mp hm with hinside | hafterwards
  · rcases Command.mem_measuredInside hinside with ⟨n, rfl⟩ | ⟨b, rfl⟩ <;> rfl
  · cases c with
    | setInterval seconds =>
        rw [List.mem_singleton.mp hafterwards]
        rfl
    | suppress b =>
        rw [List.mem_singleton.mp hafterwards]
        rfl
    | _ => cases hafterwards

/-- Meters read the entries of an action alone. -/
theorem countP_measured (M : Meter) (s : Service κ) (a : Action κ) :
    (s.measured a).countP M.counts = (s.entries a).countP M.counts := by
  cases a with
  | command c =>
      simp only [measured, effects, entries, List.countP_nil]
      split
      · rfl
      · next hcall => exact M.countP_gauges (gauges_call hcall)
  | tick generation =>
      simp only [measured, effects, entries]
      cases htick : s.state.tick generation with
      | none => rfl
      | some c =>
          simp only [State.measurements_tick htick, Option.toList_some, List.map_singleton]
          split <;> simp [List.countP_cons]
  | answer place result =>
      cases hplace : s.flights[place]? with
      | none => simp [measured, effects, entries, hplace, Effect.measurements]
      | some f =>
          rw [measured_answer hplace]
          simp only [entries, hplace, Option.toList_some, List.map_singleton]
          split <;> simp [List.countP_cons]
  | claim place =>
      rw [measured_claim]
      rfl
  | save result =>
      rw [measured_save]
      rfl
  | _ => rfl

/-! ## What each action adds on both sides -/

/-- Whether an action is a tick that is acted on. -/
def actsOnTick (s : Service κ) : Action κ → Bool
  | .tick generation => (s.state.tick generation).isSome
  | _ => false

/-- Whether a save of the store returns with an action. -/
def endsSave (s : Service κ) : Action κ → Bool
  | .save _ => s.writing.isSome
  | _ => false

/-- An answer is counted by whether its query is of the current cycle, and published if it
is. -/
theorem entries_answer {s : Service κ} {place : Nat} {f : Flight}
    (h : s.flights[place]? = some f) (result : Except Search.Failure Search.Response) :
    (s.entries (.answer place result) =
        [.queryCompleted f.origin result.isOk ((s.world.now - f.posed) * 1000000)] ∧
      s.published (.answer place result) = [Engine.answerEvent f s.world.now result]) ∨
    (s.entries (.answer place result) = [.queryDiscarded f.origin] ∧
      s.published (.answer place result) = []) := by
  have hpublished : s.published (.answer place result) =
      (s.settlements (.answer place result)).flatMap (·.published) :=
    (s.published_eq_flatMap _).1
  rw [settlements_answer h] at hpublished
  by_cases hcycle : s.state.cycle = f.cycle
  · have hcurrent : s.state.isCurrent f.cycle = true := by simpa [State.isCurrent]
    rw [if_pos hcycle] at hpublished
    exact Or.inl ⟨by simp [entries, h, hcurrent], hpublished⟩
  · have hcurrent : s.state.isCurrent f.cycle = false := by simpa [State.isCurrent]
    rw [if_neg hcycle] at hpublished
    exact Or.inr ⟨by simp [entries, h, hcurrent], hpublished⟩

/-- Nothing but an answer counts a query or publishes an event. -/
theorem entries_unanswered {s : Service κ} {a : Action κ} (h : s.landed a = []) :
    (∀ m ∈ s.entries a, m.fate? = none ∧ m.completed? = none) ∧ s.published a = [] := by
  refine ⟨?_, (routine_effects h).unsettling.events⟩
  intro m hm
  cases a with
  | answer place result =>
      have hplace : s.flights[place]? = none := by simpa [landed] using h
      simp [entries, hplace] at hm
  | tick generation =>
      obtain ⟨c, _, rfl⟩ := List.mem_map.mp hm
      exact ⟨rfl, rfl⟩
  | save result =>
      obtain ⟨t, _, rfl⟩ := List.mem_map.mp hm
      exact ⟨rfl, rfl⟩
  | _ => cases hm

/-- A query that is answered is counted once, by what became of it. -/
theorem fates_entries (s : Service κ) (a : Action κ) (origin : Origin) :
    (s.entries a).countP (Meter.queries origin .success).counts +
        (s.entries a).countP (Meter.queries origin .failure).counts +
        (s.entries a).countP (Meter.queries origin .discarded).counts =
      (s.landed a).countP (·.origin = origin) := by
  rcases s.landed_cases a with hnone | ⟨place, result, f, rfl, hplace, hlanded⟩
  · have hfates (fate : Metrics.Fate) :
        (s.entries a).countP (Meter.queries origin fate).counts = 0 := by
      rw [List.countP_eq_zero]
      intro m hm
      simp [Meter.queries, ((entries_unanswered hnone).1 m hm).1]
    simp [hfates, hnone]
  · rw [hlanded]
    rcases entries_answer hplace result with ⟨hentries, _⟩ | ⟨hentries, _⟩
    · rw [hentries]
      cases result <;> by_cases horigin : f.origin = origin <;>
        simp [Meter.queries, Measurement.fate?, Metrics.Fate.ofSuccess, Except.isOk,
          Except.toBool, horigin]
    · rw [hentries]
      by_cases horigin : f.origin = origin <;> simp [Meter.queries, Measurement.fate?, horigin]

/-- An event is published of every query that is counted otherwise than as discarded, and
the duration of that query is observed. -/
theorem published_entries (s : Service κ) (a : Action κ) (origin : Origin) :
    (s.published a).countP (·.origin = origin) =
        (s.entries a).countP (Meter.queries origin .success).counts +
          (s.entries a).countP (Meter.queries origin .failure).counts ∧
      (s.published a).countP (·.origin = origin) =
        (s.entries a).countP (Meter.durations origin).counts := by
  rcases s.landed_cases a with hnone | ⟨place, result, f, rfl, hplace, _⟩
  · obtain ⟨hentries, hpublished⟩ := entries_unanswered hnone
    have hnothing (M : Meter) (hM : ∀ m, m.fate? = none → m.completed? = none →
        M.counts m = false) : (s.entries a).countP M.counts = 0 := by
      rw [List.countP_eq_zero]
      intro m hm
      simp [hM m (hentries m hm).1 (hentries m hm).2]
    rw [hpublished, hnothing, hnothing, hnothing]
    · exact ⟨rfl, rfl⟩
    · intro m _ hcompleted
      simp [Meter.durations, hcompleted]
    · intro m hfate _
      simp [Meter.queries, hfate]
    · intro m hfate _
      simp [Meter.queries, hfate]
  · rcases entries_answer hplace result with ⟨hentries, hpublished⟩ | ⟨hentries, hpublished⟩
    · rw [hentries, hpublished]
      cases result <;> by_cases horigin : f.origin = origin <;>
        simp [Meter.queries, Meter.durations, Measurement.fate?, Measurement.completed?,
          Metrics.Fate.ofSuccess, Except.isOk, Except.toBool, Engine.answerEvent, horigin]
    · rw [hentries, hpublished]
      by_cases horigin : f.origin = origin <;>
        simp [Meter.queries, Meter.durations, Measurement.fate?, Measurement.completed?]

/-- Nothing but a tick is counted as a tick. -/
theorem entries_unticked {s : Service κ} {a : Action κ} (h : ∀ generation, a ≠ .tick generation) :
    ∀ m ∈ s.entries a, m.tick? = none := by
  intro m hm
  cases a with
  | tick generation => exact absurd rfl (h generation)
  | answer place result =>
      obtain ⟨f, _, rfl⟩ := List.mem_map.mp hm
      split <;> rfl
  | save result =>
      obtain ⟨t, _, rfl⟩ := List.mem_map.mp hm
      rfl
  | _ => cases hm

theorem countP_unticked {s : Service κ} {a : Action κ} (h : ∀ generation, a ≠ .tick generation)
    (outcome : TickOutcome) : (s.entries a).countP (Meter.ticks outcome).counts = 0 := by
  rw [List.countP_eq_zero]
  intro m hm
  simp [Meter.ticks, entries_unticked h m hm]

/-- A tick that is acted on is counted once, by what became of it. -/
theorem ticks_entries (s : Service κ) (a : Action κ) :
    (s.entries a).countP (Meter.ticks .issued).counts +
        (s.entries a).countP (Meter.ticks .congested).counts +
        (s.entries a).countP (Meter.ticks .suppressed).counts =
      if s.actsOnTick a then 1 else 0 := by
  cases a with
  | tick generation =>
      cases htick : s.state.tick generation with
      | none => simp [entries, actsOnTick, htick]
      | some c =>
          have hentries : s.entries (.tick generation) = [.tick s.state.nextOutcome] := by
            simp [entries, htick]
          have hacts : s.actsOnTick (.tick generation) = true := by simp [actsOnTick, htick]
          rw [hentries, hacts]
          cases s.state.nextOutcome <;> rfl
  | _ => simp only [countP_unticked, ne_eq, reduceCtorEq, not_false_eq_true, implies_true,
      actsOnTick, Bool.false_eq_true, if_false]

/-- A save that ends is counted once, by whether it succeeded. -/
theorem saves_entries (s : Service κ) (a : Action κ) :
    (s.entries a).countP (Meter.saves true).counts +
        (s.entries a).countP (Meter.saves false).counts =
      if s.endsSave a then 1 else 0 := by
  cases a with
  | save result =>
      cases hwriting : s.writing with
      | none => simp [entries, endsSave, hwriting]
      | some t =>
          have hentries : s.entries (.save result) = [.storeOperation "save" result.isOk] := by
            simp [entries, hwriting]
          have hends : s.endsSave (.save result) = true := by simp [endsSave, hwriting]
          rw [hentries, hends]
          simp only [List.countP_cons, List.countP_nil, Meter.counts_save]
          cases result <;> rfl
  | tick generation =>
      cases htick : s.state.tick generation with
      | none => simp [entries, endsSave, htick]
      | some c => simp [entries, endsSave, htick, Meter.saves, Measurement.countsSave]
  | answer place result =>
      cases hplace : s.flights[place]? with
      | none => simp [entries, endsSave, hplace]
      | some f =>
          rcases entries_answer hplace result with ⟨hentries, _⟩ | ⟨hentries, _⟩ <;>
            rw [hentries] <;> rfl
  | _ => rfl

end Service

/-- A tick that is acted on issues a query if that is what becomes of it. -/
theorem State.issues_tick {s : State} {generation : UInt64} {c : Change}
    (h : s.tick generation = some c) :
    (Footprint.of c.effects).issues =
      if s.nextOutcome = .issued then [(.tick, s.cycle)] else [] := by
  simp only [tick] at h
  split at h
  · cases h
  · obtain rfl := Option.some.inj h
    simp only [Change.also, Footprint.of_append, nextOutcome]
    split <;> next houtcome => simp only [houtcome]; rfl

namespace Service

variable {κ : Type} [DecidableEq κ]

/-- Whether an action makes polling active that was stopped. -/
def resumes (s : Service κ) (a : Action κ) : Bool :=
  !s.state.record.active && (s.step a).state.record.active

/-- The queries of ticks are issued by the ticks that are counted so. -/
theorem issued_tick (s : Service κ) (a : Action κ) :
    (s.marks a).issued.countP (·.origin = .tick) =
      (s.entries a).countP (Meter.ticks .issued).counts := by
  by_cases hkind : ∃ generation, a = .tick generation
  · obtain ⟨generation, rfl⟩ := hkind
    cases htick : s.state.tick generation with
    | none => simp [marks, effects, entries, htick, Footprint.of_disarm]
    | some c =>
        have hissued : (s.marks (.tick generation)).issued =
            s.world.nextFlights (Footprint.of c.effects).issues := by
          simp only [marks, effects, htick]
        have hentries : s.entries (.tick generation) = [.tick s.state.nextOutcome] := by
          simp [entries, htick]
        rw [hissued, hentries, State.issues_tick htick]
        cases s.state.nextOutcome <;> rfl
  · have hother (generation : UInt64) : a ≠ .tick generation := fun h => hkind ⟨generation, h⟩
    rw [countP_unticked hother]
    cases s.turn a with
    | ticked haction _ _ _ => exact absurd haction (hother _)
    | started _ _ _ hmarks => simp [hmarks, next, Surroundings.nextFlight]
    | quiet _ hmarks => simp [hmarks]
    | obsolete _ _ _ _ hmarks => simp [hmarks]
    | stopped _ hmarks => simp [hmarks]
    | reset _ _ hmarks => simp [hmarks]
    | answered _ _ _ hmarks => simp [hmarks]

/-- The queries of starts are issued when polling becomes active. -/
theorem issued_eager (s : Service κ) (a : Action κ) :
    (s.marks a).issued.countP (·.origin = .eager) = if s.resumes a then 1 else 0 := by
  have hactive : (s.step a).state.record.active = (s.step a).view.active := rfl
  simp only [resumes, hactive]
  cases s.turn a with
  | quiet hview hmarks => simp [hview, hmarks, viewOf]
  | obsolete _ _ _ hview hmarks => simp [hview, hmarks, viewOf]
  | ticked _ hactive hview hmarks =>
      simp [hview, hmarks, View.issue, hactive, next, Surroundings.nextFlight]
  | started _ hstopped hview hmarks =>
      simp [hview, hmarks, View.arm, View.dispose, View.issue, hstopped, next,
        Surroundings.nextFlight]
  | stopped hview hmarks => simp [hview, hmarks, View.dispose]
  | reset hactive hview hmarks => simp [hview, hmarks, hactive]
  | answered f _ hview hmarks => simp [hview, hmarks, View.land, viewOf]

end Service
end Polling
end SearchPolling
