import SearchPolling.Proofs.Measuring.Overlap

/-!
# Gauges that are set with the state

Three gauges are set while the state is held: how many queries are outstanding, whether
polling is active, and whether it is congested.  No change sets all three, and some that
could change what they show set none: a start while polling is active, a tick of an obsolete
timer, an answer to a query that has been discarded.  That the gauges show the state all the
same is an invariant of the state with the registry, which every change keeps by setting
just the gauges of what it changes.
-/

namespace SearchPolling
namespace Polling

open Metrics (Measurement Registry)
open Effect (measurements)

/-- What the gauges show that are set with the state. -/
@[ext] structure Dials where
  inFlight : UInt64
  active : Bool
  congested : Bool

namespace Dials

/-- What the gauges should show of a state. -/
def ofState (s : State) : Dials :=
  ⟨s.outstanding.toUInt64, s.record.active, s.congested⟩

def ofRegistry (r : Registry) : Dials :=
  ⟨r.inFlight, r.active, r.congested⟩

def turn (k : Dials) : Measurement → Dials
  | .inFlight n => { k with inFlight := n }
  | .active b => { k with active := b }
  | .congested b => { k with congested := b }
  | _ => k

def turnAll (k : Dials) (ms : List Measurement) : Dials :=
  ms.foldl turn k

theorem ofRegistry_record (r : Registry) (m : Measurement) :
    ofRegistry (r.record m) = (ofRegistry r).turn m := by
  cases m <;> rfl

theorem ofRegistry_recordAll (r : Registry) (ms : List Measurement) :
    ofRegistry (r.recordAll ms) = (ofRegistry r).turnAll ms := by
  induction ms generalizing r with
  | nil => rfl
  | cons m ms ih =>
      have hnow := ofRegistry_record r m
      have hlater := ih (r.record m)
      rw [hnow] at hlater
      exact hlater

/-- What sets no gauge turns no dial. -/
theorem turnAll_of_not_gauge (k : Dials) {ms : List Measurement}
    (h : ∀ m ∈ ms, m.isGauge = false) : k.turnAll ms = k := by
  induction ms with
  | nil => rfl
  | cons m ms ih =>
      have hturn : k.turn m = k := by
        have hgauge := h m List.mem_cons_self
        cases m with
        | inFlight n => cases hgauge
        | active b => cases hgauge
        | congested b => cases hgauge
        | _ => rfl
      have hrest : ∀ n ∈ ms, n.isGauge = false := by
        intro n hn
        exact h n (List.mem_cons_of_mem m hn)
      show (k.turn m).turnAll ms = k
      rw [hturn, ih hrest]

/-! ## What each change sets -/

theorem turnAll_start (s : State) :
    (ofState s).turnAll (measurements s.start.effects) = ofState s.start.state := by
  rw [s.measurements_start]
  by_cases hactive : s.record.active
  · simp only [hactive, State.start, if_true]
    rfl
  · simp only [hactive, State.start]
    rfl

theorem turnAll_stop (s : State) :
    (ofState s).turnAll (measurements s.stop.effects) = ofState s.stop.state := by
  rw [s.measurements_stop]
  rfl

theorem turnAll_dropCycle (s : State) :
    (ofState s).turnAll (measurements s.dropCycle.effects) = ofState s.dropCycle.state := by
  rw [s.measurements_dropCycle]
  by_cases hactive : s.record.active
  · simp only [hactive, State.dropCycle, if_true]
    rfl
  · simp only [hactive, State.dropCycle]
    rfl

theorem turnAll_setInterval (s : State) (seconds : UInt64) :
    (ofState s).turnAll (measurements (s.setInterval seconds).effects) =
      ofState (s.setInterval seconds).state := by
  rw [s.measurements_setInterval, State.setInterval]
  by_cases hactive : s.record.active
  · rw [if_pos hactive, if_pos hactive]
    rfl
  · rw [if_neg hactive, if_neg hactive]
    rfl

theorem turnAll_tick {s : State} {generation : UInt64} {c : Change}
    (h : s.tick generation = some c) :
    (ofState s).turnAll (measurements c.effects) = ofState c.state := by
  rw [State.measurements_tick h, State.state_tick h]
  by_cases hissued : s.nextOutcome = .issued
  · rw [if_pos hissued, if_pos hissued]
    rfl
  · rw [if_neg hissued, if_neg hissued]
    rfl

theorem turnAll_retire (s : State) (cycle : UInt64) :
    (ofState s).turnAll (measurements (s.retire cycle).effects) =
      ofState (s.retire cycle).state := by
  rw [s.measurements_retire]
  by_cases hcurrent : s.isCurrent cycle
  · simp only [hcurrent, State.retire, if_true]
    rfl
  · simp only [hcurrent, State.retire]
    rfl

/-- Taking a snapshot is not shown. -/
theorem turnAll_call {s : State} {c : Command} {call : Call} (h : c.call s = .ok call) :
    (ofState s).turnAll (measurements call.change.effects) = ofState call.change.state := by
  cases c with
  | start =>
      obtain rfl := Except.ok.inj h
      exact turnAll_start s
  | stop persist =>
      obtain rfl := Except.ok.inj h
      cases persist <;> exact turnAll_stop s
  | setInterval seconds =>
      simp only [Command.call] at h
      split at h
      · cases h
      · obtain rfl := Except.ok.inj h
        exact turnAll_setInterval s seconds
  | suppress b =>
      obtain rfl := Except.ok.inj h
      rfl
  | dropCycle =>
      obtain rfl := Except.ok.inj h
      exact turnAll_dropCycle s
  | endSession =>
      obtain rfl := Except.ok.inj h
      by_cases hactive : s.record.active
      · rw [if_pos hactive]
        exact turnAll_stop s
      · rw [if_neg hactive]
        rfl

/-- What commands measure afterwards are other gauges. -/
theorem turnAll_measured (k : Dials) (o : OpenCall) : k.turnAll o.measured = k := by
  rw [o.measured_eq]
  cases o.command <;> rfl

end Dials

namespace Overlapping

variable {κ : Type} [DecidableEq κ]

/-- Everything is measured, and the gauges show the state. -/
structure Shown (d : Overlapping κ) : Prop where
  measured : d.service.placed.engine.measured = true
  dials : Dials.ofRegistry d.registry = Dials.ofState d.state

theorem dials_step {d : Overlapping κ} (h : d.Shown) (st : Stage κ) :
    Dials.ofRegistry (d.step st).registry = Dials.ofState (d.step st).state := by
  rw [registry_step h.measured, Dials.ofRegistry_recordAll, h.dials]
  cases d.advance st with
  | aside hstate hgauges _ _ =>
      rw [hstate]
      exact Dials.turnAll_of_not_gauge _ hgauges
  | @entered o hmet hstate hmeasured _ _ =>
      rw [hstate, hmeasured, ← hmet]
      exact Dials.turnAll_call o.call_eq
  | ticked htick hstate hmeasured _ _ =>
      rw [hstate, hmeasured]
      exact Dials.turnAll_tick htick
  | judged cycle hstate hmeasured _ _ =>
      rw [hstate, hmeasured]
      exact Dials.turnAll_retire _ _
  | finished hstate hmeasured _ _ =>
      rw [hstate, hmeasured]
      exact Dials.turnAll_measured _ _

theorem Shown.step {d : Overlapping κ} (h : d.Shown) (st : Stage κ) : (d.step st).Shown where
  measured := by rw [measured_step, h.measured]
  dials := dials_step h st

omit [DecidableEq κ] in
/-- A session begins stopped, with nothing outstanding, and so does a fresh registry. -/
theorem shown_opened {l : Launch} (hmeasured : l.measured = true)
    (hfresh : l.world.registry = .fresh) : (opened l : Overlapping κ).Shown where
  measured := l.measured_opened.trans hmeasured
  dials := by
    have hregistry : Dials.ofRegistry (opened l : Overlapping κ).registry =
        ⟨0, false, false⟩ := by
      show Dials.ofRegistry (l.opened : Service κ).world.registry = _
      rw [l.registry_opened hmeasured, Dials.ofRegistry_recordAll, hfresh, Launch.measuredFirst,
        Launch.measurements_opening]
      cases l.found.record? <;> rfl
    have hstate : Dials.ofState (opened l : Overlapping κ).state = ⟨0, false, false⟩ :=
      congrArg Dials.ofState l.state_opened
    rw [hregistry, hstate]

/-- What leaves the state alone leaves its gauges alone. -/
theorem Shown.dials_of_state {d : Overlapping κ} (h : d.Shown) {st : Stage κ}
    (hstate : (d.step st).state = d.state) :
    Dials.ofRegistry (d.step st).registry = Dials.ofRegistry d.registry := by
  rw [dials_step h st, hstate, h.dials]

theorem state_step_tick_obsolete {d : Overlapping κ} {generation : UInt64}
    (h : d.state.generation ≠ generation ∨ d.state.record.active = false) :
    (d.step (.enter (.act (.tick generation)))).state = d.state := by
  have hnone := (Service.tick_eq_none_iff d.state generation).mpr h
  refine (d.service.state_step (.tick generation)).trans ?_
  simp only [Service.base, hnone]

theorem state_step_answer_discarded {d : Overlapping κ} {place : Nat} {f : Flight}
    (hplace : d.service.flights[place]? = some f) (hcycle : d.state.cycle ≠ f.cycle)
    (result : Except Search.Failure Search.Response) :
    (d.step (.enter (.act (.answer place result)))).state = d.state := by
  have hother : d.state.isCurrent f.cycle = false := decide_eq_false hcycle
  have hsame : (d.state.retire f.cycle).state = d.state := by simp [State.retire, hother]
  simp only [step, Lagging.step, Lagging.judge, hplace]
  exact (Engine.performAll_state _ _).trans hsame

theorem state_step_tell (d : Overlapping κ) (place : Nat) :
    (d.step (.enter (.tell place))).state = d.state := by
  simp only [step, Lagging.step, Lagging.tell]
  split
  · rfl
  · exact Engine.performAll_state _ _

end Overlapping

open Overlapping in
/-- After every stage of every run, in whatever order critical sections and remainders of
calls, ticks, answers and their telling come, the gauges that are set with the state show
the state; the first start is a call like any other.  An obsolete tick, an answer to a query
that has been discarded, and the telling of any answer leave them as they are. -/
theorem gauges_show_state {κ : Type} [DecidableEq κ] (l : Launch) (hmeasured : l.measured = true)
    (hfresh : l.world.registry = .fresh) (stages : List (Stage κ)) :
    let d := (opened l).run stages
    (d.registry.inFlight = d.state.outstanding.toUInt64 ∧
        (d.state.outstanding < 2 ^ 64 → d.registry.inFlight.toNat = d.state.outstanding)) ∧
      d.registry.active = d.state.record.active ∧
      d.registry.congested = d.state.congested ∧
      (∀ generation, d.state.generation ≠ generation ∨ d.state.record.active = false →
        Dials.ofRegistry (d.step (.enter (.act (.tick generation)))).registry =
          Dials.ofRegistry d.registry) ∧
      (∀ place f, d.service.flights[place]? = some f → d.state.cycle ≠ f.cycle → ∀ result,
        Dials.ofRegistry (d.step (.enter (.act (.answer place result)))).registry =
          Dials.ofRegistry d.registry) ∧
      ∀ place, Dials.ofRegistry (d.step (.enter (.tell place))).registry =
        Dials.ofRegistry d.registry := by
  intro d
  have hshown : d.Shown :=
    Overlapping.run_preserves (P := Shown) (fun _ st h => h.step st)
      (shown_opened hmeasured hfresh) stages
  have hinFlight : d.registry.inFlight = d.state.outstanding.toUInt64 :=
    congrArg Dials.inFlight hshown.dials
  refine ⟨⟨hinFlight, ?_⟩, congrArg Dials.active hshown.dials,
    congrArg Dials.congested hshown.dials, ?_, ?_, ?_⟩
  · intro hbound
    rw [hinFlight]
    exact UInt64.toNat_ofNat_of_lt' hbound
  · intro generation hobsolete
    exact hshown.dials_of_state (state_step_tick_obsolete hobsolete)
  · intro place f hplace hcycle result
    exact hshown.dials_of_state (state_step_answer_discarded hplace hcycle result)
  · intro place
    exact hshown.dials_of_state (d.state_step_tell place)

/-- A start that has not returned is overtaken by a reset, by the answer to the query that it
discards, and by two ticks of the new timer, the second of which finds the query of the first
outstanding. -/
theorem gauges_show_congestion :
    let stages : List (Stage Unit) :=
      [.enter (.act (.command .start)), .enter (.act (.command .dropCycle)),
        .enter (.act (.tick 2)), .enter (.act (.answer 0 (.error .timeout))), .finish 1,
        .enter (.tell 0), .enter (.act (.tick 2))]
    let d := (Overlapping.opened .standard).run stages
    Launch.standard.measured = true ∧ Launch.standard.world.registry = .fresh ∧
      d.calls.length = 1 ∧ d.registry.inFlight.toNat = 1 ∧ d.registry.active = true ∧
      d.registry.congested = true := by
  intro stages d
  obtain ⟨⟨-, hinFlight⟩, hactive, hcongested, -⟩ :=
    gauges_show_state Launch.standard rfl rfl stages
  have houtstanding : d.state.outstanding = 1 := by decide
  refine ⟨rfl, rfl, by decide, ?_, ?_, ?_⟩
  · have hbound : d.state.outstanding < 2 ^ 64 := by
      rw [houtstanding]
      decide
    exact (hinFlight hbound).trans houtstanding
  · exact hactive.trans (by decide)
  · exact hcongested.trans (by decide)

end Polling
end SearchPolling
