import Mathlib.Data.List.Perm.Basic
import SearchPolling.Proofs.Measuring.Overlap
import SearchPolling.Proofs.Service.Record

/-!
# Gauges that are set afterwards

Whether polling is suppressed and which interval it has is set in a critical section, but the
gauges that show it are set when that section is over.  In between another call may set the
same and show it first.  So the state holds the value that was set last, a gauge shows the
value that was told last, and although every value that is set is told once, the two orders
need not be the same: all calls may have returned, and a gauge be wrong until the next one.

As long as no call overtakes another that sets the same, the values are told in the order in
which they were set, and a gauge is right whenever nothing is untold.
-/

namespace SearchPolling

/-- Whether a measurement sets a gauge that is set afterwards. -/
def Metrics.Measurement.isLate : Metrics.Measurement → Bool
  | .suppressed _ => true
  | .refreshInterval _ => true
  | _ => false

namespace Polling

open Metrics (Measurement Registry)
open Effect (measurements)

/-- A gauge that a call sets when its critical section is over. -/
structure LateGauge (α : Type) where
  read : Registry → α
  held : State → α
  /-- The value that a command sets if it is carried out. -/
  sets? : Command → Option α
  shows? : Measurement → Option α
  read_record : ∀ r m, read (r.record m) = (shows? m).getD (read r)
  shows_of_not_late : ∀ m, m.isLate = false → shows? m = none
  shows_afterwards : ∀ c, c.measuredAfterwards.filterMap shows? = (sets? c).toList
  held_congr : ∀ s t, s.suppressed = t.suppressed →
    s.record.refreshInterval = t.record.refreshInterval → held s = held t
  held_call : ∀ s c call, Command.call s c = .ok call →
    held call.change.state = (sets? c).getD (held s)

/-! ## What critical sections leave to be done afterwards -/

theorem not_late_of_not_gauge {m : Measurement} (h : m.isGauge = false) : m.isLate = false := by
  cases m with
  | suppressed b => cases h
  | refreshInterval seconds => cases h
  | _ => rfl

theorem Command.not_late_inside (s : State) (c : Command) :
    ∀ m ∈ c.measuredInside s, m.isLate = false := by
  intro m hm
  rcases mem_measuredInside hm with ⟨n, rfl⟩ | ⟨b, rfl⟩ <;> rfl

namespace State

theorem not_late_tick {s : State} {generation : UInt64} {c : Change}
    (h : s.tick generation = some c) : ∀ m ∈ measurements c.effects, m.isLate = false := by
  intro m hm
  rw [measurements_tick h] at hm
  rcases List.mem_append.mp hm with hissued | htold
  · split at hissued
    · rw [List.mem_singleton.mp hissued]
      rfl
    · cases hissued
  · simp only [List.mem_cons, List.not_mem_nil, or_false] at htold
    rcases htold with rfl | rfl <;> rfl

theorem not_late_retire (s : State) (cycle : UInt64) :
    ∀ m ∈ measurements (s.retire cycle).effects, m.isLate = false := by
  intro m hm
  rw [measurements_retire] at hm
  split at hm
  · rw [List.mem_singleton.mp hm]
    rfl
  · cases hm

theorem suppressed_retire (s : State) (cycle : UInt64) :
    (s.retire cycle).state.suppressed = s.suppressed := by
  simp only [retire]
  split <;> rfl

theorem suppressed_start (s : State) : s.start.state.suppressed = s.suppressed := by
  simp only [start]
  split <;> rfl

theorem suppressed_setInterval (s : State) (seconds : UInt64) :
    (s.setInterval seconds).state.suppressed = s.suppressed := by
  simp only [setInterval]
  split <;> rfl

theorem suppressed_dropCycle (s : State) : s.dropCycle.state.suppressed = s.suppressed := by
  simp only [dropCycle]
  split <;> rfl

end State

/-- A command sets nothing that is shown afterwards but what it was asked to set. -/
theorem Command.suppressed_call {s : State} {c : Command} {call : Call} (h : c.call s = .ok call) :
    call.change.state.suppressed =
      match c with
      | .suppress b => b
      | _ => s.suppressed := by
  cases c with
  | start =>
      obtain rfl := Except.ok.inj h
      exact s.suppressed_start
  | stop persist =>
      obtain rfl := Except.ok.inj h
      cases persist <;> rfl
  | setInterval seconds =>
      simp only [Command.call] at h
      split at h
      · cases h
      · obtain rfl := Except.ok.inj h
        exact s.suppressed_setInterval seconds
  | suppress b =>
      obtain rfl := Except.ok.inj h
      rfl
  | dropCycle =>
      obtain rfl := Except.ok.inj h
      exact s.suppressed_dropCycle
  | endSession =>
      obtain rfl := Except.ok.inj h
      split <;> rfl

namespace LateGauge

variable {α : Type}

def suppression : LateGauge Bool where
  read := (·.suppressed)
  held := (·.suppressed)
  sets?
    | .suppress b => some b
    | _ => none
  shows?
    | .suppressed b => some b
    | _ => none
  read_record r m := by cases m <;> rfl
  shows_of_not_late m h := by
    cases m with
    | suppressed b => cases h
    | _ => rfl
  shows_afterwards c := by cases c <;> rfl
  held_congr _ _ h _ := h
  held_call s c call h := by
    rw [Command.suppressed_call h]
    cases c <;> rfl

def interval : LateGauge UInt64 where
  read := (·.refreshInterval)
  held := (·.record.refreshInterval)
  sets?
    | .setInterval seconds => some seconds
    | _ => none
  shows?
    | .refreshInterval seconds => some seconds
    | _ => none
  read_record r m := by cases m <;> rfl
  shows_of_not_late m h := by
    cases m with
    | refreshInterval seconds => cases h
    | _ => rfl
  shows_afterwards c := by cases c <;> rfl
  held_congr _ _ _ h := h
  held_call s c call h := by
    rw [Command.record_call h]
    cases c with
    | setInterval seconds =>
        have haccepted : (checkInterval seconds).isOk = true := by
          simp only [Command.call] at h
          split at h
          · cases h
          · next hcheck => rw [hcheck]; rfl
        simp [Command.revise, haccepted]
    | _ => rfl

variable (g : LateGauge α)

theorem read_recordAll (r : Registry) (ms : List Measurement) :
    g.read (r.recordAll ms) = (ms.filterMap g.shows?).getLast?.getD (g.read r) := by
  induction ms generalizing r with
  | nil => rfl
  | cons m ms ih =>
      have hlater : g.read (r.recordAll (m :: ms)) =
          (ms.filterMap g.shows?).getLast?.getD (g.read (r.record m)) := ih (r.record m)
      rw [hlater, g.read_record]
      cases hshows : g.shows? m with
      | none => rw [List.filterMap_cons_none hshows, Option.getD_none]
      | some x =>
          rw [List.filterMap_cons_some hshows, List.getLast?_cons, Option.getD_some,
            Option.getD_some]

theorem shows_nothing {ms : List Measurement} (h : ∀ m ∈ ms, m.isLate = false) :
    ms.filterMap g.shows? = [] := by
  rw [List.filterMap_eq_nil_iff]
  intro m hm
  exact g.shows_of_not_late m (h m hm)

/-- The value that a call sets, and tells when its critical section is over. -/
def value? (o : OpenCall) : Option α :=
  g.sets? o.command

variable {κ : Type}

/-- The values that are set but have not been told. -/
def untold (d : Overlapping κ) : List α :=
  d.calls.filterMap g.value?

def set (d : Overlapping κ) (st : Stage κ) : List α :=
  (d.opens st).filterMap g.value?

def told (d : Overlapping κ) (st : Stage κ) : List α :=
  (d.returns st).filterMap g.value?

/-- The values that were set before the one that a stage tells, but have not been told. -/
def overtaken (d : Overlapping κ) : Stage κ → List α
  | .enter _ => []
  | .finish place =>
    if (d.calls[place]?.bind g.value?).isSome then (d.calls.take place).filterMap g.value? else []

variable [DecidableEq κ]

/-- What a stage does to the state and to a gauge. -/
theorem held_step (d : Overlapping κ) (st : Stage κ) :
    g.held (d.step st).state = (g.set d st).getLast?.getD (g.held d.state) := by
  rw [set]
  cases d.advance st with
  | aside hstate _ hopens _ => rw [hstate, hopens]; rfl
  | @entered o hmet hstate _ hopens _ =>
      rw [hstate, hopens, g.held_call o.met o.command o.call o.call_eq, hmet]
      cases hvalue : g.sets? o.command <;> simp [value?, hvalue]
  | ticked htick hstate _ hopens _ =>
      rw [hstate, hopens, State.state_tick htick]
      exact g.held_congr _ _ rfl rfl
  | judged cycle hstate _ hopens _ =>
      rw [hstate, hopens]
      exact g.held_congr _ _ (d.state.suppressed_retire cycle)
        (congrArg Record.refreshInterval (d.state.record_retire cycle))
  | finished hstate _ hopens _ => rw [hstate, hopens]; rfl

theorem read_step {d : Overlapping κ} (h : d.service.placed.engine.measured = true)
    (st : Stage κ) :
    g.read (d.step st).registry = (g.told d st).getLast?.getD (g.read d.registry) := by
  rw [Overlapping.registry_step h, read_recordAll, told]
  cases d.advance st with
  | aside _ hgauges _ hreturns =>
      rw [hreturns, g.shows_nothing fun m hm => not_late_of_not_gauge (hgauges m hm)]
      rfl
  | @entered o _ _ hmeasured _ hreturns =>
      have hinside := (Command.measurements_call o.call_eq).1
      rw [hreturns, hmeasured, hinside, g.shows_nothing (o.command.not_late_inside o.met)]
      rfl
  | ticked htick _ hmeasured _ hreturns =>
      rw [hreturns, hmeasured, g.shows_nothing (State.not_late_tick htick)]
      rfl
  | judged cycle _ hmeasured _ hreturns =>
      rw [hreturns, hmeasured, g.shows_nothing (d.state.not_late_retire cycle)]
      rfl
  | @finished o _ hmeasured _ hreturns =>
      rw [hreturns, hmeasured, o.measured_eq, g.shows_afterwards]
      cases hvalue : g.sets? o.command <;> simp [value?, hvalue]

theorem untold_enter (d : Overlapping κ) (m : Move κ) :
    g.untold (d.step (.enter m)) = g.untold d ++ g.set d (.enter m) := by
  rw [untold, d.calls_enter m, List.filterMap_append]
  rfl

/-- A call that ends takes its value out from between those of the others. -/
theorem untold_finish {d : Overlapping κ} {place : Nat} {o : OpenCall}
    (h : d.calls[place]? = some o) :
    g.untold d = (d.calls.take place).filterMap g.value? ++
        ((g.value? o).toList ++ (d.calls.drop (place + 1)).filterMap g.value?) ∧
      g.untold (d.step (.finish place)) = (d.calls.take place).filterMap g.value? ++
        (d.calls.drop (place + 1)).filterMap g.value? ∧
      g.told d (.finish place) = (g.value? o).toList := by
  refine ⟨?_, ?_, ?_⟩
  · have hsplit : d.calls = d.calls.take place ++ o :: d.calls.drop (place + 1) := by
      obtain ⟨hlt, rfl⟩ := List.getElem?_eq_some_iff.mp h
      rw [List.getElem_cons_drop, List.take_append_drop]
    calc g.untold d
        = (d.calls.take place ++ o :: d.calls.drop (place + 1)).filterMap g.value? :=
          congrArg (List.filterMap g.value?) hsplit
      _ = _ := by
          rw [List.filterMap_append]
          cases hvalue : g.value? o with
          | none => rw [List.filterMap_cons_none hvalue]; rfl
          | some x => rw [List.filterMap_cons_some hvalue]; rfl
  · rw [untold, d.calls_finish, List.eraseIdx_eq_take_drop_succ, List.filterMap_append]
  · cases hvalue : g.value? o <;> simp [told, Overlapping.returns, h, hvalue]

theorem untold_finish_of_none {d : Overlapping κ} {place : Nat} (h : d.calls[place]? = none) :
    g.told d (.finish place) = [] ∧ g.untold (d.step (.finish place)) = g.untold d := by
  have hlength : d.calls.length ≤ place := List.getElem?_eq_none_iff.mp h
  constructor
  · simp [told, Overlapping.returns, h]
  · rw [untold, d.calls_finish, List.eraseIdx_of_length_le hlength, untold]

/-- A value that a call sets is told when the call ends, or stays untold. -/
theorem untold_step (d : Overlapping κ) (st : Stage κ) :
    (g.told d st ++ g.untold (d.step st)).Perm (g.untold d ++ g.set d st) := by
  cases st with
  | enter m =>
      rw [g.untold_enter]
      exact .refl _
  | finish place =>
      have hset : g.set d (.finish place) = [] := rfl
      rw [hset, List.append_nil]
      cases hplace : d.calls[place]? with
      | none =>
          obtain ⟨htold, hsame⟩ := g.untold_finish_of_none hplace
          rw [htold, hsame]
          exact .refl _
      | some o =>
          obtain ⟨hbefore, hafter, htold⟩ := g.untold_finish hplace
          rw [hbefore, hafter, htold]
          exact List.perm_append_comm_assoc _ _ _

/-- If nothing is overtaken, the value that is told was set before all that stay untold. -/
theorem untold_step_in_order {d : Overlapping κ} {st : Stage κ} (h : g.overtaken d st = []) :
    g.told d st ++ g.untold (d.step st) = g.untold d ++ g.set d st := by
  cases st with
  | enter m =>
      rw [g.untold_enter]
      rfl
  | finish place =>
      have hset : g.set d (.finish place) = [] := rfl
      rw [hset, List.append_nil]
      cases hplace : d.calls[place]? with
      | none =>
          obtain ⟨htold, hsame⟩ := g.untold_finish_of_none hplace
          rw [htold, hsame]
          rfl
      | some o =>
          obtain ⟨hbefore, hafter, htold⟩ := g.untold_finish hplace
          rw [hbefore, hafter, htold]
          cases hvalue : g.value? o with
          | none => rfl
          | some x =>
              have hnone : (d.calls.take place).filterMap g.value? = [] := by
                simpa [overtaken, hplace, hvalue] using h
              rw [hnone]
              rfl

/-- How a gauge and the state go on in a run. -/
structure Follows (d : Overlapping κ) (stages : List (Stage κ)) : Prop where
  /-- The state holds what was set last. -/
  held : g.held (d.run stages).state = (d.along g.set stages).getLast?.getD (g.held d.state)
  /-- The gauge shows what was told last. -/
  shown : g.read (d.run stages).registry =
    (d.along g.told stages).getLast?.getD (g.read d.registry)
  told_once : (d.along g.told stages ++ g.untold (d.run stages)).Perm
    (g.untold d ++ d.along g.set stages)
  in_order : d.along g.overtaken stages = [] →
    d.along g.told stages ++ g.untold (d.run stages) = g.untold d ++ d.along g.set stages

theorem follows {d : Overlapping κ} (h : d.service.placed.engine.measured = true)
    (stages : List (Stage κ)) : g.Follows d stages := by
  induction stages generalizing d with
  | nil =>
      constructor
      · rfl
      · rfl
      · exact .of_eq (List.append_nil _).symm
      · intro _
        exact (List.append_nil _).symm
  | cons st stages ih =>
      have hmeasured : (d.step st).service.placed.engine.measured = true := by
        rw [d.measured_step, h]
      have hlater := ih hmeasured
      constructor
      · rw [Overlapping.run_cons, hlater.held, g.held_step, Overlapping.along,
          List.getLast?_append, Option.getD_or]
      · rw [Overlapping.run_cons, hlater.shown, g.read_step h, Overlapping.along,
          List.getLast?_append, Option.getD_or]
      · have hrest := hlater.told_once.append_left (g.told d st)
        have hnow := (g.untold_step d st).append_right ((d.step st).along g.set stages)
        simp only [← List.append_assoc] at hrest
        simpa only [Overlapping.along, Overlapping.run_cons, List.append_assoc] using
          hrest.trans hnow
      · intro hovertaken
        obtain ⟨hnow, hrest⟩ := List.append_eq_nil_iff.mp hovertaken
        have horder := hlater.in_order hrest
        calc d.along g.told (st :: stages) ++ g.untold (d.run (st :: stages))
            = g.told d st ++ ((d.step st).along g.told stages ++
                g.untold ((d.step st).run stages)) := List.append_assoc _ _ _
          _ = (g.told d st ++ g.untold (d.step st)) ++ (d.step st).along g.set stages := by
              rw [horder, List.append_assoc]
          _ = g.untold d ++ d.along g.set (st :: stages) := by
              rw [g.untold_step_in_order hnow, List.append_assoc]
              rfl

/-- A gauge that was right when nothing was untold is right again when nothing is, unless a
call has overtaken another. -/
theorem Follows.right_again {g : LateGauge α} {d : Overlapping κ} {stages : List (Stage κ)}
    (h : g.Follows d stages) (hfirst : g.read d.registry = g.held d.state) (hnone : d.calls = [])
    (hcalls : (d.run stages).calls = []) (hovertaken : d.along g.overtaken stages = []) :
    g.read (d.run stages).registry = g.held (d.run stages).state := by
  have hbefore : g.untold d = [] := by simp [untold, hnone]
  have hafter : g.untold (d.run stages) = [] := by simp [untold, hcalls]
  have hsame : d.along g.told stages = d.along g.set stages := by
    simpa only [hbefore, hafter, List.append_nil, List.nil_append] using h.in_order hovertaken
  rw [h.shown, h.held, hsame, hfirst]

end LateGauge

/-- A service that has taken over what was found shows the interval that it has, and that it
is not suppressed. -/
theorem late_gauges_opened {κ : Type} {l : Launch} (hmeasured : l.measured = true) :
    (Overlapping.opened l : Overlapping κ).registry.suppressed =
        (Overlapping.opened l : Overlapping κ).state.suppressed ∧
      (Overlapping.opened l : Overlapping κ).registry.refreshInterval =
        (Overlapping.opened l : Overlapping κ).state.record.refreshInterval := by
  show (l.opened : Service κ).world.registry.suppressed = (l.opened : Service κ).state.suppressed ∧
    (l.opened : Service κ).world.registry.refreshInterval =
      (l.opened : Service κ).state.record.refreshInterval
  rw [l.registry_opened hmeasured, l.state_opened, Launch.measuredFirst,
    Launch.measurements_opening, Launch.state_opening, Launch.firstRecord]
  cases l.found.record? with
  | none => exact ⟨rfl, rfl⟩
  | some record => exact ⟨rfl, rfl⟩

/-! ## All calls have returned -/

/-- Every call has returned. -/
def Overlapping.IsSettled {κ : Type} (d : Overlapping κ) : Prop :=
  d.calls = [] ∧ d.service.waiting = [] ∧ d.service.writing = none

/-- Whether a stage belongs to a call that suppresses polling or sets its interval. -/
def Stage.isOfOperator {κ : Type} : Stage κ → Bool
  | .enter (.act (.command (.suppress _))) => true
  | .enter (.act (.command (.setInterval seconds))) => (checkInterval seconds).isOk
  | .enter (.act (.claim _)) => true
  | .enter (.act (.save _)) => true
  | .finish _ => true
  | _ => false

open Overlapping LateGauge in
/-- In every run, be there other calls or none, the state holds the value that was set last
and the gauge shows the one that was told last.  Every value that is set is told once, so
when all calls have returned, values told in the order in which they were set leave both
gauges right. -/
theorem late_gauges_show_last_told {κ : Type} [DecidableEq κ] (l : Launch)
    (hmeasured : l.measured = true) (stages : List (Stage κ)) :
    let d := opened l
    let e := d.run stages
    (d.registry.suppressed = d.state.suppressed ∧
        d.registry.refreshInterval = d.state.record.refreshInterval) ∧
      suppression.Follows d stages ∧ interval.Follows d stages ∧
      (e.IsSettled → d.along suppression.overtaken stages = [] →
        e.registry.suppressed = e.state.suppressed) ∧
      (e.IsSettled → d.along interval.overtaken stages = [] →
        e.registry.refreshInterval = e.state.record.refreshInterval) := by
  intro d e
  have hfirst := late_gauges_opened (κ := κ) hmeasured
  have hopened : d.service.placed.engine.measured = true := l.measured_opened.trans hmeasured
  have hsuppression := suppression.follows hopened stages
  have hinterval := interval.follows hopened stages
  refine ⟨hfirst, hsuppression, hinterval, ?_, ?_⟩
  · intro hsettled hovertaken
    exact hsuppression.right_again hfirst.1 rfl hsettled.1 hovertaken
  · intro hsettled hovertaken
    exact hinterval.right_again hfirst.2 rfl hsettled.1 hovertaken

/-- Of two calls the first to set whether polling is suppressed is the last to tell; the two
that set the interval in between tell in their order. -/
theorem late_gauges_after_overtaking :
    let stages : List (Stage Unit) :=
      [.enter (.act (.command (.suppress true))), .enter (.act (.command (.setInterval 5))),
        .enter (.act (.command (.suppress false))), .enter (.act (.command (.setInterval 7))),
        .finish 2, .finish 1, .finish 1, .enter (.act (.claim 0)), .enter (.act (.save (.ok ()))),
        .enter (.act (.claim 0)), .enter (.act (.save (.ok ()))), .finish 0]
    let e := (Overlapping.opened .standard).run stages
    Launch.standard.measured = true ∧ e.IsSettled ∧ e.state.suppressed = false ∧
      e.registry.suppressed = true ∧ e.registry.refreshInterval = e.state.record.refreshInterval ∧
      e.state.record.refreshInterval = 7 := by
  intro stages e
  obtain ⟨-, hsuppression, hinterval, -, hright⟩ :=
    late_gauges_show_last_told Launch.standard rfl stages
  have hsettled : e.IsSettled := ⟨rfl, rfl, rfl⟩
  refine ⟨rfl, hsettled, hsuppression.held.trans ?_, hsuppression.shown.trans ?_,
    hright hsettled ?_, hinterval.held.trans ?_⟩
  · decide
  · decide
  · decide
  · decide

/-- It is not so that both gauges are right whenever all calls have returned that suppress
polling or set its interval: neither is. -/
theorem late_gauges_left_behind :
    (¬ ∀ (l : Launch) (stages : List (Stage Unit)), l.measured = true →
        (∀ st ∈ stages, st.isOfOperator = true) →
        let d := (Overlapping.opened l).run stages
        d.IsSettled → (d.registry.suppressed = true ↔ d.state.suppressed = true)) ∧
      ¬ ∀ (l : Launch) (stages : List (Stage Unit)), l.measured = true →
        (∀ st ∈ stages, st.isOfOperator = true) →
        let d := (Overlapping.opened l).run stages
        d.IsSettled → d.registry.refreshInterval = d.state.record.refreshInterval := by
  constructor
  · intro h
    have hwrong := h .standard
      [.enter (.act (.command (.suppress true))), .enter (.act (.command (.suppress false))),
        .finish 1, .finish 0] rfl (by decide) ⟨rfl, rfl, rfl⟩
    revert hwrong
    decide
  · intro h
    have hwrong := h .standard
      [.enter (.act (.command (.setInterval 5))), .enter (.act (.command (.setInterval 7))),
        .finish 1, .finish 0, .enter (.act (.claim 0)), .enter (.act (.save (.ok ()))),
        .enter (.act (.claim 0)), .enter (.act (.save (.ok ())))] rfl (by decide) ⟨rfl, rfl, rfl⟩
    revert hwrong
    decide

end Polling
end SearchPolling
