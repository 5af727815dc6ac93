import SearchPolling.Proofs.Service.Basic

/-!
# What effects do

An action first changes the engine in silence (its state, who writes, when a timer is
due, which query has landed) and then lets its effects take place.  This module says
what a list of effects does to each part of an engine in its surroundings, and splits
every step into these two halves.
-/

namespace SearchPolling
namespace Polling

namespace Effect

def issue? : Effect → Option (Origin × UInt64)
  | issue origin cycle => some (origin, cycle)
  | _ => none

def armed? : Effect → Option UInt64
  | arm generation _ => some generation
  | _ => none

def event? : Effect → Option Event
  | publish e => some e
  | _ => none

def measurement? : Effect → Option Metrics.Measurement
  | measure m => some m
  | _ => none

/-- The origin of the query that an effect counts as discarded. -/
def discarded? : Effect → Option Origin
  | measure (.queryDiscarded origin) => some origin
  | _ => none

/-- The generations of the timers whose loops go on after an effect. -/
def running (generations : List UInt64) : Effect → List UInt64
  | arm generation _ => generations ++ [generation]
  | disarm generation => generations.filter (· ≠ generation)
  | _ => generations

end Effect

/-- What effects mean to queries and timers. -/
@[ext] structure Footprint where
  /-- The queries that are issued. -/
  issues : List (Origin × UInt64)
  /-- The generations of the timers that are armed. -/
  armed : List UInt64
  /-- Which of the given timers, and which others, go on. -/
  running : List UInt64 → List UInt64

namespace Footprint

/-- The footprint of effects that leave queries and timers alone. -/
def none : Footprint :=
  ⟨[], [], id⟩

def of (es : List Effect) : Footprint where
  issues := es.filterMap Effect.issue?
  armed := es.filterMap Effect.armed?
  running generations := es.foldl Effect.running generations

def andThen (p q : Footprint) : Footprint :=
  ⟨p.issues ++ q.issues, p.armed ++ q.armed, q.running ∘ p.running⟩

@[simp] theorem none_andThen (p : Footprint) : none.andThen p = p := rfl

@[simp] theorem andThen_none (p : Footprint) : p.andThen none = p := by
  simp [none, andThen]

@[simp] theorem of_nil : of [] = none := rfl

theorem of_append (es fs : List Effect) : of (es ++ fs) = (of es).andThen (of fs) := by
  ext <;> simp [of, andThen]

theorem of_arm (generation period : UInt64) :
    of [.arm generation period] = ⟨[], [generation], (· ++ [generation])⟩ := rfl

theorem of_disarm (generation : UInt64) :
    of [.disarm generation] = ⟨[], [], (·.filter (· ≠ generation))⟩ := rfl

@[simp] theorem of_note (n : Notice) (es : List Effect) : of (.note n :: es) = of es := rfl

@[simp] theorem of_measure (m : Metrics.Measurement) (es : List Effect) :
    of (.measure m :: es) = of es := rfl

end Footprint

namespace Surroundings

/-- The queries that are issued from now on, one after another. -/
def nextFlights (w : Surroundings) (issues : List (Origin × UInt64)) : List Flight :=
  issues.zipIdx.map fun i => { w with issued := w.issued + i.2 }.nextFlight i.1.1 i.1.2

@[simp] theorem nextFlights_nil (w : Surroundings) : w.nextFlights [] = [] := rfl

@[simp] theorem nextFlights_singleton (w : Surroundings) (i : Origin × UInt64) :
    w.nextFlights [i] = [w.nextFlight i.1 i.2] := rfl

theorem nextFlights_cons (w v : Surroundings) (i : Origin × UInt64)
    (issues : List (Origin × UInt64)) (hissued : v.issued = w.issued + 1)
    (hnow : v.now = w.now) (hdescriptor : v.descriptor = w.descriptor) :
    w.nextFlights (i :: issues) = w.nextFlight i.1 i.2 :: v.nextFlights issues := by
  simp only [nextFlights, List.zipIdx_cons', List.map_cons, List.map_map]
  congr 1
  apply List.map_congr_left
  intro x _
  simp [nextFlight, hissued, hnow, hdescriptor, Nat.add_comm, Nat.add_left_comm]

end Surroundings

namespace Engine

variable {κ : Type}

@[simp] theorem performAll_nil (p : Placed κ) : performAll p [] = p := rfl

@[simp] theorem performAll_cons (p : Placed κ) (e : Effect) (es : List Effect) :
    performAll p (e :: es) = performAll (perform p e) es := rfl

theorem performAll_append (p : Placed κ) (es fs : List Effect) :
    performAll p (es ++ fs) = performAll (performAll p es) fs :=
  List.foldl_append

/-- What no effect changes is not changed by effects in their order. -/
theorem performAll_preserves {α : Type} (part : Placed κ → α)
    (h : ∀ p e, part (perform p e) = part p) (p : Placed κ) (es : List Effect) :
    part (performAll p es) = part p := by
  induction es generalizing p with
  | nil => rfl
  | cons e es ih => rw [performAll_cons, ih, h]

@[simp] theorem performAll_state (p : Placed κ) (es : List Effect) :
    (performAll p es).engine.state = p.engine.state := by
  refine performAll_preserves (·.engine.state) (fun p e => ?_) p es
  cases e with
  | measure m => simp only [perform]; split <;> rfl
  | _ => rfl

@[simp] theorem performAll_writer (p : Placed κ) (es : List Effect) :
    (performAll p es).engine.writer = p.engine.writer := by
  refine performAll_preserves (·.engine.writer) (fun p e => ?_) p es
  cases e with
  | measure m => simp only [perform]; split <;> rfl
  | _ => rfl

@[simp] theorem performAll_stateKey (p : Placed κ) (es : List Effect) :
    (performAll p es).engine.stateKey = p.engine.stateKey := by
  refine performAll_preserves (·.engine.stateKey) (fun p e => ?_) p es
  cases e with
  | measure m => simp only [perform]; split <;> rfl
  | _ => rfl

@[simp] theorem performAll_now (p : Placed κ) (es : List Effect) :
    (performAll p es).world.now = p.world.now := by
  refine performAll_preserves (·.world.now) (fun p e => ?_) p es
  cases e with
  | measure m => simp only [perform]; split <;> rfl
  | publish e => simp only [perform, publish]; split <;> rfl
  | _ => rfl

@[simp] theorem perform_measured (p : Placed κ) (e : Effect) :
    (perform p e).engine.measured = p.engine.measured := by
  cases e with
  | measure m => simp only [perform]; split <;> rfl
  | _ => rfl

/-- Effects put the queries that they issue on their way, behind the others. -/
theorem performAll_flights (p : Placed κ) (es : List Effect) :
    (performAll p es).engine.flights =
        p.engine.flights ++ p.world.nextFlights (es.filterMap Effect.issue?) ∧
      (performAll p es).world.issued =
        p.world.issued + (es.filterMap Effect.issue?).length := by
  induction es generalizing p with
  | nil => simp
  | cons e es ih =>
      obtain ⟨hflights, hissued⟩ := ih (perform p e)
      rw [performAll_cons, hflights, hissued]
      cases e with
      | issue origin cycle =>
          have hcons := Surroundings.nextFlights_cons p.world
            (perform p (.issue origin cycle)).world (origin, cycle)
            (es.filterMap Effect.issue?) rfl rfl rfl
          rw [List.filterMap_cons_some (by rfl), hcons]
          refine ⟨?_, ?_⟩
          · simp [perform]
          · simp [perform, Surroundings.sendOff, Surroundings.say]
            omega
      | measure m =>
          simp only [perform]
          split <;> exact ⟨rfl, rfl⟩
      | publish e =>
          have hworld : ∀ v : Surroundings, v = p.world ∨ v = p.world.say .unheard →
              v.nextFlights (es.filterMap Effect.issue?) =
                p.world.nextFlights (es.filterMap Effect.issue?) ∧
              v.issued = p.world.issued := by
            rintro v (rfl | rfl) <;> exact ⟨rfl, rfl⟩
          have hv := hworld (perform p (.publish e)).world (by
            simp only [perform, publish]
            split
            · exact Or.inr rfl
            · exact Or.inl rfl)
          rw [hv.1, hv.2]
          exact ⟨rfl, rfl⟩
      | _ => exact ⟨rfl, rfl⟩

/-- Effects arm and stop timers one after another. -/
theorem performAll_timers (p : Placed κ) (es : List Effect) :
    (performAll p es).engine.timers.map (·.generation) =
      es.foldl Effect.running (p.engine.timers.map (·.generation)) := by
  induction es generalizing p with
  | nil => rfl
  | cons e es ih =>
      rw [performAll_cons, ih, List.foldl_cons]
      congr 1
      cases e with
      | arm generation period => simp [perform, Effect.running, Timer.armed]
      | disarm generation =>
          simp only [perform, Effect.running, List.filter_map]
          rfl
      | measure m => simp only [perform]; split <;> rfl
      | _ => rfl

theorem performAll_sink (p : Placed κ) (es : List Effect) :
    (performAll p es).engine.sink =
      (es.filterMap Effect.event?).foldl (fun k e => (k.publish e).2) p.engine.sink := by
  induction es generalizing p with
  | nil => rfl
  | cons e es ih =>
      rw [performAll_cons, ih]
      cases e with
      | measure m => simp only [perform]; split <;> rfl
      | _ => rfl

/-- Effects are measured one after another, if they are measured at all. -/
theorem performAll_registry (p : Placed κ) (es : List Effect) :
    (performAll p es).world.registry =
      if p.engine.measured then
        p.world.registry.recordAll (es.filterMap Effect.measurement?)
      else p.world.registry := by
  induction es generalizing p with
  | nil => simp [Metrics.Registry.recordAll]
  | cons e es ih =>
      rw [performAll_cons, ih, perform_measured]
      cases e with
      | measure m =>
          by_cases hm : p.engine.measured
          · simp [perform, hm, Effect.measurement?, Metrics.Registry.recordAll,
              Surroundings.measure]
          · simp [perform, hm]
      | publish e =>
          have hsame : (perform p (.publish e)).world.registry = p.world.registry := by
            simp only [perform, publish]
            split <;> rfl
          rw [hsame]
          rfl
      | _ => rfl

/-- A part of an engine in its surroundings is self-contained if what effects do to it
depends on nothing else. -/
def SelfContained (part : Placed κ → Placed κ) : Prop :=
  ∀ p e, part (perform p e) = part (perform (part p) e)

/-- Where a self-contained part is the same, it is the same after the same effects. -/
theorem SelfContained.performAll_congr {part : Placed κ → Placed κ} (h : SelfContained part)
    {p q : Placed κ} (hpq : part p = part q) (es : List Effect) :
    part (performAll p es) = part (performAll q es) := by
  induction es generalizing p q with
  | nil => exact hpq
  | cons e es ih =>
      have hnow : part (perform p e) = part (perform q e) := by
        rw [h p e, hpq, ← h q e]
      exact ih hnow

end Engine

namespace Service

variable {κ : Type} [DecidableEq κ]

/-- A service's engine in its surroundings once an action has changed it, but before
the action's effects. -/
def base (s : Service κ) : Action κ → Engine.Placed κ
  | .command c =>
    match c.call s.state with
    | .error _ => s.placed
    | .ok call => { s.placed with engine.state := call.change.state }
  | .tick generation =>
    match s.state.tick generation with
    | none => s.placed
    | some c => ⟨{ s.placed.engine.wind generation s.world.now with state := c.state }, s.world⟩
  | .answer place _ =>
    match s.flights[place]? with
    | none => s.placed
    | some f =>
      ⟨{ s.placed.engine.land f with state := (s.state.retire f.cycle).state }, s.world⟩
  | .claim place =>
    match s.writing, s.waiting[place]? with
    | none, some snapshot =>
      { s.placed with
        engine.writer := (s.placed.engine.writer.claim? snapshot).getD s.placed.engine.writer }
    | _, _ => s.placed
  | .save _ => s.placed
  | a => (s.step a).placed

/-- Every step is a silent change followed by effects. -/
theorem step_placed (s : Service κ) (a : Action κ) :
    (s.step a).placed = Engine.performAll (s.base a) (s.effects a) := by
  cases a with
  | command c =>
      simp only [step, obey, base, effects, Engine.command]
      cases h : c.call s.state with
      | error e => rfl
      | ok call =>
          simp only [Call.effects, Engine.performAll_append]
          rfl
  | tick generation =>
      simp only [step, base, effects, Engine.tick]
      cases s.state.tick generation <;> rfl
  | answer place result =>
      simp only [step, takeAnswer, base, effects]
      cases s.flights[place]? with
      | none => rfl
      | some f =>
          simp only [Engine.answer, Engine.performAll_append]
          rfl
  | claim place =>
      simp only [step, takeTurn, base, effects]
      cases hwriting : s.writing with
      | some _ => rfl
      | none =>
          cases hplace : s.waiting[place]? with
          | none => rfl
          | some snapshot =>
              by_cases hstale : s.placed.engine.writer.isStale snapshot
              · simp [Engine.claim, Writer.claim?, hstale]
              · simp [Engine.claim, Writer.claim?, hstale]
  | save result =>
      simp only [step, endSave, base, effects]
      cases s.writing <;> rfl
  | _ => rfl

/-- Where a self-contained part is the same and the effects are, a step leaves the part the
same. -/
theorem step_congr {part : Engine.Placed κ → Engine.Placed κ} (h : Engine.SelfContained part)
    {s t : Service κ} {a b : Action κ} (hbase : part (s.base a) = part (t.base b))
    (heffects : s.effects a = t.effects b) : part (s.step a).placed = part (t.step b).placed := by
  rw [step_placed, step_placed, heffects]
  exact h.performAll_congr hbase _

/-- No effect changes the state. -/
theorem state_step (s : Service κ) (a : Action κ) :
    (s.step a).state = (s.base a).engine.state := by
  rw [state, step_placed, Engine.performAll_state]

end Service
end Polling
end SearchPolling
