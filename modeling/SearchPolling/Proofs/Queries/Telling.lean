import Mathlib.Data.List.Perm.Basic
import SearchPolling.Proofs.Queries.Outstanding
import SearchPolling.Proofs.Queries.Settlement

/-!
# Answers that are told later

Whether an answer counts is decided in a critical section of its own, and only after it
the answer is told: its event is published, or its query is counted as discarded.  In
between anything may happen.  So a query may have been decided upon when a reset discards
all that are outstanding, and its event is published when the reset is over.

Such events are all that is published of earlier queries after a reset: about whatever is
decided after it, it is decided that it does not count.
-/

namespace SearchPolling
namespace Polling

/-- An answer about which it has been decided whether it counts. -/
structure Verdict where
  flight : Flight
  counts : Bool
  /-- When it was decided. -/
  decided : Nat
  result : Except Search.Failure Search.Response

namespace Verdict

/-- The event of a verdict that is told now. -/
def event (v : Verdict) (now : Nat) : Event :=
  { Engine.answerEvent v.flight v.decided v.result with completedAt := .ofMillis now }

def effects (v : Verdict) (now : Nat) : List Effect :=
  if v.counts then
    let elapsed := v.decided - v.flight.posed
    [.note (Engine.answerNotice v.flight.id elapsed v.result),
      .measure (.queryCompleted v.flight.origin v.result.isOk (elapsed * 1000000)),
      .publish (v.event now)]
  else Engine.ignoredEffects v.flight

/-- A verdict that is told at once has the effects of an answer. -/
theorem effects_decided (v : Verdict) :
    v.effects v.decided = Engine.answerEffects v.counts v.flight v.decided v.result := rfl

theorem footprint_effects (v : Verdict) (now : Nat) : Footprint.of (v.effects now) = .none := by
  rw [effects]
  split <;> rfl

theorem events_effects (v : Verdict) (now : Nat) :
    (v.effects now).filterMap Effect.event? = if v.counts then [v.event now] else [] := by
  rw [effects]
  split <;> rfl

/-- The verdict says that a query counts, which is among the first so many. -/
def isOld (n : Nat) (v : Verdict) : Bool :=
  v.counts && v.flight.number ≤ n

end Verdict

/-- A service whose answers are told some time after they have been decided upon. -/
structure Lagging (κ : Type) where
  service : Service κ
  untold : List Verdict

/-- What may happen to a service whose answers are told later. -/
inductive Move (κ : Type) where
  /-- An action takes place; if it is an answer, it is only decided upon. -/
  | act (a : Action κ)
  /-- The verdict at a place among those that are untold is told. -/
  | tell (place : Nat)

namespace Lagging

variable {κ : Type}

def verdict (d : Lagging κ) (f : Flight) (result : Except Search.Failure Search.Response) :
    Verdict :=
  ⟨f, d.service.state.isCurrent f.cycle, d.service.world.now, result⟩

/-- It is decided whether the answer to the query at a place counts. -/
def judge (d : Lagging κ) (place : Nat) (result : Except Search.Failure Search.Response) :
    Lagging κ :=
  match d.service.flights[place]? with
  | none => d
  | some f =>
    { service := { d.service with placed := Engine.retire d.service.placed f }
      untold := d.untold ++ [d.verdict f result] }

def tell (d : Lagging κ) (place : Nat) : Lagging κ :=
  match d.untold[place]? with
  | none => d
  | some v =>
    { service := { d.service with
        placed := Engine.performAll d.service.placed (v.effects d.service.world.now) }
      untold := d.untold.eraseIdx place }

variable [DecidableEq κ]

def step (d : Lagging κ) : Move κ → Lagging κ
  | .act (.answer place result) => d.judge place result
  | .act a => { d with service := d.service.step a }
  | .tell place => d.tell place

def run (d : Lagging κ) (ms : List (Move κ)) : Lagging κ :=
  ms.foldl step d

/-- What the moves of a run give, in their order, each at the service that it meets. -/
def along {α : Type} (g : Lagging κ → Move κ → List α) (d : Lagging κ) : List (Move κ) → List α
  | [] => []
  | m :: ms => g d m ++ along g (d.step m) ms

omit [DecidableEq κ] in
def effects (d : Lagging κ) : Move κ → List Effect
  | .act (.answer place _) =>
    match d.service.flights[place]? with
    | none => []
    | some f => (d.service.state.retire f.cycle).effects
  | .act a => d.service.effects a
  | .tell place =>
    match d.untold[place]? with
    | none => []
    | some v => v.effects d.service.world.now

omit [DecidableEq κ] in
def published (d : Lagging κ) (m : Move κ) : List Event :=
  (d.effects m).filterMap Effect.event?

omit [DecidableEq κ] in
def told (d : Lagging κ) : Move κ → List Verdict
  | .act _ => []
  | .tell place => d.untold[place]?.toList

omit [DecidableEq κ] in
/-- The verdict to which a move comes. -/
def judged (d : Lagging κ) : Move κ → List Verdict
  | .act (.answer place result) => (d.service.flights[place]?.map (d.verdict · result)).toList
  | _ => []

omit [DecidableEq κ] in
def opens (d : Lagging κ) : Move κ → Bool
  | .act a => (d.service.marks a).resets
  | .tell _ => false

/-- How many cycles are opened in a run. -/
def resets (d : Lagging κ) : List (Move κ) → Nat
  | [] => 0
  | m :: ms => (if d.opens m then 1 else 0) + (d.step m).resets ms

/-- A service that has been launched, about whose answers nothing is untold. -/
def launched (l : Launch) : Lagging κ :=
  ⟨l.run [], []⟩

omit [DecidableEq κ] in
def issued (d : Lagging κ) : Move κ → List Flight
  | .act a => (d.service.marks a).issued
  | .tell _ => []

@[simp] theorem run_nil (d : Lagging κ) : d.run [] = d := rfl

@[simp] theorem run_cons (d : Lagging κ) (m : Move κ) (ms : List (Move κ)) :
    d.run (m :: ms) = (d.step m).run ms := rfl

theorem along_append {α : Type} (d : Lagging κ) (g : Lagging κ → Move κ → List α)
    (ms ns : List (Move κ)) : d.along g (ms ++ ns) = d.along g ms ++ (d.run ms).along g ns := by
  induction ms generalizing d with
  | nil => rfl
  | cons m ms ih => simp only [List.cons_append, along, run_cons, ih, List.append_assoc]

theorem resets_append (d : Lagging κ) (ms ns : List (Move κ)) :
    d.resets (ms ++ ns) = d.resets ms + (d.run ms).resets ns := by
  induction ms generalizing d with
  | nil => simp [resets]
  | cons m ms ih => simp only [List.cons_append, resets, run_cons, ih, Nat.add_assoc]

/-- A verdict that is told at once makes an answer of the service. -/
theorem tell_at_once (d : Lagging κ) (place : Nat)
    (result : Except Search.Failure Search.Response) :
    d.run [.act (.answer place result), .tell d.untold.length] =
      { d with service := d.service.step (.answer place result) } := by
  cases hplace : d.service.flights[place]? with
  | none => simp [run, step, judge, tell, Service.step, Service.takeAnswer, hplace]
  | some f =>
      have hnow : (Engine.retire d.service.placed f).world.now = d.service.world.now := by
        rw [Engine.retire, Engine.carryOut, Engine.performAll_now]
      have hjudged : d.step (.act (.answer place result)) =
          { service := { d.service with placed := Engine.retire d.service.placed f }
            untold := d.untold ++ [d.verdict f result] } := by
        simp only [step, judge, hplace]
      have hanswered : d.service.step (.answer place result) =
          { d.service with placed := Engine.answer d.service.placed f result } := by
        simp only [Service.step, Service.takeAnswer, hplace]
      have hlast : (d.untold ++ [d.verdict f result])[d.untold.length]? =
          some (d.verdict f result) := List.getElem?_concat_length
      have hrest : (d.untold ++ [d.verdict f result]).eraseIdx d.untold.length = d.untold := by
        rw [List.eraseIdx_append_of_length_le (Nat.le_refl _), Nat.sub_self]
        exact List.append_nil _
      have hrun : d.run [.act (.answer place result), .tell d.untold.length] =
          (d.step (.act (.answer place result))).tell d.untold.length := rfl
      have heffects : (d.verdict f result).effects d.service.world.now =
          Engine.answerEffects (d.service.state.isCurrent f.cycle) f d.service.world.now result :=
        (d.verdict f result).effects_decided
      rw [hrun, hjudged, hanswered]
      simp only [tell, hlast, hrest, Service.world, hnow]
      rw [heffects, Engine.answer]

omit [DecidableEq κ] in
/-- Only an answer has other effects than in a service whose answers are told at once. -/
theorem effects_act (d : Lagging κ) (a : Action κ) :
    (∃ place result, a = .answer place result) ∨
      (d.effects (.act a) = d.service.effects a ∧ d.service.landed a = []) := by
  cases a with
  | answer place result => exact Or.inl ⟨place, result, rfl⟩
  | _ => exact Or.inr ⟨rfl, rfl⟩

omit [DecidableEq κ] in
/-- Every event that is published is that of a verdict that is told and says that its query
counts. -/
theorem published_eq (d : Lagging κ) (m : Move κ) :
    d.published m = ((d.told m).filter (·.counts)).map (·.event d.service.world.now) := by
  cases m with
  | act a =>
      have hnone : (d.effects (.act a)).filterMap Effect.event? = [] := by
        rcases d.effects_act a with ⟨place, result, rfl⟩ | ⟨hsame, hlanded⟩
        · simp only [effects]
          split
          · rfl
          · exact (d.service.state.routine_retire 0 _).unsettling.events
        · rw [hsame]
          exact (Service.routine_effects hlanded).unsettling.events
      exact hnone
  | tell place =>
      simp only [published, effects, told]
      cases d.untold[place]? with
      | none => rfl
      | some v => cases hcounts : v.counts <;> simp [v.events_effects, hcounts]

/-- The queries of the events that are published are those of the verdicts that are told
and say that they count. -/
theorem ids_published (d : Lagging κ) (ms : List (Move κ)) :
    (d.along published ms).map (·.id) =
      ((d.along told ms).filter (·.counts)).map (·.flight.id) := by
  induction ms generalizing d with
  | nil => rfl
  | cons m ms ih =>
      have hnow : (d.published m).map (·.id) =
          ((d.told m).filter (·.counts)).map (·.flight.id) := by
        rw [published_eq, List.map_map]
        rfl
      simp only [along, List.map_append, List.filter_append, hnow, ih]

/-- A verdict that was untold, or is come to, is told or stays untold. -/
theorem untold_step (d : Lagging κ) (m : Move κ) :
    (d.told m ++ (d.step m).untold).Perm (d.untold ++ d.judged m) := by
  cases m with
  | act a =>
      cases a with
      | answer place result =>
          cases hplace : d.service.flights[place]? with
          | none => simp [told, judged, step, judge, hplace]
          | some f => simp [told, judged, step, judge, hplace]
      | _ => simp [told, judged, step]
  | tell place =>
      simp only [told, judged, step, tell, List.append_nil]
      cases hplace : d.untold[place]? with
      | none => exact .refl _
      | some v =>
          obtain ⟨hlt, rfl⟩ := List.getElem?_eq_some_iff.mp hplace
          exact List.getElem_cons_eraseIdx_perm hlt

/-- Every verdict of a run is told once, or is untold in the end. -/
theorem untold_run (d : Lagging κ) (ms : List (Move κ)) :
    (d.along told ms ++ (d.run ms).untold).Perm (d.untold ++ d.along judged ms) := by
  induction ms generalizing d with
  | nil => simp [along]
  | cons m ms ih =>
      have hlater := (ih (d.step m)).append_left (d.told m)
      have hnow := (d.untold_step m).append_right ((d.step m).along judged ms)
      simp only [← List.append_assoc] at hlater
      have hboth := hlater.trans hnow
      simpa [along] using hboth

/-- A move does to queries and timers what its action does, and telling does nothing. -/
theorem view_act (d : Lagging κ) (a : Action κ) :
    (d.step (.act a)).service.view = (d.service.step a).view := by
  cases a with
  | answer place result =>
      cases hplace : d.service.flights[place]? with
      | none => simp only [step, judge, hplace, Service.step, Service.takeAnswer]
      | some f =>
          rw [Service.view_answer hplace]
          simp only [step, judge, hplace]
          rw [Engine.retire, Engine.carryOut, Service.view, Service.viewOf_performAll,
            State.footprint_retire, View.leave_none]
          exact Service.viewOf_land d.service f
  | _ => rfl

theorem view_tell (d : Lagging κ) (place : Nat) :
    (d.step (.tell place)).service.view = d.service.view := by
  simp only [step, tell]
  split
  · rfl
  · rw [Service.view, Service.viewOf_performAll, Verdict.footprint_effects, View.leave_none]

/-- A move opens the next cycle if it resets, and stays in its cycle otherwise. -/
theorem cycle_step (d : Lagging κ) (m : Move κ) :
    (d.step m).service.view.cycle = d.service.view.cycle + if d.opens m then 1 else 0 := by
  cases m with
  | act a =>
      rw [view_act]
      exact d.service.cycle_step a
  | tell place =>
      rw [view_tell]
      exact (UInt64.add_zero _).symm

/-- As long as the cycles do not come round, there are cycles left after every move. -/
theorem bound_run (d : Lagging κ) (ms ns : List (Move κ))
    (h : d.service.view.cycle.toNat + d.resets (ms ++ ns) < 2 ^ 64) :
    (d.run ms).service.view.cycle.toNat + (d.run ms).resets ns < 2 ^ 64 := by
  induction ms generalizing d with
  | nil => exact h
  | cons m ms ih =>
      rw [List.cons_append, resets] at h
      apply ih
      rw [cycle_step, Service.toNat_advance (by omega)]
      omega

/-- What every move preserves holds after every run, be it that the moves need cycles that
are left.  What is preserved may depend on what the run has given so far. -/
theorem run_preserves {α : Type} {P : Lagging κ → List α → Prop}
    {g : Lagging κ → Move κ → List α}
    (hstep : ∀ d m given, P d given →
      (d.opens m = true → d.service.view.cycle.toNat + 1 < 2 ^ 64) →
      P (d.step m) (given ++ g d m))
    {d : Lagging κ} {given : List α} (h : P d given) (ms : List (Move κ))
    (hbound : d.service.view.cycle.toNat + d.resets ms < 2 ^ 64) :
    P (d.run ms) (given ++ d.along g ms) := by
  induction ms generalizing d given with
  | nil => simpa [along] using h
  | cons m ms ih =>
      have hnow : P (d.step m) (given ++ g d m) := by
        refine hstep d m given h (fun hopens => ?_)
        rw [resets, if_pos hopens] at hbound
        omega
      have hlater := ih hnow (d.bound_run [m] ms hbound)
      simpa [along, List.append_assoc] using hlater

end Lagging
end Polling
end SearchPolling
