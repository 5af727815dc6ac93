import SearchPolling.Proofs.Queries.Publication
import SearchPolling.Proofs.Writing.Desk

/-!
# What late answers leave alone

An answer is late if its query is not of the current cycle: the cycle was dropped while
the query was on its way.  The outward part of a service is all of it but the queries on
their way, the notices, and the counters of discarded queries.  A late answer leaves the
outward part as it is and gives no sign; every other action acts on the outward part
alone, up to which query an answer answers.
-/

namespace SearchPolling

/-! ## Counters of discarded queries -/

namespace Metrics

namespace Series

variable {β : Type}

def those (p : UInt64 → Bool) (s : Series β) : Series β :=
  s.filter fun own => p (key own.1)

@[simp] theorem those_those (p : UInt64 → Bool) (s : Series β) : (s.those p).those p = s.those p := by
  simp [those, List.filter_filter]

/-- A change of one series is seen among those with a property if it is one of them. -/
theorem those_update (p : UInt64 → Bool) (labels : List String) (opened : β) (f : β → β)
    (s : Series β) :
    (s.update labels opened f).those p =
      if p (key labels) then (s.those p).update labels opened f else s.those p := by
  induction s with
  | nil =>
      by_cases hp : p (key labels) <;> simp [update, those, hp]
  | cons own rest ih =>
      obtain ⟨name, value⟩ := own
      by_cases hown : key name = key labels
      · by_cases hp : p (key labels) <;> simp [update, those, hown, hp]
      · have hnext : update labels opened f ((name, value) :: rest) =
            (name, value) :: update labels opened f rest := by
          rw [update, if_neg hown]
        rw [hnext]
        simp only [those] at ih
        by_cases hname : p (key name)
        · by_cases hp : p (key labels)
          · simp only [those, List.filter_cons, hname, if_true, ih, hp, update, if_neg hown]
          · simp only [those, List.filter_cons, hname, if_true, ih, hp, Bool.false_eq_true,
              if_false]
        · simp only [those, List.filter_cons, hname, Bool.false_eq_true, if_false, ih]

end Series

namespace Registry

/-- Whether a hash is not that of a counter of discarded queries. -/
def isOther (hash : UInt64) : Bool :=
  Polling.Origin.all.all fun o => hash ≠ Series.key [o.name, "discarded"]

/-- All measurements but the counters of discarded queries. -/
def withoutDiscarded (r : Registry) : Registry :=
  { r with queries := r.queries.those isOther }

theorem withoutDiscarded_discarded (r : Registry) (origin : Polling.Origin) :
    (r.record (.queryDiscarded origin)).withoutDiscarded = r.withoutDiscarded := by
  have hcounter : isOther (Series.key [origin.name, "discarded"]) = false := by
    cases origin <;> decide
  simp only [record, withoutDiscarded, count, Series.those_update, hcounter,
    Bool.false_eq_true, if_false]

@[simp] theorem withoutDiscarded_withoutDiscarded (r : Registry) :
    r.withoutDiscarded.withoutDiscarded = r.withoutDiscarded := by
  simp only [withoutDiscarded, Series.those_those]

/-- No measurement depends on the counters of discarded queries. -/
theorem withoutDiscarded_record (r : Registry) (m : Measurement) :
    (r.record m).withoutDiscarded = (r.withoutDiscarded.record m).withoutDiscarded := by
  cases m with
  | queryCompleted origin success nanoseconds =>
      simp only [record, withoutDiscarded, count, Series.those_update, Series.those_those]
  | queryDiscarded origin =>
      simp only [record, withoutDiscarded, count, Series.those_update, Series.those_those]
  | _ => simp only [record, withoutDiscarded, Series.those_those]

end Registry
end Metrics

namespace Polling

namespace Engine

variable {κ : Type}

/-- An engine in its surroundings without the queries on their way, the notices, and the
counters of discarded queries. -/
def Placed.outward (p : Placed κ) : Placed κ where
  engine := { p.engine with flights := [] }
  world := { p.world with registry := p.world.registry.withoutDiscarded, notices := [] }

theorem selfContained_outward : SelfContained (κ := κ) Placed.outward := by
  intro p e
  cases e with
  | measure m =>
      by_cases hmeasured : p.engine.measured
      · have hregistry := p.world.registry.withoutDiscarded_record m
        simp [perform, Placed.outward, Surroundings.measure, hmeasured, ← hregistry]
      · simp [perform, Placed.outward, hmeasured]
  | publish e =>
      by_cases hunheard : (p.engine.sink.publish e).1 = 0 <;>
        simp [perform, publish, Placed.outward, Surroundings.say, hunheard]
  | _ =>
      simp [perform, Placed.outward, Surroundings.say, Surroundings.sendOff,
        Surroundings.nextFlight]

theorem outward_ignored (p : Placed κ) (f : Flight) :
    (performAll p (ignoredEffects f)).outward = p.outward := by
  have hregistry := p.world.registry.withoutDiscarded_discarded f.origin
  simp only [ignoredEffects, performAll_cons, performAll_nil, perform]
  split
  · simp [Placed.outward, Surroundings.measure, Surroundings.say, hregistry]
  · simp [Placed.outward, Surroundings.say]

end Engine

/-- What becomes of a tick, as it is measured. -/
def Effect.outcome? : Effect → Option Metrics.TickOutcome
  | measure (.tick outcome) => some outcome
  | _ => none

/-- What an observer sees of a session. -/
inductive Sign where
  /-- A query is issued, with the request of the descriptor as it is then. -/
  | issued (f : Flight)
  | ticked (outcome : Metrics.TickOutcome)
  | published (e : Event)
  /-- A snapshot is passed to the store. -/
  | passed (t : Snapshot)
  /-- The store has taken in a snapshot. -/
  | saved (t : Snapshot)

/-- An entry in the script of a run: what is done, or the answer to a query of the current
cycle, which is known by its number. -/
inductive Entry (κ : Type) where
  | done (a : Action κ)
  | answered (number : Nat) (result : Except Search.Failure Search.Response)

def Action.answers {κ : Type} : Action κ → Bool
  | .answer _ _ => true
  | _ => false

namespace Service

variable {κ : Type}

def outward (s : Service κ) : Service κ :=
  { s with placed := s.placed.outward }

/-- What becomes of the ticks that an action lets be acted on. -/
def outcomes (s : Service κ) (a : Action κ) : List Metrics.TickOutcome :=
  (s.effects a).filterMap Effect.outcome?

def signs (s : Service κ) (a : Action κ) : List Sign :=
  (s.marks a).issued.map .issued ++ (s.outcomes a).map .ticked ++
    (s.published a).map .published ++ (s.passed a).map .passed ++ (s.saved a).map .saved

/-- What is entered of an action in the script: late answers are passed over. -/
def noted? (s : Service κ) : Action κ → Option (Entry κ)
  | .answer place result =>
    match s.flights[place]? with
    | none => none
    | some f => if s.state.isCurrent f.cycle then some (.answered f.number result) else none
  | a => some (.done a)

/-- The ways in which an action may stand in the script. -/
inductive Entering (s : Service κ) (a : Action κ) : Prop
  | late (place : Nat) (result : Except Search.Failure Search.Response)
      (haction : a = .answer place result)
      (hlate : ∀ f, s.flights[place]? = some f → s.state.cycle ≠ f.cycle)
      (hentry : s.noted? a = none)
  | done (hanswers : a.answers = false) (hentry : s.noted? a = some (.done a))
  | answered (place : Nat) (result : Except Search.Failure Search.Response) (f : Flight)
      (haction : a = .answer place result) (hplace : s.flights[place]? = some f)
      (hcycle : s.state.cycle = f.cycle)
      (hentry : s.noted? a = some (.answered f.number result))

theorem entering (s : Service κ) (a : Action κ) : Entering s a := by
  cases a with
  | answer place result =>
      cases hplace : s.flights[place]? with
      | none =>
          refine .late place result rfl ?_ ?_
          · simp [hplace]
          · simp only [noted?, hplace]
      | some f =>
          by_cases hcycle : s.state.cycle = f.cycle
          · have hcurrent : s.state.isCurrent f.cycle = true := by simpa [State.isCurrent]
            refine .answered place result f rfl hplace hcycle ?_
            simp only [noted?, hplace, hcurrent, if_true]
          · have hcurrent : s.state.isCurrent f.cycle = false := by simpa [State.isCurrent]
            refine .late place result rfl ?_ ?_
            · rintro g hg
              obtain rfl := Option.some.inj (hplace.symm.trans hg)
              exact hcycle
            · simp only [noted?, hplace, hcurrent, Bool.false_eq_true, if_false]
  | _ => exact .done rfl rfl

theorem alikeAtDesk_outward (s : Service κ) : AlikeAtDesk s s.outward where
  store_eq := rfl
  waiting_eq := rfl
  writing_eq := rfl
  stateKey_eq := rfl
  command_eq c := by
    rw [Engine.command_fst, Engine.command_fst]
    rfl
  claim_eq u := by
    rw [Engine.claim_fst, Engine.claim_fst]
    rfl

/-- What is passed to the store and saved depends on the outward part alone. -/
theorem papers_congr {s t : Service κ} (h : s.outward = t.outward) (a : Action κ) :
    s.papers a = t.papers a := by
  rw [s.alikeAtDesk_outward.papers_eq, h, ← t.alikeAtDesk_outward.papers_eq]

/-- The effects of what is done depend on the outward part alone. -/
theorem effects_outward (s : Service κ) {a : Action κ} (h : a.answers = false) :
    s.outward.effects a = s.effects a := by
  cases a with
  | answer place result => cases h
  | _ => rfl

variable [DecidableEq κ]

theorem base_outward (s : Service κ) {a : Action κ} (h : a.answers = false) :
    (s.base a).outward = (s.outward.base a).outward := by
  cases a with
  | command c =>
      have hstate : s.outward.state = s.state := rfl
      simp only [base, hstate]
      split <;> simp [Service.outward, Engine.Placed.outward]
  | tick generation =>
      have hstate : s.outward.state = s.state := rfl
      simp only [base, hstate]
      split <;> simp [Service.outward, Engine.Placed.outward, Engine.wind]
  | answer place result => cases h
  | claim place =>
      have hwriting : s.outward.writing = s.writing := rfl
      have hwaiting : s.outward.waiting = s.waiting := rfl
      simp only [base, hwriting, hwaiting]
      split <;> simp [Service.outward, Engine.Placed.outward]
  | receive name most =>
      have hsink : s.outward.sink = s.sink := rfl
      simp only [base, step, hsink]
      split <;> simp [Service.outward, Engine.Placed.outward, withSink]
  | _ => simp [base, step, Service.outward, Engine.Placed.outward, withSink, withWorld]

omit [DecidableEq κ] in
/-- Two services are the same outwardly if their engines are and the rest of them is. -/
theorem outward_eq {s t : Service κ} (hplaced : s.placed.outward = t.placed.outward)
    (hrest : s.store = t.store ∧ s.waiting = t.waiting ∧ s.writing = t.writing) :
    s.outward = t.outward := by
  obtain ⟨hstore, hwaiting, hwriting⟩ := hrest
  rw [outward, outward, hplaced, hstore, hwaiting, hwriting]

/-- What is done acts on the outward part alone. -/
theorem outward_step_of_done (s : Service κ) {a : Action κ} (h : a.answers = false) :
    (s.step a).outward = (s.outward.step a).outward := by
  apply outward_eq
  · exact step_congr Engine.selfContained_outward (s.base_outward h) (s.effects_outward h).symm
  · exact s.alikeAtDesk_outward.step a

/-- A late answer changes nothing outwardly, and nobody sees it. -/
theorem outward_step_of_late (s : Service κ) {a : Action κ} (h : s.noted? a = none) :
    (s.step a).outward = s.outward ∧ (s.marks a).issued = [] ∧ s.signs a = [] := by
  cases s.entering a with
  | done _ hentry => simp [h] at hentry
  | answered _ _ _ _ _ _ hentry => simp [h] at hentry
  | late place result haction hlate _ =>
      rw [haction]
      cases hplace : s.flights[place]? with
      | none =>
          have heffects : s.effects (.answer place result) = [] := by
            simp only [effects, hplace]
          refine ⟨?_, ?_, ?_⟩
          · simp only [step, takeAnswer, hplace]
          · simp [marks, heffects, Footprint.none]
          · simp [signs, marks, outcomes, published, passed, saved, heffects, Footprint.none]
      | some f =>
          have heffects := effects_ignored hplace (hlate f hplace) result
          refine ⟨?_, ?_, ?_⟩
          · apply outward_eq
            · have hbase : (s.base (.answer place result)).outward = s.placed.outward := by
                have hcurrent : s.state.isCurrent f.cycle = false := by
                  simpa [State.isCurrent] using hlate f hplace
                simp only [base, hplace, State.retire, hcurrent]
                rfl
              rw [step_placed, heffects, Engine.outward_ignored, hbase]
            · simp [step, takeAnswer, hplace]
          · simp [marks, heffects, Engine.ignoredEffects, Footprint.none]
          · simp [signs, marks, outcomes, published, passed, saved, heffects,
              Engine.ignoredEffects, Effect.outcome?, Effect.event?, Footprint.none]

/-- An answer acts on the outward part alone, wherever its query stands among the others. -/
theorem outward_step_of_answered {s t : Service κ} (h : s.outward = t.outward) {f : Flight}
    {place other : Nat} (hs : s.flights[place]? = some f) (ht : t.flights[other]? = some f)
    (result : Except Search.Failure Search.Response) :
    s.effects (.answer place result) = t.effects (.answer other result) ∧
      (s.step (.answer place result)).outward = (t.step (.answer other result)).outward := by
  have hpart {α : Type} (part : Service κ → α) : part s.outward = part t.outward :=
    congrArg part h
  have hstate : s.state = t.state := hpart Service.state
  have hnow : s.world.now = t.world.now := hpart (·.world.now)
  have heffects : s.effects (.answer place result) = t.effects (.answer other result) := by
    simp only [effects, hs, ht, hstate, hnow]
  refine ⟨heffects, ?_⟩
  apply outward_eq
  · refine step_congr Engine.selfContained_outward ?_ heffects
    have hplaced : s.placed.outward = t.placed.outward := hpart Service.placed
    have hretired (u : Service κ) (place : Nat) (hu : u.flights[place]? = some f) :
        (u.base (.answer place result)).outward =
          { u.placed.outward with engine.state := (u.state.retire f.cycle).state } := by
      simp only [base, hu]
      rfl
    rw [hretired s place hs, hretired t other ht, hplaced, hstate]
  · simp only [step, takeAnswer, hs, ht]
    exact ⟨hpart Service.store, hpart Service.waiting, hpart Service.writing⟩

end Service
end Polling
end SearchPolling
