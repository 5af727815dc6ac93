import SearchPolling.Proofs.Writing.Desk

/-!
# The clockwork

A part of a service goes by the clock alone: the record, the timers, and the snapshots with
those who write them.  This is its clockwork.  Whether polling is suppressed or congested,
what queries ask and when they are answered, and what is published, measured or told does
not reach it.  So what an action does to the clockwork depends on nothing else, and most
of what happens passes it by.
-/

namespace SearchPolling
namespace Polling

/-- Whether an effect starts or stops a timer. -/
def Effect.isTiming : Effect → Bool
  | arm _ _ => true
  | disarm _ => true
  | _ => false

/-- A state without all that has to do with queries. -/
def State.clockwork (s : State) : State :=
  { s with outstanding := 0, congested := false, suppressed := false, cycle := 0 }

def Change.timing (c : Change) : Change :=
  ⟨c.state.clockwork, c.effects.filter Effect.isTiming⟩

def Call.timing (c : Call) : Change × Option Snapshot :=
  ((c.change.also c.afterwards).timing, c.snapshot)

theorem Change.timing_also (c : Change) (es : List Effect) :
    (c.also es).timing = c.timing.also (es.filter Effect.isTiming) := by
  simp only [timing, also, List.filter_append]

/-! ## Changes of the state -/

namespace State

theorem timing_reset (s : State) : s.reset.timing = s.clockwork.reset.timing := by
  by_cases houtstanding : s.outstanding = 0
  · simp only [reset, houtstanding]
    rfl
  · simp only [reset, houtstanding]
    rfl

theorem timing_start (s : State) : s.start.timing = s.clockwork.start.timing := by
  have hactive : s.clockwork.record.active = s.record.active := rfl
  simp only [start, hactive]
  split <;> rfl

theorem timing_dropCycle (s : State) : s.dropCycle.timing = s.clockwork.dropCycle.timing := by
  have hactive : s.clockwork.record.active = s.record.active := rfl
  simp only [dropCycle, hactive]
  split
  · rw [Change.timing_also, Change.timing_also, timing_reset]
  · rfl

theorem timing_setInterval (s : State) (seconds : UInt64) :
    (s.setInterval seconds).timing = (s.clockwork.setInterval seconds).timing := by
  have hactive : s.clockwork.record.active = s.record.active := rfl
  simp only [setInterval, hactive]
  split
  · exact timing_reset { s with record.refreshInterval := seconds }
  · rfl

/-- A tick that is acted on passes the clockwork by. -/
theorem timing_tick {s : State} {generation : UInt64} {c : Change}
    (h : s.tick generation = some c) : c.timing = ⟨s.clockwork, []⟩ := by
  simp only [tick] at h
  split at h
  · cases h
  · obtain rfl := Option.some.inj h
    rw [Change.timing_also]
    split <;> rfl

theorem tick_clockwork_eq_none_iff (s : State) (generation : UInt64) :
    s.clockwork.tick generation = none ↔ s.tick generation = none := by
  simp only [Service.tick_eq_none_iff]
  rfl

theorem timing_retire (s : State) (cycle : UInt64) :
    (s.retire cycle).timing = ⟨s.clockwork, []⟩ := by
  simp only [retire]
  split <;> rfl

end State

/-! ## Calls -/

namespace Call

theorem timing_unstored {c d : Change} (h : c.timing = d.timing) (afterwards : List Effect) :
    (unstored c afterwards).timing = (unstored d afterwards).timing := by
  have hchange : (c.also afterwards).timing = (d.also afterwards).timing := by
    rw [Change.timing_also, Change.timing_also, h]
  exact congrArg (·, none) hchange

/-- A snapshot is taken of the clockwork. -/
theorem timing_stored {c d : Change} (h : c.timing = d.timing) (afterwards : List Effect) :
    (stored c afterwards).timing = (stored d afterwards).timing := by
  have htaken (e : Change) : (stored e afterwards).timing =
      (⟨e.timing.state.snapshot.2, e.timing.effects ++ afterwards.filter Effect.isTiming⟩,
        some e.timing.state.snapshot.1) := by
    have happend : (stored e afterwards).timing.1.effects =
        e.timing.effects ++ afterwards.filter Effect.isTiming := List.filter_append ..
    rw [← happend]
    rfl
  rw [htaken, htaken, h]

end Call

/-- A command does to the clockwork what it does on the clockwork alone. -/
theorem Command.timing_call (s : State) (c : Command) :
    (c.call s).map Call.timing = (c.call s.clockwork).map Call.timing := by
  have hstop (persist : Bool) : (callStop s persist).timing = (callStop s.clockwork persist).timing := by
    cases persist with
    | true => exact Call.timing_stored rfl _
    | false => exact Call.timing_unstored rfl _
  cases c with
  | start => exact congrArg Except.ok (Call.timing_stored s.timing_start [])
  | stop persist => exact congrArg Except.ok (hstop persist)
  | setInterval seconds =>
      simp only [call]
      split
      · rfl
      · exact congrArg Except.ok (Call.timing_stored (s.timing_setInterval seconds) _)
  | suppress b => exact congrArg Except.ok (Call.timing_unstored rfl _)
  | dropCycle => exact congrArg Except.ok (Call.timing_unstored s.timing_dropCycle [])
  | endSession =>
      have hactive : s.clockwork.record.active = s.record.active := rfl
      simp only [call, hactive]
      split
      · exact congrArg Except.ok (hstop false)
      · rfl

/-! ## Engines -/

namespace Engine

variable {κ : Type}

/-- An engine in its surroundings without all but the clockwork. -/
def Placed.clockwork (p : Placed κ) : Placed κ where
  engine := { p.engine with
    state := p.engine.state.clockwork
    measured := false
    sink := .ofCapacity 0
    flights := [] }
  world := {
    now := p.world.now
    descriptor := .standard
    registry := .fresh
    notices := []
    issued := 0 }

/-- Only effects that start or stop a timer reach the clockwork. -/
theorem clockwork_performAll (p : Placed κ) (es : List Effect) :
    (performAll p es).clockwork = performAll p.clockwork (es.filter Effect.isTiming) := by
  induction es generalizing p with
  | nil => rfl
  | cons e es ih =>
      rw [performAll_cons, ih]
      cases e with
      | measure m =>
          simp only [perform]
          split <;> rfl
      | publish e =>
          have hsame : (perform p (.publish e)).clockwork = p.clockwork := by
            simp only [perform, publish]
            split <;> rfl
          rw [hsame]
          rfl
      | _ => rfl

end Engine

/-! ## Services -/

/-- Whether an action has to do with queries, events and whether polling is suppressed, and
with nothing else. -/
def Action.isTraffic {κ : Type} : Action κ → Bool
  | .command (.suppress _) => true
  | .answer _ _ => true
  | .describe _ => true
  | .subscribe _ => true
  | .unsubscribe _ => true
  | .receive _ _ => true
  | _ => false

namespace Service

variable {κ : Type}

def clockwork (s : Service κ) : Service κ :=
  { s with placed := s.placed.clockwork }

/-- The time at which an action lets a tick be acted on. -/
def ticked (s : Service κ) : Action κ → List Nat
  | .tick generation => if (s.state.tick generation).isSome then [s.world.now] else []
  | _ => []

theorem alikeAtDesk_clockwork (s : Service κ) : AlikeAtDesk s s.clockwork where
  store_eq := rfl
  waiting_eq := rfl
  writing_eq := rfl
  stateKey_eq := rfl
  command_eq c := by
    have hsnapshot (x : Except InvalidInterval Call) :
        x.map (·.snapshot) = (x.map Call.timing).map Prod.snd := by cases x <;> rfl
    rw [Engine.command_fst, Engine.command_fst, hsnapshot, hsnapshot]
    exact congrArg (Except.map Prod.snd) (Command.timing_call s.state c)
  claim_eq u := by
    rw [Engine.claim_fst, Engine.claim_fst]
    rfl

theorem isSome_tick_clockwork (s : Service κ) (generation : UInt64) :
    (s.clockwork.state.tick generation).isSome = (s.state.tick generation).isSome := by
  have hnone : s.clockwork.state.tick generation = none ↔ s.state.tick generation = none :=
    s.state.tick_clockwork_eq_none_iff generation
  cases htick : s.state.tick generation with
  | none => rw [hnone.mpr htick]
  | some c =>
      rw [Option.isSome_iff_ne_none.mpr]
      · rfl
      · simp [hnone, htick]

theorem ticked_clockwork (s : Service κ) (a : Action κ) : s.clockwork.ticked a = s.ticked a := by
  cases a with
  | tick generation =>
      simp only [ticked, isSome_tick_clockwork]
      rfl
  | _ => rfl

/-- Two services have the same clockwork if their engines have and the rest of them is the
same. -/
theorem clockwork_eq {s t : Service κ} (hplaced : s.placed.clockwork = t.placed.clockwork)
    (hrest : s.store = t.store ∧ s.waiting = t.waiting ∧ s.writing = t.writing) :
    s.clockwork = t.clockwork := by
  obtain ⟨hstore, hwaiting, hwriting⟩ := hrest
  rw [clockwork, clockwork, hplaced, hstore, hwaiting, hwriting]

variable [DecidableEq κ]

theorem clockwork_step_placed (s : Service κ) (a : Action κ) :
    (s.step a).placed.clockwork =
      Engine.performAll (s.base a).clockwork ((s.effects a).filter Effect.isTiming) := by
  rw [step_placed, Engine.clockwork_performAll]

theorem timing_command (s : Service κ) (c : Command) :
    ((s.base (.command c)).clockwork, (s.effects (.command c)).filter Effect.isTiming) =
      match (c.call s.state).map Call.timing with
      | .error _ => (s.placed.clockwork, [])
      | .ok (change, _) =>
        ({ s.placed.clockwork with engine.state := change.state }, change.effects) := by
  simp only [base, effects]
  cases c.call s.state <;> rfl

theorem timing_tick (s : Service κ) (generation : UInt64) :
    ((s.base (.tick generation)).clockwork,
        (s.effects (.tick generation)).filter Effect.isTiming) =
      if (s.state.tick generation).isSome then
        (⟨s.placed.clockwork.engine.wind generation s.world.now, s.placed.clockwork.world⟩, [])
      else (s.placed.clockwork, [.disarm generation]) := by
  simp only [base, effects]
  cases htick : s.state.tick generation with
  | none => rfl
  | some c =>
      have htiming := State.timing_tick htick
      have hstate : c.state.clockwork = s.state.clockwork := congrArg Change.state htiming
      have heffects : c.effects.filter Effect.isTiming = [] := congrArg Change.effects htiming
      simp only [heffects, Engine.Placed.clockwork, hstate]
      rfl

theorem timing_of_not_traffic (s : Service κ) {a : Action κ} (h : a.isTraffic = false) :
    ((s.base a).clockwork, (s.effects a).filter Effect.isTiming) =
      ((s.clockwork.base a).clockwork, (s.clockwork.effects a).filter Effect.isTiming) := by
  cases a with
  | command c =>
      have hcall : (c.call s.clockwork.state).map Call.timing =
          (c.call s.state).map Call.timing := (Command.timing_call s.state c).symm
      rw [timing_command, timing_command, hcall]
      rfl
  | tick generation =>
      rw [timing_tick, timing_tick, isSome_tick_clockwork]
      rfl
  | claim place =>
      have hquiet (u : Service κ) : (u.effects (.claim place)).filter Effect.isTiming = [] := by
        simp only [effects]
        split
        · split <;> rfl
        · rfl
      have hbase : (s.base (.claim place)).clockwork =
          (s.clockwork.base (.claim place)).clockwork := by
        have hwriting : s.clockwork.writing = s.writing := rfl
        have hwaiting : s.clockwork.waiting = s.waiting := rfl
        simp only [base, hwriting, hwaiting]
        split <;> rfl
      rw [hquiet, hquiet, hbase]
  | save result =>
      have hwriting : s.clockwork.writing = s.writing := rfl
      simp only [base, effects, hwriting]
      rfl
  | answer place result => cases h
  | describe u => cases h
  | subscribe name => cases h
  | unsubscribe name => cases h
  | receive name most => cases h
  | _ => rfl

/-- Traffic passes the clockwork by. -/
theorem clockwork_step_of_traffic (s : Service κ) {a : Action κ} (h : a.isTraffic = true) :
    (s.step a).clockwork = s.clockwork ∧ s.papers a = {} ∧ s.ticked a = [] := by
  cases a with
  | command c =>
      cases c with
      | suppress b =>
          refine ⟨clockwork_eq ?_ ⟨rfl, List.append_nil _, rfl⟩, rfl, rfl⟩
          rw [clockwork_step_placed]
          rfl
      | _ => cases h
  | answer place result =>
      refine ⟨?_, rfl, rfl⟩
      cases hplace : s.flights[place]? with
      | none => simp only [step, takeAnswer, hplace]
      | some f =>
          refine clockwork_eq ?_ (by simp [step, takeAnswer, hplace])
          have htiming := s.state.timing_retire f.cycle
          have hstate : (s.state.retire f.cycle).state.clockwork = s.state.clockwork :=
            congrArg Change.state htiming
          have hretired : (s.state.retire f.cycle).effects.filter Effect.isTiming = [] :=
            congrArg Change.effects htiming
          have hanswer : (Engine.answerEffects (s.state.isCurrent f.cycle) f s.world.now
              result).filter Effect.isTiming = [] := by
            rw [Engine.answerEffects]
            split <;> rfl
          rw [clockwork_step_placed]
          simp only [base, effects, hplace, List.filter_append, hretired, hanswer]
          simp only [Engine.Placed.clockwork, hstate]
          rfl
  | describe u => exact ⟨rfl, rfl, rfl⟩
  | subscribe name => exact ⟨rfl, rfl, rfl⟩
  | unsubscribe name => exact ⟨rfl, rfl, rfl⟩
  | receive name most =>
      refine ⟨?_, rfl, rfl⟩
      simp only [step]
      split <;> rfl
  | _ => cases h

/-- What an action does to the clockwork depends on the clockwork alone. -/
theorem clockwork_step (s : Service κ) (a : Action κ) :
    (s.step a).clockwork = (s.clockwork.step a).clockwork := by
  cases htraffic : a.isTraffic with
  | true =>
      rw [(s.clockwork_step_of_traffic htraffic).1,
        (s.clockwork.clockwork_step_of_traffic htraffic).1]
      rfl
  | false =>
      refine clockwork_eq ?_ (s.alikeAtDesk_clockwork.step a)
      have htiming := s.timing_of_not_traffic htraffic
      obtain ⟨hbase, heffects⟩ := Prod.mk.inj htiming
      rw [clockwork_step_placed, clockwork_step_placed, hbase, heffects]

/-- Where the clockwork is the same, an action does the same to it, passes on the same
snapshots, and is acted on at the same time. -/
theorem clockwork_congr {s t : Service κ} (h : s.clockwork = t.clockwork) (a : Action κ) :
    (s.step a).clockwork = (t.step a).clockwork ∧ s.papers a = t.papers a ∧
      s.ticked a = t.ticked a := by
  refine ⟨?_, ?_, ?_⟩
  · rw [clockwork_step, h, ← clockwork_step]
  · rw [s.alikeAtDesk_clockwork.papers_eq, h, ← t.alikeAtDesk_clockwork.papers_eq]
  · rw [← ticked_clockwork, h, ticked_clockwork]

end Service
end Polling
end SearchPolling
