import SearchPolling.Proofs.Service.Record

/-!
# Routine effects

Most of what a session does needs no answer: it issues queries, minds its timer, measures
and tells.  Such effects are routine.  They publish nothing and count no query as
discarded, and a timer that they arm has the interval of the record.

Every change of the state but the settling of an answer has routine effects.  What answers
publish and what periods timers have follow from this one fact.
-/

namespace SearchPolling
namespace Polling

namespace Effect

/-- Whether an effect needs no answer and arms no timer of another interval. -/
def isRoutine (interval : UInt64) : Effect → Bool
  | arm _ period => period = interval
  | publish _ => false
  | measure (.queryDiscarded _) => false
  | _ => true

def Routine (interval : UInt64) (es : List Effect) : Prop :=
  ∀ e ∈ es, e.isRoutine interval = true

theorem Routine.nil {interval : UInt64} : Routine interval [] := by
  intro e he
  cases he

theorem Routine.append {interval : UInt64} {es fs : List Effect} (hes : Routine interval es)
    (hfs : Routine interval fs) : Routine interval (es ++ fs) := by
  intro e he
  rcases List.mem_append.mp he with hleft | hright
  · exact hes e hleft
  · exact hfs e hright

/-- The period of a timer that is armed by routine effects. -/
theorem Routine.period_eq {interval generation period : UInt64} {es : List Effect}
    (h : Routine interval es) (harm : .arm generation period ∈ es) : period = interval :=
  of_decide_eq_true (h _ harm)

end Effect

open Effect (Routine)

/-! ## Changes of the state -/

namespace State

theorem routine_disposeTimer (interval : UInt64) (s : State) :
    Routine interval s.disposeTimer.effects := by
  intro e he
  cases htimer : s.timer with
  | none => simp [disposeTimer, htimer] at he
  | some generation =>
      simp only [disposeTimer, htimer, List.mem_singleton] at he
      rw [he]
      rfl

theorem routine_armTimer (s : State) :
    Routine s.record.refreshInterval s.armTimer.effects := by
  apply (routine_disposeTimer _ s).append
  simp [Routine, Effect.isRoutine, disposeTimer]

theorem routine_reset (s : State) : Routine s.record.refreshInterval s.reset.effects := by
  refine Routine.append ?_ (routine_armTimer { s with cycle := s.cycle + 1, outstanding := 0 })
  apply Routine.append
  · split <;> simp [Routine, Effect.isRoutine]
  · simp [Routine, Effect.isRoutine, measureOutstanding]

theorem routine_start (s : State) : Routine s.record.refreshInterval s.start.effects := by
  simp only [start]
  split
  · exact .nil
  · refine Routine.append ?_ (Routine.append (routine_armTimer _) ?_)
    · simp [Routine, Effect.isRoutine, issue, measureOutstanding]
    · simp [Routine, Effect.isRoutine]

theorem routine_stop (interval : UInt64) (s : State) : Routine interval s.stop.effects := by
  apply (routine_disposeTimer interval _).append
  simp [Routine, Effect.isRoutine]

theorem routine_dropCycle (s : State) :
    Routine s.record.refreshInterval s.dropCycle.effects := by
  simp only [dropCycle]
  split
  · apply (routine_reset s).append
    simp [Routine, Effect.isRoutine]
  · exact .nil

theorem routine_setInterval (s : State) (seconds : UInt64) :
    Routine seconds (s.setInterval seconds).effects := by
  simp only [setInterval]
  split
  · exact routine_reset { s with record.refreshInterval := seconds }
  · exact .nil

theorem routine_tick {s : State} {generation : UInt64} {c : Change} (interval : UInt64)
    (h : s.tick generation = some c) : Routine interval c.effects := by
  simp only [tick] at h
  split at h
  · cases h
  · obtain rfl := Option.some.inj h
    apply Routine.append
    · split <;> simp [Routine, Effect.isRoutine, issue, measureOutstanding]
    · simp [Routine, Effect.isRoutine]

theorem routine_retire (interval : UInt64) (s : State) (cycle : UInt64) :
    Routine interval (s.retire cycle).effects := by
  simp only [retire]
  split <;> simp [Routine, Effect.isRoutine, measureOutstanding]

end State

/-- What a command does is routine for the interval that it leaves behind. -/
theorem Command.routine_call {s : State} {c : Command} {call : Call} (h : c.call s = .ok call) :
    Routine (c.revise s.record).refreshInterval call.effects := by
  have hstop (interval : UInt64) (persist : Bool) :
      Routine interval (callStop s persist).effects := by
    cases persist <;>
      exact (State.routine_stop interval s).append (by simp [Routine, Effect.isRoutine,
        callStop, Call.stored, Call.unstored])
  cases c with
  | start =>
      obtain rfl := Except.ok.inj h
      exact (State.routine_start s).append .nil
  | stop persist =>
      obtain rfl := Except.ok.inj h
      exact hstop _ persist
  | setInterval seconds =>
      simp only [Command.call] at h
      split at h
      · cases h
      · next hcheck =>
          obtain rfl := Except.ok.inj h
          have haccepted : (checkInterval seconds).isOk = true := by rw [hcheck]; rfl
          rw [revise, if_pos haccepted]
          apply (State.routine_setInterval s seconds).append
          simp [Routine, Effect.isRoutine, callSetInterval, Call.stored]
  | suppress b =>
      obtain rfl := Except.ok.inj h
      apply Routine.append .nil
      simp [Routine, Effect.isRoutine, Call.unstored]
  | dropCycle =>
      obtain rfl := Except.ok.inj h
      exact (State.routine_dropCycle s).append .nil
  | endSession =>
      obtain rfl := Except.ok.inj h
      split
      · exact hstop _ false
      · exact .nil

namespace Service

variable {κ : Type}

/-- An action that answers no query has routine effects. -/
theorem routine_effects {s : Service κ} {a : Action κ} (h : s.landed a = []) :
    Routine (a.revise s.state.record).refreshInterval (s.effects a) := by
  cases a with
  | command c =>
      simp only [effects]
      split
      · simp [Routine, Effect.isRoutine]
      · next hcall => exact Command.routine_call hcall
  | tick generation =>
      simp only [effects]
      split
      · simp [Routine, Effect.isRoutine]
      · next htick => exact State.routine_tick _ htick
  | answer place result =>
      have hplace : s.flights[place]? = none := by simpa [landed] using h
      simp only [effects, hplace]
      exact .nil
  | claim place =>
      simp only [effects]
      split
      · split <;> simp [Routine, Effect.isRoutine, skippedEffects]
      · exact .nil
  | save result =>
      simp only [effects]
      split
      · exact .nil
      · cases result <;> simp [Routine, Effect.isRoutine, savedEffects]
  | _ => exact .nil

end Service
end Polling
end SearchPolling
