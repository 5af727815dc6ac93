import SearchPolling.Proofs.Service.Launch

/-!
# What a step does to the record

Only commands change the record: a start sets it active, a stop and the end of a session
set it inactive, and an interval is taken over if it can be used.  The record can be used
from the launch on, whatever was configured or found in the store, and so it can be at
every point of a run.
-/

namespace SearchPolling
namespace Polling

/-- What a command makes of the record. -/
def Command.revise (r : Record) : Command → Record
  | .start => { r with active := true }
  | .stop _ => { r with active := false }
  | .setInterval seconds =>
    if (checkInterval seconds).isOk then { r with refreshInterval := seconds } else r
  | .suppress _ => r
  | .dropCycle => r
  | .endSession => { r with active := false }

/-- What an action makes of the record. -/
def Action.revise {κ : Type} (r : Record) : Action κ → Record
  | .command c => c.revise r
  | _ => r

/-! ## The record after the state's changes -/

namespace State

theorem record_reset (s : State) : s.reset.state.record = s.record := rfl

theorem record_start (s : State) : s.start.state.record = { s.record with active := true } := by
  simp only [start]
  split
  · next h => rw [← h]
  · rfl

theorem record_setInterval (s : State) (seconds : UInt64) :
    (s.setInterval seconds).state.record = { s.record with refreshInterval := seconds } := by
  simp only [setInterval]
  split
  · exact record_reset _
  · rfl

theorem record_dropCycle (s : State) : s.dropCycle.state.record = s.record := by
  simp only [dropCycle]
  split
  · exact record_reset _
  · rfl

theorem record_tick {s : State} {generation : UInt64} {c : Change}
    (h : s.tick generation = some c) : c.state.record = s.record := by
  simp only [tick] at h
  split at h
  · cases h
  · obtain rfl := Option.some.inj h
    simp only [Change.also]
    split <;> rfl

theorem record_retire (s : State) (cycle : UInt64) :
    (s.retire cycle).state.record = s.record := by
  simp only [retire]
  split <;> rfl

end State

theorem Command.record_call {s : State} {c : Command} {call : Call}
    (h : c.call s = .ok call) : call.change.state.record = c.revise s.record := by
  cases c with
  | start =>
      obtain rfl := Except.ok.inj h
      exact s.record_start
  | stop persist =>
      obtain rfl := Except.ok.inj h
      cases persist <;> rfl
  | setInterval seconds =>
      simp only [Command.call] at h
      split at h
      · cases h
      · next hcheck =>
          obtain rfl := Except.ok.inj h
          have haccepted : (checkInterval seconds).isOk = true := by rw [hcheck]; rfl
          rw [revise, if_pos haccepted]
          exact s.record_setInterval seconds
  | suppress b =>
      obtain rfl := Except.ok.inj h
      rfl
  | dropCycle =>
      obtain rfl := Except.ok.inj h
      exact s.record_dropCycle
  | endSession =>
      obtain rfl := Except.ok.inj h
      split
      · rfl
      · next hstopped =>
          have hsame : s.record.active = false := by simpa using hstopped
          rw [revise, ← hsame]
          rfl

/-- A command that is refused would leave the record as it is. -/
theorem Command.revise_of_error {s : State} {c : Command} {e : InvalidInterval}
    (h : c.call s = .error e) : c.revise s.record = s.record := by
  cases c with
  | setInterval seconds =>
      simp only [Command.call] at h
      split at h
      · next hcheck =>
          have hrefused : (checkInterval seconds).isOk = false := by rw [hcheck]; rfl
          simp [revise, hrefused]
      · cases h
  | _ => cases h

namespace Service

variable {κ : Type} [DecidableEq κ]

theorem record_step (s : Service κ) (a : Action κ) :
    (s.step a).state.record = a.revise s.state.record := by
  rw [state_step]
  cases a with
  | command c =>
      simp only [base]
      split
      · next h => exact (Command.revise_of_error h).symm
      · next h => exact Command.record_call h
  | tick generation =>
      simp only [base]
      split
      · rfl
      · next h => exact State.record_tick h
  | answer place result =>
      simp only [base]
      split
      · rfl
      · exact State.record_retire _ _
  | claim place =>
      simp only [base]
      split <;> rfl
  | receive name most =>
      simp only [base, step]
      split <;> rfl
  | _ => rfl

/-- The record after a run: its actions revise the record one after another. -/
theorem record_run (s : Service κ) (as : List (Action κ)) :
    (s.run as).state.record = as.foldl Action.revise s.state.record := by
  induction as generalizing s with
  | nil => rfl
  | cons a as ih => rw [run_cons, ih, record_step, List.foldl_cons]

end Service

/-! ## Records that can be used -/

theorem Action.check_revise {κ : Type} {r : Record} (h : r.check = .ok ()) (a : Action κ) :
    (a.revise r).check = .ok () := by
  cases a with
  | command c =>
      cases c with
      | setInterval seconds =>
          simp only [revise, Command.revise]
          split
          · next haccepted =>
              show checkInterval seconds = .ok ()
              cases hcheck : checkInterval seconds with
              | ok _ => rfl
              | error e => rw [hcheck] at haccepted; cases haccepted
          · exact h
      | _ => exact h
  | _ => exact h

theorem Action.check_foldl_revise {κ : Type} {r : Record} (h : r.check = .ok ())
    (as : List (Action κ)) : (as.foldl Action.revise r).check = .ok () := by
  induction as generalizing r with
  | nil => exact h
  | cons a as ih => exact ih (check_revise h a)

/-- A record that is found can be used. -/
theorem Restored.check_of_ofLoad {loaded : Except Store.Failure (Option String)} {r : Record}
    (h : (Restored.ofLoad loaded).record? = some r) : r.check = .ok () := by
  cases loaded with
  | error e => cases h
  | ok text =>
      cases text with
      | none => cases h
      | some text =>
          simp only [Restored.ofLoad, Restored.ofText] at h
          split at h
          · cases h
          · split at h
            · cases h
            · next hcheck =>
                obtain rfl := Option.some.inj h
                exact hcheck

namespace Launch

variable {κ : Type}

/-- The record of a session before it starts: the interval of the record that was found
or else the one that is configured, if it can be used. -/
def firstRecord (l : Launch) : Record where
  active := false
  refreshInterval :=
    match l.found.record? with
    | some r => r.refreshInterval
    | none => if (checkInterval l.interval).isOk then l.interval else standardInterval

theorem record_opened (l : Launch) : (l.opened : Service κ).state.record = l.firstRecord := by
  have hopening : (l.opening : Engine.Placed κ).engine.state.record =
      ⟨false, if (checkInterval l.interval).isOk then l.interval else standardInterval⟩ := by
    simp only [opening, Engine.opening, Engine.carryOut, Engine.performAll_state,
      State.opening, State.initial]
    cases checkInterval l.interval <;> rfl
  simp only [Service.state, opened, Engine.adopt, firstRecord]
  cases l.found.record? with
  | none => simpa using hopening
  | some r =>
      simp only [Engine.carryOut, Engine.performAll_state, State.adopt, State.adoptInterval,
        Change.also, hopening]

theorem check_firstRecord (l : Launch) : l.firstRecord.check = .ok () := by
  simp only [Record.check, firstRecord]
  cases hfound : l.found.record? with
  | some r => exact Restored.check_of_ofLoad hfound
  | none =>
      cases hcheck : checkInterval l.interval with
      | ok _ => exact hcheck
      | error e => rfl

variable [DecidableEq κ]

theorem record_run (l : Launch) (as : List (Action κ)) :
    (l.run as).state.record = (l.course as).foldl Action.revise l.firstRecord := by
  rw [run, Service.record_run, record_opened]

/-- The record can be used at every point from the launch on. -/
theorem check_opened_run (l : Launch) (before : List (Action κ)) :
    (l.opened.run before).state.record.check = .ok () := by
  rw [Service.record_run, record_opened]
  exact Action.check_foldl_revise l.check_firstRecord before

/-- The record can be used at every point of a run. -/
theorem check_record (l : Launch) (as : List (Action κ)) :
    (l.run as).state.record.check = .ok () :=
  l.check_opened_run (l.course as)

/-- A session begins with the record that it found. -/
theorem record_of_found {l : Launch} {r : Record} (h : l.found.record? = some r) :
    (l.run [] : Service κ).state.record = r := by
  have hactive : l.found.isActive = r.active := by
    simp [Restored.isActive, h]
  obtain ⟨active, interval⟩ := r
  rw [record_run, course, first, hactive, firstRecord, h]
  cases active <;> rfl

end Launch
end Polling
end SearchPolling
