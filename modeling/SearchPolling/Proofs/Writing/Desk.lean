import SearchPolling.Proofs.Service.Launch

/-!
# What a step may do to the writing of records

A caller whose transition is to be stored takes a snapshot and waits for its turn to
write.  When it gets the turn its snapshot is passed to the store, unless a newer one
was passed before; the caller then returns at once.  `Service.writingTurn` says in
which ways a step may change the desk at which all this happens.
-/

namespace SearchPolling
namespace Polling

/-- What decides about the writing of records. -/
structure Desk where
  /-- The number of snapshots that have been taken. -/
  snapshots : Nat
  lastClaimed : Nat
  waiting : List Snapshot
  writing : Option Snapshot
  stateKey : String
  store : Store.Memory

/-- What a step leaves behind in the records of writing. -/
structure Papers where
  /-- The snapshots that are taken. -/
  taken : List Snapshot := []
  /-- The snapshots that are passed to the store. -/
  passed : List Snapshot := []
  /-- The snapshots that the store has taken in. -/
  saved : List Snapshot := []
  /-- The snapshots whose callers return. -/
  returned : List Snapshot := []

namespace Engine

variable {κ : Type}

theorem command_fst (p : Placed κ) (c : Command) :
    (command p c).1 = (c.call p.engine.state).map (·.snapshot) := by
  rw [command]
  cases c.call p.engine.state <;> rfl

theorem claim_fst (p : Placed κ) (t : Snapshot) :
    (claim p t).1 = !p.engine.writer.isStale t := by
  cases hstale : p.engine.writer.isStale t <;> simp [claim, Writer.claim?, hstale]

end Engine

namespace Service

variable {κ : Type}

def desk (s : Service κ) : Desk where
  snapshots := s.state.snapshots
  lastClaimed := s.placed.engine.writer.lastClaimed
  waiting := s.waiting
  writing := s.writing
  stateKey := s.placed.engine.stateKey
  store := s.store

/-- The snapshots that an action takes. -/
def taken (s : Service κ) : Action κ → List Snapshot
  | .command c => snapshotsOf (Engine.command s.placed c).1
  | _ => []

/-- The snapshot at a place, if it gets its turn; none does while one is written. -/
def called (s : Service κ) (place : Nat) : List Snapshot :=
  match s.writing with
  | none => s.waiting[place]?.toList
  | some _ => []

def passed (s : Service κ) : Action κ → List Snapshot
  | .claim place => (s.called place).filter fun t => (Engine.claim s.placed t).1
  | _ => []

/-- The snapshots that the store has taken in with an action. -/
def saved (s : Service κ) : Action κ → List Snapshot
  | .save (.ok _) => s.writing.toList
  | _ => []

/-- The snapshots whose callers return with an action: what they had to write was stale,
or its save has ended. -/
def returned (s : Service κ) : Action κ → List Snapshot
  | .claim place => (s.called place).filter fun t => !(Engine.claim s.placed t).1
  | .save _ => s.writing.toList
  | _ => []

def papers (s : Service κ) (a : Action κ) : Papers where
  taken := s.taken a
  passed := s.passed a
  saved := s.saved a
  returned := s.returned a

/-- Two services are alike at the desk if the same is waiting, being written and stored
there, and commands and claims have the same results in both. -/
structure AlikeAtDesk (s t : Service κ) : Prop where
  store_eq : s.store = t.store
  waiting_eq : s.waiting = t.waiting
  writing_eq : s.writing = t.writing
  stateKey_eq : s.placed.engine.stateKey = t.placed.engine.stateKey
  command_eq : ∀ c, (Engine.command s.placed c).1 = (Engine.command t.placed c).1
  claim_eq : ∀ u, (Engine.claim s.placed u).1 = (Engine.claim t.placed u).1

theorem AlikeAtDesk.papers_eq {s t : Service κ} (h : AlikeAtDesk s t) (a : Action κ) :
    s.papers a = t.papers a := by
  have hcalled (place : Nat) : s.called place = t.called place := by
    simp only [called, h.writing_eq, h.waiting_eq]
  cases a with
  | command c => simp only [papers, taken, h.command_eq, passed, saved, returned]
  | claim place => simp only [papers, taken, passed, saved, returned, hcalled, h.claim_eq]
  | save result =>
      cases result <;> simp only [papers, taken, passed, saved, returned, h.writing_eq]
  | _ => rfl

variable [DecidableEq κ]

/-- An action leaves the same at a desk where the same was before. -/
theorem AlikeAtDesk.step {s t : Service κ} (h : AlikeAtDesk s t) (a : Action κ) :
    (s.step a).store = (t.step a).store ∧ (s.step a).waiting = (t.step a).waiting ∧
      (s.step a).writing = (t.step a).writing := by
  obtain ⟨hstore, hwaiting, hwriting, hkey, hcommand, hclaim⟩ := h
  cases a with
  | command c =>
      refine ⟨hstore, ?_, hwriting⟩
      have hobeyed (u : Service κ) : (u.step (.command c)).waiting =
          u.waiting ++ snapshotsOf (Engine.command u.placed c).1 := rfl
      rw [hobeyed, hobeyed, hwaiting, hcommand]
  | answer place result =>
      simp only [Service.step, takeAnswer]
      split <;> split <;> exact ⟨hstore, hwaiting, hwriting⟩
  | claim place =>
      simp only [Service.step, takeTurn, hwriting, hwaiting, hclaim]
      split
      · exact ⟨hstore, rfl, rfl⟩
      · exact ⟨hstore, hwaiting, hwriting⟩
  | save result =>
      simp only [Service.step, endSave, hwriting, hstore, hkey]
      split
      · exact ⟨hstore, hwaiting, hwriting⟩
      · exact ⟨rfl, hwaiting, rfl⟩
  | abandon place => exact ⟨hstore, congrArg (·.eraseIdx place) hwaiting, hwriting⟩
  | interrupt => exact ⟨hstore, hwaiting, rfl⟩
  | receive name most =>
      simp only [Service.step]
      split <;> split <;> exact ⟨hstore, hwaiting, hwriting⟩
  | _ => exact ⟨hstore, hwaiting, hwriting⟩

/-- The ways in which a step may change the desk. -/
inductive WritingTurn (s : Service κ) (a : Action κ) : Prop
  | idle (hdesk : (s.step a).desk = s.desk) (hpapers : s.papers a = {})
  | queued (t : Snapshot) (hseq : t.seq = s.state.snapshots + 1)
      (hrecord : t.record = (s.step a).state.record)
      (hdesk : (s.step a).desk =
        { s.desk with snapshots := t.seq, waiting := s.waiting ++ [t] })
      (hpapers : s.papers a = { taken := [t] })
  | skipped (place : Nat) (t : Snapshot) (hwriting : s.writing = none)
      (hplace : s.waiting[place]? = some t)
      (hstale : t.seq < s.placed.engine.writer.lastClaimed)
      (hdesk : (s.step a).desk = { s.desk with waiting := s.waiting.eraseIdx place })
      (hpapers : s.papers a = { returned := [t] })
  | claimed (place : Nat) (t : Snapshot) (hwriting : s.writing = none)
      (hplace : s.waiting[place]? = some t)
      (hfresh : s.placed.engine.writer.lastClaimed ≤ t.seq)
      (hdesk : (s.step a).desk =
        { s.desk with
          lastClaimed := t.seq
          waiting := s.waiting.eraseIdx place
          writing := some t })
      (hpapers : s.papers a = { passed := [t] })
  | saved (t : Snapshot) (hwriting : s.writing = some t)
      (hdesk : (s.step a).desk =
        { s.desk with
          writing := none
          store := s.store.save s.placed.engine.stateKey t.record.render })
      (hpapers : s.papers a = { saved := [t], returned := [t] })
  | failed (t : Snapshot) (e : Store.Failure) (haction : a = .save (.error e))
      (hwriting : s.writing = some t)
      (hdesk : (s.step a).desk = { s.desk with writing := none })
      (hpapers : s.papers a = { returned := [t] })
  | abandoned (place : Nat) (haction : a = .abandon place)
      (hdesk : (s.step a).desk = { s.desk with waiting := s.waiting.eraseIdx place })
      (hpapers : s.papers a = {})
  | interrupted (haction : a = .interrupt)
      (hdesk : (s.step a).desk = { s.desk with writing := none })
      (hpapers : s.papers a = {})

/-- The desk after a step.  No effect changes what is written. -/
theorem desk_step (s : Service κ) (a : Action κ) :
    (s.step a).desk =
      { snapshots := (s.base a).engine.state.snapshots
        lastClaimed := (s.base a).engine.writer.lastClaimed
        waiting := (s.step a).waiting
        writing := (s.step a).writing
        stateKey := (s.base a).engine.stateKey
        store := (s.step a).store } := by
  simp only [desk, state, step_placed, Engine.performAll_state, Engine.performAll_writer,
    Engine.performAll_stateKey]

end Service

/-! ## Snapshots of the state's changes -/

namespace State

theorem snapshots_start (s : State) : s.start.state.snapshots = s.snapshots := by
  simp only [start]
  split <;> rfl

theorem snapshots_setInterval (s : State) (seconds : UInt64) :
    (s.setInterval seconds).state.snapshots = s.snapshots := by
  simp only [setInterval]
  split <;> rfl

theorem snapshots_dropCycle (s : State) : s.dropCycle.state.snapshots = s.snapshots := by
  simp only [dropCycle]
  split <;> rfl

theorem snapshots_tick {s : State} {generation : UInt64} {c : Change}
    (h : s.tick generation = some c) : c.state.snapshots = s.snapshots := by
  simp only [tick] at h
  split at h
  · cases h
  · obtain rfl := Option.some.inj h
    simp only [Change.also]
    split <;> rfl

theorem snapshots_retire (s : State) (cycle : UInt64) :
    (s.retire cycle).state.snapshots = s.snapshots := by
  simp only [retire]
  split <;> rfl

end State

namespace Call

/-- A call takes no snapshot, or it takes the next one, of the record that it leaves. -/
def Numbered (s : State) (c : Call) : Prop :=
  (c.snapshot = none ∧ c.change.state.snapshots = s.snapshots) ∨
    ∃ t, c.snapshot = some t ∧ t.seq = s.snapshots + 1 ∧
      c.change.state.snapshots = t.seq ∧ t.record = c.change.state.record

theorem numbered_unstored {s : State} {c : Change} (h : c.state.snapshots = s.snapshots)
    (afterwards : List Effect) : (Call.unstored c afterwards).Numbered s :=
  Or.inl ⟨rfl, h⟩

theorem numbered_stored {s : State} {c : Change} (h : c.state.snapshots = s.snapshots)
    (afterwards : List Effect) : (Call.stored c afterwards).Numbered s :=
  Or.inr ⟨_, rfl, congrArg (· + 1) h, rfl, rfl⟩

end Call

theorem Command.numbered_call {s : State} {c : Command} {call : Call}
    (h : c.call s = .ok call) : call.Numbered s := by
  cases c with
  | start =>
      obtain rfl := Except.ok.inj h
      exact Call.numbered_stored s.snapshots_start []
  | stop persist =>
      obtain rfl := Except.ok.inj h
      cases persist with
      | true => exact Call.numbered_stored rfl _
      | false => exact Call.numbered_unstored rfl _
  | setInterval seconds =>
      simp only [Command.call] at h
      split at h
      · cases h
      · obtain rfl := Except.ok.inj h
        exact Call.numbered_stored (s.snapshots_setInterval seconds) _
  | suppress b =>
      obtain rfl := Except.ok.inj h
      exact Call.numbered_unstored rfl _
  | dropCycle =>
      obtain rfl := Except.ok.inj h
      exact Call.numbered_unstored s.snapshots_dropCycle []
  | endSession =>
      obtain rfl := Except.ok.inj h
      split
      · exact Call.numbered_unstored rfl _
      · exact Call.numbered_unstored rfl _

namespace Service

variable {κ : Type} [DecidableEq κ]

/-! ## Each action takes one of these ways -/

/-- An action that leaves the state's snapshots and all that is written alone. -/
theorem writingTurn_idle {s : Service κ} {a : Action κ}
    (hsnapshots : (s.base a).engine.state.snapshots = s.state.snapshots)
    (hbase : (s.base a).engine.writer = s.placed.engine.writer ∧
      (s.base a).engine.stateKey = s.placed.engine.stateKey)
    (hstep : (s.step a).waiting = s.waiting ∧ (s.step a).writing = s.writing ∧
      (s.step a).store = s.store)
    (hpapers : s.papers a = {}) : WritingTurn s a := by
  refine .idle ?_ hpapers
  rw [desk_step, hsnapshots, hbase.1, hbase.2, hstep.1, hstep.2.1, hstep.2.2]
  rfl

theorem writingTurn_command (s : Service κ) (c : Command) : WritingTurn s (.command c) := by
  cases hcall : c.call s.state with
  | error e =>
      have hwaiting : (s.step (.command c)).waiting = s.waiting := by
        simp [step, obey, Engine.command, hcall, snapshotsOf]
      refine writingTurn_idle ?_ ?_ ⟨hwaiting, rfl, rfl⟩ ?_
      · simp only [base, hcall]
      · simp [base, hcall]
      · simp [papers, taken, passed, saved, returned, Engine.command, hcall, snapshotsOf]
  | ok call =>
      have hwaiting : (s.step (.command c)).waiting =
          s.waiting ++ snapshotsOf (.ok call.snapshot) := by
        simp [step, obey, Engine.command, hcall]
      have htaken : s.taken (.command c) = snapshotsOf (.ok call.snapshot) := by
        simp [taken, Engine.command, hcall]
      have hbase : s.base (.command c) = { s.placed with engine.state := call.change.state } := by
        simp only [base, hcall]
      rcases Command.numbered_call hcall with
        ⟨hnone, hsnapshots⟩ | ⟨t, hsome, hseq, hsnapshots, hrecord⟩
      · rw [hnone] at hwaiting htaken
        refine writingTurn_idle ?_ ?_ ⟨?_, rfl, rfl⟩ ?_
        · rw [hbase, ← hsnapshots]
        · rw [hbase]
          exact ⟨rfl, rfl⟩
        · rw [hwaiting]
          exact List.append_nil _
        · rw [papers, htaken]
          rfl
      · rw [hsome] at hwaiting htaken
        refine .queued t hseq ?_ ?_ ?_
        · rw [state_step, hbase, hrecord]
        · rw [desk_step, hbase, hwaiting, ← hsnapshots]
          rfl
        · rw [papers, htaken]
          rfl

theorem writingTurn_claim (s : Service κ) (place : Nat) : WritingTurn s (.claim place) := by
  cases hwriting : s.writing with
  | some _ =>
      refine .idle ?_ ?_
      · simp [step, takeTurn, hwriting]
      · simp [papers, taken, passed, saved, returned, called, hwriting]
  | none =>
      cases hplace : s.waiting[place]? with
      | none =>
          refine .idle ?_ ?_
          · simp [step, takeTurn, hwriting, hplace]
          · simp [papers, taken, passed, saved, returned, called, hwriting, hplace]
      | some t =>
          by_cases hstale : t.seq < s.placed.engine.writer.lastClaimed
          · refine .skipped place t hwriting hplace hstale ?_ ?_
            · rw [desk_step]
              simp [base, step, takeTurn, hwriting, hplace, Engine.claim, Writer.claim?,
                Writer.isStale, hstale, desk]
            · simp [papers, taken, passed, saved, returned, called, hwriting, hplace,
                Engine.claim, Writer.claim?, Writer.isStale, hstale]
          · refine .claimed place t hwriting hplace (Nat.le_of_not_lt hstale) ?_ ?_
            · rw [desk_step]
              simp [base, step, takeTurn, hwriting, hplace, Engine.claim, Writer.claim?,
                Writer.isStale, hstale, desk]
            · simp [papers, taken, passed, saved, returned, called, hwriting, hplace,
                Engine.claim, Writer.claim?, Writer.isStale, hstale]

theorem writingTurn_save (s : Service κ) (result : Except Store.Failure Unit) :
    WritingTurn s (.save result) := by
  cases hwriting : s.writing with
  | none =>
      refine .idle ?_ ?_
      · simp [step, endSave, hwriting]
      · cases result <;> simp [papers, taken, passed, saved, returned, hwriting]
  | some t =>
      cases result with
      | ok _ =>
          refine .saved t hwriting ?_ ?_
          · rw [desk_step]
            simp [base, step, endSave, storeAfter, hwriting, desk]
          · simp [papers, taken, passed, saved, returned, hwriting]
      | error e =>
          refine .failed t e rfl hwriting ?_ ?_
          · rw [desk_step]
            simp [base, step, endSave, storeAfter, hwriting, desk]
          · simp [papers, taken, passed, saved, returned, hwriting]

/-- Every step changes the desk in one of these ways. -/
theorem writingTurn (s : Service κ) (a : Action κ) : WritingTurn s a := by
  cases a with
  | command c => exact s.writingTurn_command c
  | claim place => exact s.writingTurn_claim place
  | save result => exact s.writingTurn_save result
  | abandon place => exact .abandoned place rfl rfl rfl
  | interrupt => exact .interrupted rfl rfl rfl
  | tick generation =>
      refine writingTurn_idle ?_ ?_ ⟨rfl, rfl, rfl⟩ rfl
      · simp only [base]
        split
        · rfl
        · next htick => exact State.snapshots_tick htick
      · simp only [base]
        split <;> exact ⟨rfl, rfl⟩
  | answer place result =>
      have hstep : (s.step (.answer place result)).waiting = s.waiting ∧
          (s.step (.answer place result)).writing = s.writing ∧
          (s.step (.answer place result)).store = s.store := by
        simp only [step, takeAnswer]
        split <;> exact ⟨rfl, rfl, rfl⟩
      refine writingTurn_idle ?_ ?_ hstep rfl
      · simp only [base]
        split
        · rfl
        · exact State.snapshots_retire _ _
      · simp only [base]
        split <;> exact ⟨rfl, rfl⟩
  | receive name most =>
      refine .idle ?_ rfl
      simp only [step]
      split <;> rfl
  | _ => exact .idle rfl rfl

end Service
end Polling
end SearchPolling
