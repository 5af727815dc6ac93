import SearchPolling.Proofs.Service.Record
import SearchPolling.Proofs.Writing.Order

/-!
# Sequential runs

In a sequential run no command is given before the one before it has returned, and the
store takes in whatever it is given.  Ticks, answers and what the outside does may come at
any time.  At most one caller is then at the desk, and what it has to write is the record
as it is.
-/

namespace SearchPolling
namespace Polling
namespace Service

variable {κ : Type}

/-- Whether nobody waits to write, and nobody writes. -/
def idle (s : Service κ) : Bool :=
  s.waiting.isEmpty && s.writing.isNone

/-- Whether an action may come next in a sequential run. -/
def awaits (s : Service κ) : Action κ → Bool
  | .command _ => s.idle
  | .save (.error _) => false
  | .abandon _ => false
  | .interrupt => false
  | _ => true

theorem idle_iff {s : Service κ} : s.idle = true ↔ s.waiting = [] ∧ s.writing = none := by
  simp [idle]

/-- The only caller at the desk has this snapshot, and the snapshot is not stale. -/
structure Serves (s : Service κ) (t : Snapshot) : Prop where
  only : (s.waiting = [t] ∧ s.writing = none) ∨ (s.waiting = [] ∧ s.writing = some t)
  fresh : s.placed.engine.writer.lastClaimed ≤ t.seq

theorem Serves.not_idle {s : Service κ} {t : Snapshot} (h : s.Serves t) : s.idle = false := by
  rcases h.only with ⟨hwaiting, _⟩ | ⟨_, hwriting⟩
  · simp [idle, hwaiting]
  · simp [idle, hwriting]

/-- Whether a desk is idle, and whom it serves, can be seen from the desk alone. -/
theorem idle_of_desk {s s' : Service κ} (h : s'.desk = s.desk) : s'.idle = s.idle := by
  have hwaiting : s'.waiting = s.waiting := congrArg Desk.waiting h
  have hwriting : s'.writing = s.writing := congrArg Desk.writing h
  rw [idle, idle, hwaiting, hwriting]

theorem Serves.of_desk {s s' : Service κ} {t : Snapshot} (hserves : s.Serves t)
    (h : s'.desk = s.desk) : s'.Serves t := by
  have hwaiting : s'.waiting = s.waiting := congrArg Desk.waiting h
  have hwriting : s'.writing = s.writing := congrArg Desk.writing h
  have hlast : s'.placed.engine.writer.lastClaimed = s.placed.engine.writer.lastClaimed :=
    congrArg Desk.lastClaimed h
  constructor
  · rw [hwaiting, hwriting]
    exact hserves.only
  · rw [hlast]
    exact hserves.fresh

/-- The desk is idle, or the only caller at it is about to store the record as it is. -/
def Settled (s : Service κ) : Prop :=
  s.idle = true ∨ ∃ t, s.Serves t ∧ t.record = s.state.record

namespace Settled

variable {s : Service κ} {t : Snapshot}

theorem of_waiting (h : s.Settled) {place : Nat} (hplace : s.waiting[place]? = some t) :
    s.Serves t ∧ t.record = s.state.record ∧ s.waiting.eraseIdx place = [] := by
  rcases h with hidle | ⟨u, hserves, hrecord⟩
  · rw [(idle_iff.mp hidle).1] at hplace
    cases hplace
  · rcases hserves.only with ⟨hwaiting, hwriting⟩ | ⟨hwaiting, _⟩
    · rw [hwaiting] at hplace
      cases place with
      | zero =>
          obtain rfl : u = t := Option.some.inj hplace
          exact ⟨hserves, hrecord, by rw [hwaiting]; rfl⟩
      | succ place => cases hplace
    · rw [hwaiting] at hplace
      cases hplace

theorem of_writing (h : s.Settled) (hwriting : s.writing = some t) :
    s.Serves t ∧ t.record = s.state.record ∧ s.waiting = [] := by
  rcases h with hidle | ⟨u, hserves, hrecord⟩
  · rw [(idle_iff.mp hidle).2] at hwriting
    cases hwriting
  · rcases hserves.only with ⟨_, hnone⟩ | ⟨hwaiting, hu⟩
    · rw [hnone] at hwriting
      cases hwriting
    · obtain rfl : u = t := Option.some.inj (hu.symm.trans hwriting)
      exact ⟨hserves, hrecord, hwaiting⟩

end Settled

variable [DecidableEq κ]

/-- Whether a run is sequential. -/
def sequential (s : Service κ) : List (Action κ) → Bool
  | [] => true
  | a :: as => s.awaits a && (s.step a).sequential as

/-- The ways in which a step of a sequential run may change the desk. -/
inductive SequentialTurn (s : Service κ) (a : Action κ) : Prop
  | unchanged (hdesk : (s.step a).desk = s.desk) (hpapers : s.papers a = {})
  | queued (t : Snapshot) (hserves : (s.step a).Serves t)
      (hrecord : t.record = (s.step a).state.record) (hstore : (s.step a).store = s.store)
      (hpapers : s.papers a = { taken := [t] })
  | claimed (t : Snapshot) (hserves : (s.step a).Serves t)
      (hrecord : t.record = (s.step a).state.record) (hstore : (s.step a).store = s.store)
      (hpapers : s.papers a = { passed := [t] })
  | saved (t : Snapshot) (hidle : (s.step a).idle = true)
      (hrecord : t.record = (s.step a).state.record)
      (hstore : (s.step a).store = s.store.save s.placed.engine.stateKey t.record.render)
      (hpapers : s.papers a = { saved := [t], returned := [t] })

/-- While a caller is at the desk no command is given, so the record stays as it is. -/
theorem record_step_of_busy {s : Service κ} {a : Action κ} (hbusy : s.idle = false)
    (ha : s.awaits a = true) : (s.step a).state.record = s.state.record := by
  rw [record_step]
  cases a with
  | command c =>
      have hidle : s.idle = true := ha
      rw [hbusy] at hidle
      cases hidle
  | _ => rfl

omit [DecidableEq κ] in
theorem idle_of_taken {s : Service κ} {a : Action κ} {t : Snapshot} (ha : s.awaits a = true)
    (ht : t ∈ s.taken a) : s.idle = true := by
  cases a with
  | command c => exact ha
  | _ => cases ht

theorem Settled.turn {s : Service κ} (h : s.Settled) {a : Action κ} (ha : s.awaits a = true)
    (hlast : s.desk.lastClaimed ≤ s.desk.snapshots) : SequentialTurn s a := by
  cases s.writingTurn a with
  | idle hdesk hpapers => exact .unchanged hdesk hpapers
  | queued t hseq hrecord hdesk hpapers =>
      have htaken : t ∈ (s.papers a).taken := by
        rw [hpapers]
        exact List.mem_singleton_self t
      obtain ⟨hwaiting, hwriting⟩ := idle_iff.mp (idle_of_taken ha htaken)
      have hwaits : (s.step a).waiting = [t] := by
        have hall : (s.step a).waiting = s.waiting ++ [t] := congrArg Desk.waiting hdesk
        rw [hall, hwaiting]
        rfl
      have hfree : (s.step a).writing = none := by
        rw [← hwriting]
        exact congrArg Desk.writing hdesk
      have hclaimed : (s.step a).placed.engine.writer.lastClaimed = s.desk.lastClaimed :=
        congrArg Desk.lastClaimed hdesk
      have hfresh : s.desk.lastClaimed ≤ t.seq := by
        rw [hseq]
        exact Nat.le_succ_of_le hlast
      exact .queued t ⟨Or.inl ⟨hwaits, hfree⟩, hclaimed ▸ hfresh⟩ hrecord
        (congrArg Desk.store hdesk) hpapers
  | skipped place t _ hplace hstale _ _ =>
      have hfresh := (h.of_waiting hplace).1.fresh
      omega
  | claimed place t _ hplace _ hdesk hpapers =>
      obtain ⟨hserves, hrecord, hrest⟩ := h.of_waiting hplace
      have hwaits : (s.step a).waiting = [] := by
        rw [← hrest]
        exact congrArg Desk.waiting hdesk
      have hwrites : (s.step a).writing = some t := congrArg Desk.writing hdesk
      have hclaimed : (s.step a).placed.engine.writer.lastClaimed = t.seq :=
        congrArg Desk.lastClaimed hdesk
      refine .claimed t ⟨Or.inr ⟨hwaits, hwrites⟩, Nat.le_of_eq hclaimed⟩ ?_
        (congrArg Desk.store hdesk) hpapers
      rw [record_step_of_busy hserves.not_idle ha]
      exact hrecord
  | saved t hwriting hdesk hpapers =>
      obtain ⟨hserves, hrecord, hwaiting⟩ := h.of_writing hwriting
      have hwaits : (s.step a).waiting = [] := by
        rw [← hwaiting]
        exact congrArg Desk.waiting hdesk
      have hdone : (s.step a).writing = none := congrArg Desk.writing hdesk
      refine .saved t (idle_iff.mpr ⟨hwaits, hdone⟩) ?_ (congrArg Desk.store hdesk) hpapers
      rw [record_step_of_busy hserves.not_idle ha]
      exact hrecord
  | failed t e haction _ _ _ =>
      rw [haction] at ha
      cases ha
  | abandoned place haction _ _ =>
      rw [haction] at ha
      cases ha
  | interrupted haction _ _ =>
      rw [haction] at ha
      cases ha

/-- Every step of a sequential run leaves the desk settled. -/
theorem Settled.step {s : Service κ} (h : s.Settled) {a : Action κ} (ha : s.awaits a = true)
    (hlast : s.desk.lastClaimed ≤ s.desk.snapshots) : (s.step a).Settled := by
  cases h.turn ha hlast with
  | unchanged hdesk _ =>
      rcases h with hidle | ⟨t, hserves, hrecord⟩
      · exact Or.inl ((idle_of_desk hdesk).trans hidle)
      · refine Or.inr ⟨t, hserves.of_desk hdesk, ?_⟩
        rw [record_step_of_busy hserves.not_idle ha]
        exact hrecord
  | queued t hserves hrecord _ _ => exact Or.inr ⟨t, hserves, hrecord⟩
  | claimed t hserves hrecord _ _ => exact Or.inr ⟨t, hserves, hrecord⟩
  | saved t hidle _ _ _ => exact Or.inl hidle

end Service
end Polling
end SearchPolling
