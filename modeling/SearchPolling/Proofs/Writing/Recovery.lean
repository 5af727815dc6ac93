import SearchPolling.Proofs.Reading.Record
import SearchPolling.Proofs.Service.Record
import SearchPolling.Proofs.Writing.Newest

/-!
# Recovery from lost writes

A save may fail, a caller may go away while it waits for its turn, and the caller who
saves may go away before the store has taken the record.  Nothing of this reaches what is
in memory, which is the same as if nobody had ever written.  Nor does it ever put off the
newest snapshot: whatever was claimed for writing and then lost is older, so the next
caller who saves the newest snapshot brings the store up to date.
-/

namespace SearchPolling
namespace Polling

/-- Whether an action belongs to the writing of records: a caller gets its turn, ends a
save, or goes away. -/
def Action.writes {κ : Type} : Action κ → Bool
  | .claim _ => true
  | .save _ => true
  | .abandon _ => true
  | .interrupt => true
  | _ => false

/-- Whether an effect is nothing but a measurement or a notice. -/
def Effect.isTold : Effect → Bool
  | .measure _ => true
  | .note _ => true
  | _ => false

namespace Engine

variable {κ : Type}

/-- An engine in its surroundings without what is measured and told, and without a trace
of who wrote last. -/
def Placed.forget (p : Placed κ) : Placed κ where
  engine := { p.engine with writer := .initial }
  world := { p.world with registry := .fresh, notices := [] }

/-- What is measured and told has no part in what effects do to the rest. -/
theorem selfContained_forget : SelfContained (κ := κ) Placed.forget := by
  intro p e
  cases e with
  | measure m =>
      by_cases hmeasured : p.engine.measured <;>
        simp [perform, Placed.forget, Surroundings.measure, hmeasured]
  | publish e =>
      by_cases hunheard : (p.engine.sink.publish e).1 = 0 <;>
        simp [perform, publish, Placed.forget, Surroundings.say, hunheard]
  | _ => rfl

/-- Measurements and notices alone change nothing else. -/
theorem forget_performAll_of_told (p : Placed κ) {es : List Effect}
    (h : ∀ e ∈ es, e.isTold = true) : (performAll p es).forget = p.forget := by
  induction es generalizing p with
  | nil => rfl
  | cons e es ih =>
      rw [List.forall_mem_cons] at h
      rw [performAll_cons, ih _ h.2]
      cases e with
      | measure m =>
          simp only [perform]
          split <;> rfl
      | note n => rfl
      | _ => cases h.1

end Engine

namespace Service

variable {κ : Type}

/-- What a service has in memory, but for what is measured and told. -/
def inMemory (s : Service κ) : Engine.Placed κ :=
  s.placed.forget

/-- A service with nothing but what is in memory. -/
def bare (s : Service κ) : Service κ where
  placed := s.inMemory
  store := .empty
  waiting := []
  writing := none

variable [DecidableEq κ]

omit [DecidableEq κ] in
theorem isTold_of_writes (s : Service κ) {a : Action κ} (h : a.writes = true) :
    ∀ e ∈ s.effects a, e.isTold = true := by
  cases a with
  | claim place =>
      simp only [effects]
      split
      · split
        · simp [skippedEffects, Effect.isTold]
        · simp
      · simp
  | save result =>
      simp only [effects]
      split
      · simp
      · cases result <;> simp [savedEffects, Effect.isTold]
  | abandon place => simp [effects]
  | interrupt => simp [effects]
  | _ => cases h

/-- The writing of records changes nothing in memory. -/
theorem inMemory_step_of_writes (s : Service κ) {a : Action κ} (h : a.writes = true) :
    (s.step a).inMemory = s.inMemory := by
  have hbase : (s.base a).forget = s.inMemory := by
    cases a with
    | claim place =>
        simp only [base]
        split <;> rfl
    | save result => rfl
    | abandon place => rfl
    | interrupt => rfl
    | _ => cases h
  rw [inMemory, step_placed, Engine.forget_performAll_of_told _ (s.isTold_of_writes h), hbase]

/-- All other actions depend on nothing but what is in memory. -/
theorem inMemory_step_of_not_writes (s : Service κ) {a : Action κ} (h : a.writes = false) :
    (s.step a).inMemory = (s.bare.step a).inMemory := by
  have heffects : s.effects a = s.bare.effects a := by
    cases a with
    | claim place => cases h
    | save result => cases h
    | _ => rfl
  have hbase : (s.base a).forget = (s.bare.base a).forget := by
    cases a with
    | command c =>
        have hstate : s.bare.state = s.state := rfl
        simp only [base, hstate]
        split <;> rfl
    | tick generation =>
        have hstate : s.bare.state = s.state := rfl
        simp only [base, hstate]
        split <;> rfl
    | answer place result =>
        have hflights : s.bare.flights = s.flights := rfl
        simp only [base, hflights]
        split <;> rfl
    | receive name most =>
        have hsink : s.bare.sink = s.sink := rfl
        simp only [base, step, hsink]
        split <;> rfl
    | claim place => cases h
    | save result => cases h
    | abandon place => cases h
    | interrupt => cases h
    | _ => rfl
  exact step_congr Engine.selfContained_forget hbase heffects

/-- After a run there is in memory what there would be if nobody had written. -/
theorem inMemory_run (s : Service κ) (as : List (Action κ)) :
    (s.run as).inMemory = (s.run (as.filter fun a => !a.writes)).inMemory := by
  have hcongr (t u : Service κ) (htu : t.inMemory = u.inMemory) :
      (t.run as).inMemory = (u.run (as.filter fun a => !a.writes)).inMemory := by
    induction as generalizing t u with
    | nil => exact htu
    | cons a as ih =>
        cases ha : a.writes with
        | true =>
            rw [List.filter_cons_of_neg (by simp [ha])]
            exact ih _ _ ((t.inMemory_step_of_writes ha).trans htu)
        | false =>
            rw [List.filter_cons_of_pos (by simp [ha])]
            refine ih _ _ ?_
            have hbare : t.bare = u.bare := by rw [bare, bare, htu]
            rw [t.inMemory_step_of_not_writes ha, u.inMemory_step_of_not_writes ha, hbare]
  exact hcongr s s rfl

end Service

namespace Launch

variable {κ : Type} [DecidableEq κ]

theorem inMemory_run (l : Launch) (as : List (Action κ)) :
    (l.run as).inMemory = (l.run (as.filter fun a => !a.writes)).inMemory := by
  have hfirst : (l.first : List (Action κ)).filter (fun a => !a.writes) = l.first := by
    rw [first]
    split <;> rfl
  rw [run, run, Service.inMemory_run, course, course, List.filter_append, hfirst]

/-- The newest snapshot bears the number of all that were taken, so nothing that was
claimed for writing is newer. -/
theorem isStale_newest (l : Launch) {as : List (Action κ)} {t : Snapshot}
    (ht : (l.taken as).getLast? = some t) :
    (l.run as).placed.engine.writer.isStale t = false := by
  have horder := l.orderly as
  have hseq : t.seq = (l.taken as).length := horder.seq_of_getLast? ht
  have hlast : (l.run as).placed.engine.writer.lastClaimed ≤ t.seq := by
    rw [hseq, ← horder.count]
    exact horder.last_le
  simpa [Writer.isStale] using hlast

end Launch

/-- What is to be found in a store under a key. -/
def Restored.inStore (m : Store.Memory) (key : String) : Restored :=
  .ofLoad (.ok (m.load key))

theorem Restored.inStore_save {r : Record} (m : Store.Memory) (key : String)
    (h : r.check = .ok ()) : Restored.inStore (m.save key r.render) key = .found r := by
  rw [inStore, Store.Memory.load_save_self]
  exact Restored.ofText_render h

variable {κ : Type} [DecidableEq κ]

namespace Launch

/-- A snapshot is of a record that can be used. -/
theorem check_taken (l : Launch) {as : List (Action κ)} {t : Snapshot} (ht : t ∈ l.taken as) :
    t.record.check = .ok () := by
  obtain ⟨before, a, after, hcourse, htaken⟩ := Service.mem_along ht
  have hrecord : t.record = ((l.opened.run before).step a).state.record :=
    Service.record_taken htaken
  rw [hrecord, ← Service.run_concat]
  exact l.check_opened_run (before ++ [a])

/-- Once the newest snapshot has been saved, its record is found in the store. -/
theorem inStore_newest (l : Launch) {as : List (Action κ)} {t : Snapshot}
    (ht : (l.taken as).getLast? = some t) (hsaved : t ∈ l.saved as) :
    Restored.inStore (l.run as).store l.stateKey = .found t.record := by
  have horder := l.orderly as
  have hload : (l.run as).store.load l.stateKey = some t.record.render :=
    horder.load_newest hsaved fun u hu => horder.le_of_getLast? ht hu
  rw [Restored.inStore, hload]
  exact Restored.ofText_render (l.check_taken (List.mem_of_getLast? ht))

end Launch

/-- Whatever becomes of those who write, what is in memory is what it would be if nobody
wrote, and the record is what the commands made of it one after another.  The newest
snapshot is never stale, whatever was lost before it: when its turn comes it is written,
and once it has been saved the store holds the record as it was right after the
transition that took it. -/
theorem recovers_from_lost_writes (l : Launch) (as : List (Action κ)) :
    (l.run as).inMemory = (l.run (as.filter fun a => !a.writes)).inMemory ∧
      (l.run as).state.record = (l.course as).foldl Action.revise l.firstRecord ∧
      ∀ t, (l.taken as).getLast? = some t →
        (∃ before a after, l.course as = before ++ a :: after ∧
          t ∈ (l.opened.run before).taken a ∧
          t.record = ((l.opened.run before).step a).state.record) ∧
        (l.run as).placed.engine.writer.isStale t = false ∧
        (∀ place, (l.run as).writing = none → (l.run as).waiting[place]? = some t →
          (l.run (as ++ [.claim place])).writing = some t) ∧
        ((l.run as).writing = some t →
          Restored.inStore (l.run (as ++ [.save (.ok ())])).store l.stateKey =
            .found t.record) ∧
        (t ∈ l.saved as →
          Restored.inStore (l.run as).store l.stateKey = .found t.record) := by
  refine ⟨l.inMemory_run as, l.record_run as, ?_⟩
  intro t ht
  have hfresh := l.isStale_newest ht
  have htaken : t ∈ l.taken as := List.mem_of_getLast? ht
  refine ⟨?_, hfresh, ?_, ?_, l.inStore_newest ht⟩
  · obtain ⟨before, a, after, hcourse, hnow⟩ := Service.mem_along htaken
    exact ⟨before, a, after, hcourse, hnow, Service.record_taken hnow⟩
  · intro place hwriting hplace
    simp [l.run_concat, Service.step, Service.takeTurn, hwriting, hplace, Engine.claim,
      Writer.claim?, hfresh]
  · intro hwriting
    have hstore : (l.run (as ++ [.save (.ok ())])).store =
        (l.run as).store.save l.stateKey t.record.render := by
      simp [l.run_concat, Service.step, Service.endSave, hwriting, storeAfter,
        l.stateKey_run]
    rw [hstore]
    exact Restored.inStore_save _ _ (l.check_taken htaken)

/-- A start whose save fails, a change of the interval that is broken off, and a stop
whose caller goes away are lost; the next change brings the store up to date. -/
theorem recovered_after_losses :
    let as : List (Action Unit) := [.command .start, .claim 0,
      .save (.error (.unavailable "")), .command (.setInterval 5), .claim 0, .interrupt,
      .command (.stop true), .abandon 0, .command (.setInterval 7), .claim 0, .save (.ok ())]
    (Launch.standard.taken as).getLast? = some ⟨4, ⟨false, 7⟩⟩ ∧
      (Launch.standard.saved as).map (·.seq) = [4] ∧
      Restored.inStore (Launch.standard.run as).store standardStateKey =
        .found ⟨false, 7⟩ := by
  intro as
  have hnewest : (Launch.standard.taken as).getLast? = some ⟨4, ⟨false, 7⟩⟩ := rfl
  have hrecovery := (recovers_from_lost_writes Launch.standard as).2.2 _ hnewest
  exact ⟨hnewest, by decide, hrecovery.2.2.2.2 (List.mem_cons_self ..)⟩

end Polling
end SearchPolling
