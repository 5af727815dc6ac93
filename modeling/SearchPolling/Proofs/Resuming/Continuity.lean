import SearchPolling.Proofs.Resuming.Sequential
import SearchPolling.Proofs.Writing.Recovery

/-!
# Continuity over launches

After a sequential run the store holds the interval that is set, and it holds whether
polling is active, but for stops that are not to be stored and the ends of sessions: of
those it knows nothing, and holds what it held before.  The next launch takes up from
there.  It has the interval and is as active as the store says, it issues one query if it
is active and none otherwise, and what it stores at once is what it found.
-/

namespace SearchPolling
namespace Polling

/-- Whether an action stops polling without the stop being stored. -/
def Action.stopsUnsaved {κ : Type} : Action κ → Bool
  | .command (.stop false) => true
  | .command .endSession => true
  | _ => false

namespace Service

variable {κ : Type} [DecidableEq κ]

/-- An action that takes no snapshot leaves the interval as it is, and the record too
unless it is a stop that is not to be stored. -/
theorem record_step_of_taken_nil {s : Service κ} {a : Action κ} (h : s.taken a = []) :
    (s.step a).state.record.refreshInterval = s.state.record.refreshInterval ∧
      (a.stopsUnsaved = false → (s.step a).state.record = s.state.record) := by
  rw [record_step]
  cases a with
  | command c =>
      cases c with
      | start => cases h
      | stop persist =>
          cases persist with
          | true => cases h
          | false =>
              refine ⟨rfl, ?_⟩
              intro hstop
              cases hstop
      | setInterval seconds =>
          cases hcheck : checkInterval seconds with
          | ok _ => simp [taken, Engine.command, Command.call, hcheck, snapshotsOf,
              Command.callSetInterval, Call.stored] at h
          | error e => simp [Action.revise, Command.revise, hcheck, Except.isOk, Except.toBool]
      | endSession =>
          refine ⟨rfl, ?_⟩
          intro hstop
          cases hstop
      | suppress b => exact ⟨rfl, fun _ => rfl⟩
      | dropCycle => exact ⟨rfl, fun _ => rfl⟩
  | _ => exact ⟨rfl, fun _ => rfl⟩

omit [DecidableEq κ] in
/-- The writing of records issues no query. -/
theorem issued_of_writes (s : Service κ) {a : Action κ} (h : a.writes = true) :
    (s.marks a).issued = [] := by
  have hissues : (s.effects a).filterMap Effect.issue? = [] := by
    rw [List.filterMap_eq_nil_iff]
    intro e he
    have htold : e.isTold = true := s.isTold_of_writes h e he
    cases e with
    | measure m => rfl
    | note n => rfl
    | _ => cases htold
  have hissued : (s.marks a).issued =
      s.world.nextFlights ((s.effects a).filterMap Effect.issue?) := rfl
  rw [hissued, hissues]
  rfl

omit [DecidableEq κ] in
theorem issued_start {s : Service κ} (h : s.state.record.active = false) :
    (s.marks (.command .start)).issued = [s.next .eager] := by
  have hcall : Command.call s.state .start = .ok (Command.callStart s.state) := rfl
  have hfoot : Footprint.of (Command.callStart s.state).effects =
      Footprint.of s.state.start.effects := Call.footprint_stored _ _ rfl
  rw [marks_obey hcall, hfoot, State.footprint_start _ h]
  rfl

end Service

namespace Launch

variable {κ : Type} [DecidableEq κ]

theorem saved_concat (l : Launch) (as : List (Action κ)) (a : Action κ) :
    l.saved (as ++ [a]) = l.saved as ++ ((l.run as).papers a).saved := by
  rw [saved, along_append]
  exact congrArg (l.saved as ++ ·) (List.append_nil _)

theorem saved_nil (l : Launch) : l.saved ([] : List (Action κ)) = [] := by
  simp only [saved, along, course, first]
  split <;> rfl

/-- What was loaded is what the store holds. -/
def ReadsStore (l : Launch) : Prop :=
  ∀ text, l.loaded = .ok (some text) → l.store.load l.stateKey = some text

/-- A run ends with the store holding the record: it is a launch that found one, or its
last action is the end of a save. -/
def Keeps (l : Launch) (as : List (Action κ)) : Prop :=
  (as = [] ∧ l.found.record?.isSome = true) ∨
    ∃ before a, as = before ++ [a] ∧ ((l.run before).papers a).saved ≠ []

/-- A record is what the store has held since an earlier point of a run: since then none
has been saved. -/
structure Remembers (l : Launch) (before after : List (Action κ)) (stored : Record) : Prop where
  keeps : l.Keeps before
  unsaved : l.saved (before ++ after) = l.saved before
  in_store : Restored.inStore (l.run (before ++ after)).store l.stateKey = .found stored
  active_eq : stored.active = (l.run before).state.record.active
  /-- Between two operations the interval is the one that is set. -/
  interval_eq : (l.run (before ++ after)).idle = true →
    stored.refreshInterval = (l.run (before ++ after)).state.record.refreshInterval
  active_eq_now : (l.run (before ++ after)).idle = true →
    (∀ a ∈ after, a.stopsUnsaved = false) →
      stored.active = (l.run (before ++ after)).state.record.active

/-- The desk is settled, and once there is a record in the store, it is remembered. -/
structure Continuous (l : Launch) (as : List (Action κ)) : Prop where
  settled : (l.run as).Settled
  remembered : l.found.record?.isSome = true ∨ l.saved as ≠ [] →
    ∃ before after stored, as = before ++ after ∧ l.Remembers before after stored

/-! ## Each step -/

variable {l : Launch} {as before after : List (Action κ)} {a : Action κ} {stored : Record}

theorem Remembers.later (h : l.Remembers before after stored)
    (hstore : ((l.run (before ++ after)).step a).store = (l.run (before ++ after)).store)
    (hsaved : ((l.run (before ++ after)).papers a).saved = [])
    (hidle : ((l.run (before ++ after)).step a).idle = true →
      (l.run (before ++ after)).idle = true ∧ (l.run (before ++ after)).taken a = []) :
    l.Remembers before (after ++ [a]) stored := by
  have hrun : l.run (before ++ (after ++ [a])) = (l.run (before ++ after)).step a := by
    rw [← List.append_assoc, run_concat]
  constructor
  · exact h.keeps
  · rw [← List.append_assoc, saved_concat, hsaved, List.append_nil]
    exact h.unsaved
  · rw [hrun, hstore]
    exact h.in_store
  · exact h.active_eq
  · intro hnow
    rw [hrun] at hnow ⊢
    obtain ⟨hthen, htaken⟩ := hidle hnow
    rw [(Service.record_step_of_taken_nil htaken).1]
    exact h.interval_eq hthen
  · intro hnow hafter
    rw [hrun] at hnow ⊢
    obtain ⟨hthen, htaken⟩ := hidle hnow
    have ha : a.stopsUnsaved = false :=
      hafter a (List.mem_append_right _ (List.mem_singleton_self a))
    rw [(Service.record_step_of_taken_nil htaken).2 ha]
    exact h.active_eq_now hthen fun b hb => hafter b (List.mem_append_left _ hb)

/-- The end of a save begins a new memory. -/
theorem remembers_saved {t : Snapshot} (hsaved : ((l.run as).papers a).saved = [t])
    (hrecord : t.record = ((l.run as).step a).state.record)
    (hstore : ((l.run as).step a).store =
      (l.run as).store.save (l.run as).placed.engine.stateKey t.record.render) :
    l.Remembers (as ++ [a]) [] t.record := by
  rw [← run_concat] at hrecord
  constructor
  · refine Or.inr ⟨as, a, rfl, ?_⟩
    rw [hsaved]
    exact List.cons_ne_nil t []
  · rw [List.append_nil]
  · rw [List.append_nil, run_concat, hstore, stateKey_run]
    apply Restored.inStore_save
    rw [hrecord]
    exact l.check_record (as ++ [a])
  · rw [hrecord]
  · intro _
    rw [List.append_nil, hrecord]
  · intro _ _
    rw [List.append_nil, hrecord]

theorem Continuous.step (h : l.Continuous as) (ha : (l.run as).awaits a = true) :
    l.Continuous (as ++ [a]) := by
  have hlast : (l.run as).desk.lastClaimed ≤ (l.run as).desk.snapshots := (l.orderly as).last_le
  -- A step that saves nothing leaves the memory of the steps before it.
  have hlater (hstore : ((l.run as).step a).store = (l.run as).store)
      (hsaved : ((l.run as).papers a).saved = [])
      (hidle : ((l.run as).step a).idle = true →
        (l.run as).idle = true ∧ (l.run as).taken a = []) :
      l.found.record?.isSome = true ∨ l.saved (as ++ [a]) ≠ [] →
        ∃ before after stored, as ++ [a] = before ++ after ∧
          l.Remembers before after stored := by
    intro hkept
    rw [saved_concat, hsaved, List.append_nil] at hkept
    obtain ⟨before, after, stored, rfl, hremembers⟩ := h.remembered hkept
    exact ⟨before, after ++ [a], stored, List.append_assoc ..,
      hremembers.later hstore hsaved hidle⟩
  constructor
  · rw [run_concat]
    exact h.settled.step ha hlast
  · cases h.settled.turn ha hlast with
    | unchanged hdesk hpapers =>
        refine hlater (congrArg Desk.store hdesk) (by rw [hpapers]) ?_
        intro hidle
        have htaken : (l.run as).taken a = ((l.run as).papers a).taken := rfl
        rw [htaken, hpapers]
        exact ⟨(Service.idle_of_desk hdesk).symm.trans hidle, rfl⟩
    | queued t hserves _ hstore hpapers =>
        refine hlater hstore (by rw [hpapers]) ?_
        intro hidle
        rw [hserves.not_idle] at hidle
        cases hidle
    | claimed t hserves _ hstore hpapers =>
        refine hlater hstore (by rw [hpapers]) ?_
        intro hidle
        rw [hserves.not_idle] at hidle
        cases hidle
    | saved t _ hrecord hstore hpapers =>
        intro _
        have hsaved : ((l.run as).papers a).saved = [t] := by rw [hpapers]
        exact ⟨as ++ [a], [], t.record, (List.append_nil _).symm,
          remembers_saved hsaved hrecord hstore⟩

theorem Continuous.run (h : l.Continuous as) {bs : List (Action κ)}
    (hbs : (l.run as).sequential bs = true) : l.Continuous (as ++ bs) := by
  induction bs generalizing as with
  | nil => rwa [List.append_nil]
  | cons a bs ih =>
      rw [Service.sequential, Bool.and_eq_true, ← run_concat] at hbs
      have hrest := ih (h.step hbs.1) hbs.2
      rwa [List.append_assoc] at hrest

/-! ## The launch -/

omit [DecidableEq κ] in
theorem settled_opened (l : Launch) : (l.opened : Service κ).Settled :=
  Or.inl (Service.idle_iff.mpr ⟨rfl, rfl⟩)

theorem settled_nil (l : Launch) : (l.run [] : Service κ).Settled := by
  have hlast : (l.opened : Service κ).desk.lastClaimed ≤ (l.opened : Service κ).desk.snapshots :=
    l.orderly_opened.last_le
  rw [run, course, first]
  split
  · exact l.settled_opened.step (a := .command .start) rfl hlast
  · exact l.settled_opened

theorem store_nil (l : Launch) : (l.run [] : Service κ).store = l.store := by
  have hstore : (l.run [] : Service κ).desk.store = _ := (l.orderly []).store_eq
  rw [saved_nil] at hstore
  exact hstore

theorem found_inStore {r : Record} (hload : l.ReadsStore) (hfound : l.found.record? = some r) :
    Restored.inStore l.store l.stateKey = .found r := by
  have hrecord (x : Restored) (hx : x.record? = some r) : x = .found r := by
    cases x with
    | found q => rw [Option.some.inj hx]
    | _ => cases hx
  cases hloaded : l.loaded with
  | error e =>
      rw [found, hloaded] at hfound
      cases hfound
  | ok text =>
      cases text with
      | none =>
          rw [found, hloaded] at hfound
          cases hfound
      | some text =>
          rw [Restored.inStore, hload text hloaded, ← hloaded]
          exact hrecord _ hfound

theorem continuous_nil (hload : l.ReadsStore) : l.Continuous ([] : List (Action κ)) where
  settled := l.settled_nil
  remembered := by
    intro hkept
    rw [saved_nil, or_iff_left (by simp)] at hkept
    obtain ⟨r, hr⟩ := Option.isSome_iff_exists.mp hkept
    have hrecord : (l.run [] : Service κ).state.record = r := record_of_found hr
    refine ⟨[], [], r, rfl, ?_⟩
    constructor
    · exact Or.inl ⟨rfl, hkept⟩
    · rfl
    · rw [List.append_nil, store_nil]
      exact found_inStore hload hr
    · rw [hrecord]
    · intro _
      rw [List.append_nil, hrecord]
    · intro _ _
      rw [List.append_nil, hrecord]

/-- What happens until a launch is over: if polling was started, the start is stored. -/
def returning : List (Action κ) :=
  [.claim 0, .save (.ok ())]

/-- A launch that is over has issued one query if it found an active record, and none
otherwise. -/
theorem issued_returning (l : Launch) :
    (l.issued (returning : List (Action κ))).map (·.origin) =
      if l.found.isActive then [.eager] else [] := by
  have hwrites (s : Service κ) : Service.along (fun s a => (s.marks a).issued) s returning = [] := by
    simp only [Service.along, returning, Service.issued_of_writes _ (a := .claim 0) rfl,
      Service.issued_of_writes _ (a := .save (.ok ())) rfl, List.append_nil]
  have hstopped : (l.opened : Service κ).state.record.active = false := by
    rw [record_opened]
    rfl
  rw [issued, along, course, Service.along_append, hwrites, List.append_nil, first]
  cases l.found.isActive with
  | true =>
      simp only [if_true, Service.along, Service.issued_start hstopped, List.append_nil]
      rfl
  | false => rfl

/-- The only caller at a settled desk returns when the record is stored. -/
theorem idle_run_returning {s : Service κ} (h : s.Settled) : (s.run returning).idle = true := by
  have hrun : s.run returning = (s.step (.claim 0)).step (.save (.ok ())) := rfl
  rw [hrun, Service.idle_iff]
  rcases h with hidle | ⟨t, hserves, _⟩
  · obtain ⟨hwaiting, hwriting⟩ := Service.idle_iff.mp hidle
    simp [Service.step, Service.takeTurn, Service.endSave, hwaiting, hwriting]
  · have hfresh : ¬t.seq < s.placed.engine.writer.lastClaimed :=
      Nat.not_lt_of_le hserves.fresh
    rcases hserves.only with ⟨hwaiting, hwriting⟩ | ⟨hwaiting, hwriting⟩
    · simp [Service.step, Service.takeTurn, Service.endSave, hwaiting, hwriting, Engine.claim,
        Writer.claim?, Writer.isStale, hfresh]
    · simp [Service.step, Service.takeTurn, Service.endSave, hwaiting, hwriting]

/-- A launch that is over leaves the desk idle. -/
theorem idle_returning (l : Launch) : (l.run (returning : List (Action κ))).idle = true := by
  have hrun : l.run (returning : List (Action κ)) = (l.run []).run returning :=
    l.run_append [] returning
  rw [hrun]
  exact idle_run_returning l.settled_nil

/-- A launch over a store that holds a record takes the record up, and stores the same
record again if it stores any. -/
theorem resumes {r : Record} (hload : l.ReadsStore) (hfound : l.found.record? = some r) :
    (l.run (returning : List (Action κ))).state.record = r ∧
      Restored.inStore (l.run (returning : List (Action κ))).store l.stateKey = .found r := by
  have hrecord : (l.run (returning : List (Action κ))).state.record = r := by
    have hstart : (l.first : List (Action κ)).foldl Action.revise l.firstRecord = r := by
      have hrecord : (l.run [] : Service κ).state.record = r := record_of_found hfound
      rwa [record_run, course, List.append_nil] at hrecord
    rw [record_run, course, List.foldl_append, hstart]
    rfl
  have hsequential : (l.run [] : Service κ).sequential returning = true := rfl
  have hcontinuous : l.Continuous returning := (continuous_nil hload).run hsequential
  have hkept : l.found.record?.isSome = true := by
    rw [hfound]
    rfl
  obtain ⟨before, after, stored, hsplit, hremembers⟩ := hcontinuous.remembered (Or.inl hkept)
  have hidle := l.idle_returning (κ := κ)
  rw [hsplit] at hrecord hidle ⊢
  have hafter : ∀ a ∈ after, a.stopsUnsaved = false := by
    intro a ha
    have hmem : a ∈ (returning : List (Action κ)) := by
      rw [hsplit]
      exact List.mem_append_right _ ha
    rcases List.mem_pair.mp hmem with rfl | rfl
    · rfl
    · rfl
  have hstored : stored = r := by
    rw [← hrecord]
    have hactive := hremembers.active_eq_now hidle hafter
    have hinterval := hremembers.interval_eq hidle
    cases stored
    rw [Record.mk.injEq]
    exact ⟨hactive, hinterval⟩
  exact ⟨hrecord, hstored ▸ hremembers.in_store⟩

end Launch

variable {κ : Type} [DecidableEq κ]

/-- Between two operations of a sequential run, once a record was found or one has been
saved, the store holds a record with the interval that is set.  It says whether polling
was active when it was last saved, or found if none has been saved since, and that is
still so unless a stop that is not to be stored or the end of a session came after it.  The
next launch over the store takes this record up, issues one query if the record is active
and none otherwise, and leaves the same record in the store. -/
theorem restart_continuity (l : Launch) (as : List (Action κ)) (hload : l.ReadsStore)
    (hsequential : (l.run []).sequential as = true) (hidle : (l.run as).idle = true)
    (hkept : l.found.record?.isSome = true ∨ l.saved as ≠ []) :
    ∃ stored before after, as = before ++ after ∧ l.Keeps before ∧
      l.saved as = l.saved before ∧
      Restored.inStore (l.run as).store l.stateKey = .found stored ∧
      stored.refreshInterval = (l.run as).state.record.refreshInterval ∧
      stored.active = (l.run before).state.record.active ∧
      ((∀ a ∈ after, a.stopsUnsaved = false) →
        stored.active = (l.run as).state.record.active) ∧
      ∀ next : Launch, next.stateKey = l.stateKey → next.store = (l.run as).store →
        next.loaded = .ok ((l.run as).store.load l.stateKey) →
        (next.run (Launch.returning : List (Action κ))).state.record = stored ∧
        (next.issued (Launch.returning : List (Action κ))).map (·.origin) =
          (if stored.active then [.eager] else []) ∧
        Restored.inStore (next.run (Launch.returning : List (Action κ))).store next.stateKey =
          .found stored := by
  have hcontinuous : l.Continuous as := (Launch.continuous_nil hload).run hsequential
  obtain ⟨before, after, stored, rfl, hremembers⟩ := hcontinuous.remembered hkept
  refine ⟨stored, before, after, rfl, hremembers.keeps, hremembers.unsaved,
    hremembers.in_store, hremembers.interval_eq hidle, hremembers.active_eq,
    hremembers.active_eq_now hidle, ?_⟩
  intro next hkey hstore hloaded
  have hfound : next.found = .found stored := by
    rw [Launch.found, hloaded]
    exact hremembers.in_store
  have hreads : next.ReadsStore := by
    intro text htext
    rw [hloaded] at htext
    rw [hstore, hkey]
    exact Except.ok.inj htext
  have hrecord : next.found.record? = some stored := by
    rw [hfound]
    rfl
  have hactive : next.found.isActive = stored.active := by
    rw [hfound]
    rfl
  obtain ⟨hresumed, hagain⟩ := Launch.resumes (κ := κ) hreads hrecord
  refine ⟨hresumed, ?_, hagain⟩
  rw [Launch.issued_returning, hactive]

/-- A session that is started, whose interval is set, and which ends, leaves an active
record to the next launch. -/
theorem restart_after_endSession :
    let as : List (Action Unit) := [.command .start, .claim 0, .save (.ok ()),
      .command (.setInterval 7), .claim 0, .save (.ok ()), .command .endSession]
    (Launch.standard.run as).state.record = ⟨false, 7⟩ ∧
      ∀ next : Launch, next.stateKey = standardStateKey →
        next.store = (Launch.standard.run as).store →
        next.loaded = .ok ((Launch.standard.run as).store.load standardStateKey) →
        (next.run (Launch.returning : List (Action Unit))).state.record = ⟨true, 7⟩ ∧
        (next.issued (Launch.returning : List (Action Unit))).map (·.origin) = [.eager] := by
  intro as
  have hreads : Launch.standard.ReadsStore := fun text htext => nomatch htext
  have hsequential : (Launch.standard.run []).sequential as = true := by decide
  have hidle : (Launch.standard.run as).idle = true := by decide
  have hsaved : Launch.standard.saved as ≠ [] := by decide
  obtain ⟨stored, before, after, _, _, _, hstored, _, _, _, hnext⟩ :=
    restart_continuity Launch.standard as hreads hsequential hidle (Or.inr hsaved)
  have hrecord : stored = ⟨true, 7⟩ := by
    have htext : Restored.inStore (Launch.standard.run as).store standardStateKey =
        .ofText (Record.render ⟨true, 7⟩) := rfl
    have hsame := hstored.symm.trans (htext.trans (Restored.ofText_render rfl))
    exact Restored.found.inj hsame
  refine ⟨rfl, ?_⟩
  intro next hkey hstore hloaded
  obtain ⟨hresumed, hissued, _⟩ := hnext next hkey hstore hloaded
  rw [hrecord] at hresumed hissued
  exact ⟨hresumed, hissued⟩

end Polling
end SearchPolling
