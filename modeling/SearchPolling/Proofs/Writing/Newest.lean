import SearchPolling.Proofs.Writing.Order

/-!
# The newest record

As long as no save fails or is broken off, a caller that returns knows that its own
snapshot or a newer one has been saved; so when the caller with the newest snapshot has
returned, the store holds the newest record.
-/

namespace SearchPolling
namespace Polling

/-- Whether an action keeps a record from being saved: the save fails, or is broken
off. -/
def Action.breaksSave {κ : Type} : Action κ → Bool
  | .save (.error _) => true
  | .interrupt => true
  | _ => false

/-- All that was passed to the store has been saved or is being written, and callers
have returned for no less. -/
structure Dutiful (d : Desk) (passed saved returned : List Snapshot) : Prop where
  passed_eq : passed = saved ++ d.writing.toList
  returned_le : ∀ t ∈ returned, ∃ u ∈ saved, t.seq ≤ u.seq

namespace Dutiful

variable {d : Desk} {passed saved returned : List Snapshot}

theorem of_same (h : Dutiful d passed saved returned) {e : Desk}
    (hwriting : e.writing = d.writing) : Dutiful e passed saved returned :=
  ⟨hwriting ▸ h.passed_eq, h.returned_le⟩

theorem claim (h : Dutiful d passed saved returned) (hwriting : d.writing = none) {e : Desk}
    {t : Snapshot} (hclaimed : e.writing = some t) :
    Dutiful e (passed ++ [t]) saved returned where
  passed_eq := by
    have hpassed := h.passed_eq
    rw [hwriting] at hpassed
    rw [hclaimed, hpassed]
    simp
  returned_le := h.returned_le

/-- A caller whose snapshot is stale finds a newer one saved. -/
theorem skip {l : Launch} {taken : List Snapshot} (h : Dutiful d passed saved returned)
    (horder : Orderly l d taken passed saved) (hwriting : d.writing = none) {t : Snapshot}
    (hstale : t.seq < d.lastClaimed) {e : Desk} (hsame : e.writing = d.writing) :
    Dutiful e passed saved (returned ++ [t]) where
  passed_eq := (h.of_same hsame).passed_eq
  returned_le := by
    intro u hu
    rcases List.mem_append.mp hu with hold | hnew
    · exact h.returned_le u hold
    · -- Nobody writes, so the snapshot that made this one stale has been saved.
      have hpassed : passed = saved := by
        rw [h.passed_eq, hwriting]
        exact List.append_nil _
      rcases horder.last_mem with hzero | ⟨newer, hmem, hlast⟩
      · omega
      · refine ⟨newer, hpassed ▸ hmem, ?_⟩
        rw [List.mem_singleton.mp hnew, hlast]
        exact Nat.le_of_lt hstale

/-- A caller whose save has ended finds its own snapshot saved. -/
theorem save (h : Dutiful d passed saved returned) {t : Snapshot}
    (hwriting : d.writing = some t) {e : Desk} (hdone : e.writing = none) :
    Dutiful e passed (saved ++ [t]) (returned ++ [t]) where
  passed_eq := by
    have hpassed := h.passed_eq
    rw [hwriting] at hpassed
    rw [hdone, hpassed]
    simp
  returned_le := by
    intro u hu
    rcases List.mem_append.mp hu with hold | hnew
    · obtain ⟨newer, hmem, hle⟩ := h.returned_le u hold
      exact ⟨newer, List.mem_append_left _ hmem, hle⟩
    · refine ⟨t, List.mem_append_right _ (List.mem_singleton_self t), ?_⟩
      exact Nat.le_of_eq (congrArg Snapshot.seq (List.mem_singleton.mp hnew))

variable {κ : Type} [DecidableEq κ] {l : Launch} {taken : List Snapshot}

/-- A step that breaks no save keeps all callers dutiful. -/
theorem step {s : Service κ} (h : Dutiful s.desk passed saved returned)
    (horder : Orderly l s.desk taken passed saved) {a : Action κ}
    (ha : a.breaksSave = false) :
    Dutiful (s.step a).desk (passed ++ (s.papers a).passed) (saved ++ (s.papers a).saved)
      (returned ++ (s.papers a).returned) := by
  cases s.writingTurn a with
  | idle hdesk hpapers =>
      rw [hdesk, hpapers]
      simpa only [List.append_nil] using h
  | queued t _ _ hdesk hpapers =>
      rw [hdesk, hpapers]
      simp only [List.append_nil]
      exact h.of_same rfl
  | skipped place t hwriting _ hstale hdesk hpapers =>
      rw [hdesk, hpapers]
      simp only [List.append_nil]
      exact h.skip horder hwriting hstale rfl
  | claimed place t hwriting _ _ hdesk hpapers =>
      rw [hdesk, hpapers]
      simp only [List.append_nil]
      exact h.claim hwriting rfl
  | saved t hwriting hdesk hpapers =>
      rw [hdesk, hpapers]
      simp only [List.append_nil]
      exact h.save hwriting rfl
  | failed t e haction _ _ _ =>
      rw [haction] at ha
      cases ha
  | abandoned place _ hdesk hpapers =>
      rw [hdesk, hpapers]
      simp only [List.append_nil]
      exact h.of_same rfl
  | interrupted haction _ _ =>
      rw [haction] at ha
      cases ha

theorem run {s : Service κ} (h : Dutiful s.desk passed saved returned)
    (horder : Orderly l s.desk taken passed saved) (as : List (Action κ))
    (has : ∀ a ∈ as, a.breaksSave = false) :
    Dutiful (s.run as).desk
      (passed ++ Service.along (fun s a => (s.papers a).passed) s as)
      (saved ++ Service.along (fun s a => (s.papers a).saved) s as)
      (returned ++ Service.along (fun s a => (s.papers a).returned) s as) := by
  induction as generalizing s taken passed saved returned with
  | nil => simpa [Service.along] using h
  | cons a as ih =>
      rw [List.forall_mem_cons] at has
      simpa [Service.along] using ih (h.step horder has.1) (horder.step a) has.2

end Dutiful

variable {κ : Type} [DecidableEq κ]

/-- What a step takes a snapshot of is the record that it leaves. -/
theorem Service.record_taken {s : Service κ} {a : Action κ} {t : Snapshot}
    (ht : t ∈ s.taken a) : t.record = (s.step a).state.record := by
  have hpapers : (s.papers a).taken = s.taken a := rfl
  rw [← hpapers] at ht
  cases s.writingTurn a with
  | queued u _ hrecord _ hpapers =>
      rw [hpapers] at ht
      rw [List.mem_singleton.mp ht]
      exact hrecord
  | idle _ hpapers => simp [hpapers] at ht
  | skipped _ _ _ _ _ _ hpapers => simp [hpapers] at ht
  | claimed _ _ _ _ _ _ hpapers => simp [hpapers] at ht
  | saved _ _ _ hpapers => simp [hpapers] at ht
  | failed _ _ _ _ _ hpapers => simp [hpapers] at ht
  | abandoned _ _ _ hpapers => simp [hpapers] at ht
  | interrupted _ _ hpapers => simp [hpapers] at ht

namespace Launch

omit [DecidableEq κ] in
/-- The first start breaks no save. -/
theorem not_breaksSave_course (l : Launch) {as : List (Action κ)}
    (has : ∀ a ∈ as, a.breaksSave = false) : ∀ a ∈ l.course as, a.breaksSave = false := by
  intro a ha
  rcases List.mem_append.mp ha with hfirst | hlater
  · have hstart : a = .command .start := by
      rw [first] at hfirst
      split at hfirst
      · exact List.mem_singleton.mp hfirst
      · cases hfirst
    rw [hstart]
    rfl
  · exact has a hlater

theorem dutiful (l : Launch) (as : List (Action κ)) (has : ∀ a ∈ as, a.breaksSave = false) :
    Dutiful (l.run as).desk (l.passed as) (l.saved as) (l.returned as) := by
  have hopened : Dutiful (l.opened : Service κ).desk [] [] [] := by
    rw [desk_opened]
    exact ⟨rfl, fun _ ht => nomatch ht⟩
  exact hopened.run l.orderly_opened (l.course as) (l.not_breaksSave_course has)

end Launch

/-- Snapshots are numbered in the order of the transitions, and what is passed to the
store is passed in that order, whatever the order in which the callers get their turns;
what is saved of a snapshot is the record as its own transition left it.  If no save
fails or is broken off, a caller returns only when its own snapshot or a newer one has
been saved, and once the caller with the newest snapshot has returned, the store holds
the newest record. -/
theorem saves_follow_transitions (l : Launch) (as : List (Action κ)) :
    (l.taken as).map (·.seq) = List.range' 1 (l.taken as).length ∧
      (l.passed as).Pairwise (·.seq < ·.seq) ∧
      (∀ t ∈ l.passed as, ∃ before a after, l.course as = before ++ a :: after ∧
        t ∈ (l.opened.run before).taken a ∧
        t.record = ((l.opened.run before).step a).state.record) ∧
      (l.saved as).Sublist (l.passed as) ∧
      (l.run as).store =
        (l.saved as).foldl (fun m t => m.save l.stateKey t.record.render) l.store ∧
      ((∀ a ∈ as, a.breaksSave = false) →
        (∀ t ∈ l.returned as, ∃ u ∈ l.saved as, t.seq ≤ u.seq) ∧
        ∀ t, (l.taken as).getLast? = some t → t ∈ l.returned as →
          (l.run as).store.load l.stateKey = some t.record.render) := by
  have horder := l.orderly as
  refine ⟨horder.numbers, horder.rising, ?_, horder.saved_passed, horder.store_eq, ?_⟩
  · intro t ht
    obtain ⟨before, a, after, hcourse, htaken⟩ :=
      Service.mem_along (horder.passed_taken t ht)
    exact ⟨before, a, after, hcourse, htaken, Service.record_taken htaken⟩
  · intro has
    have hreturned := (l.dutiful as has).returned_le
    refine ⟨hreturned, ?_⟩
    intro t ht hback
    have htaken : t ∈ l.taken as := List.mem_of_getLast? ht
    obtain ⟨u, hu, hle⟩ := hreturned t hback
    have hmem : u ∈ l.taken as := horder.passed_taken u (horder.saved_passed.subset hu)
    have hsame : u = t :=
      horder.eq_of_seq_eq hmem htaken (Nat.le_antisymm (horder.le_of_getLast? ht hmem) hle)
    exact horder.load_newest (hsame ▸ hu) fun v hv => horder.le_of_getLast? ht hv

/-- A start whose caller gets its turn after that of a later change of the interval is
skipped, and the store keeps the record of the later one. -/
theorem saves_out_of_turn :
    let as : List (Action Unit) := [.command .start, .command (.setInterval 5), .claim 1,
      .save (.ok ()), .claim 0]
    (∀ a ∈ as, a.breaksSave = false) ∧
      (Launch.standard.returned as).map (·.seq) = [2, 1] ∧
      (Launch.standard.run as).store.load standardStateKey =
        some (Record.render ⟨true, 5⟩) := by
  intro as
  have has : ∀ a ∈ as, a.breaksSave = false := by simp [as, Action.breaksSave]
  have hnewest := ((saves_follow_transitions Launch.standard as).2.2.2.2.2 has).2
  exact ⟨has, by decide, hnewest ⟨2, ⟨true, 5⟩⟩ rfl (List.mem_cons_self ..)⟩

end Polling
end SearchPolling
