import SearchPolling.Proofs.Writing.Newest

/-!
# Snapshots that are skipped

A snapshot is skipped when a newer one has been passed to the store before it.  The newer
one has been saved, or else it was lost: its save failed or was broken off.  It is sure to
have been saved only if no save before was lost; otherwise a change whose caller was told
of no failure may be stored neither by itself nor as part of a newer record.
-/

namespace SearchPolling
namespace Polling

namespace Service

variable {κ : Type}

/-- The snapshots that an action loses: they were passed to the store, which has not
taken them in. -/
def lost (s : Service κ) : Action κ → List Snapshot
  | .save (.error _) => s.writing.toList
  | .interrupt => s.writing.toList
  | _ => []

theorem lost_of_not_breaksSave (s : Service κ) {a : Action κ} (h : a.breaksSave = false) :
    s.lost a = [] := by
  cases a with
  | save result =>
      cases result with
      | ok _ => rfl
      | error e => cases h
  | interrupt => cases h
  | _ => rfl

variable [DecidableEq κ]

/-- What is being written stays so with a step, unless it is saved or lost. -/
theorem writing_step (s : Service κ) (a : Action κ) {u : Snapshot} (hu : s.writing = some u) :
    u ∈ s.saved a ∨ u ∈ s.lost a ∨ (s.step a).writing = some u := by
  have hwriting : (s.step a).writing = (s.step a).desk.writing := rfl
  have hsaved : s.saved a = (s.papers a).saved := rfl
  rw [hwriting, hsaved]
  cases s.writingTurn a with
  | idle hdesk _ =>
      rw [hdesk]
      exact Or.inr (Or.inr hu)
  | queued t _ _ hdesk _ =>
      rw [hdesk]
      exact Or.inr (Or.inr hu)
  | skipped place t hfree _ _ _ _ =>
      rw [hfree] at hu
      cases hu
  | claimed place t hfree _ _ _ _ =>
      rw [hfree] at hu
      cases hu
  | saved t ht _ hpapers =>
      obtain rfl : t = u := Option.some.inj (ht.symm.trans hu)
      rw [hpapers]
      exact Or.inl (List.mem_singleton_self t)
  | failed t e haction _ _ _ =>
      have hlost : s.lost a = [u] := by rw [haction, lost, hu]; rfl
      rw [hlost]
      exact Or.inr (Or.inl (List.mem_singleton_self u))
  | abandoned place _ hdesk _ =>
      rw [hdesk]
      exact Or.inr (Or.inr hu)
  | interrupted haction _ _ =>
      have hlost : s.lost a = [u] := by rw [haction, lost, hu]; rfl
      rw [hlost]
      exact Or.inr (Or.inl (List.mem_singleton_self u))

/-- What is passed to the store is being written. -/
theorem writing_of_passed (s : Service κ) (a : Action κ) {u : Snapshot} (hu : u ∈ s.passed a) :
    (s.step a).writing = some u := by
  have hpassed : (s.papers a).passed = s.passed a := rfl
  rw [← hpassed] at hu
  cases s.writingTurn a with
  | claimed place t _ _ _ hdesk hpapers =>
      rw [hpapers] at hu
      have hwriting : (s.step a).writing = (s.step a).desk.writing := rfl
      rw [hwriting, hdesk, List.mem_singleton.mp hu]
  | idle _ hpapers => simp [hpapers] at hu
  | queued _ _ _ _ hpapers => simp [hpapers] at hu
  | skipped _ _ _ _ _ _ hpapers => simp [hpapers] at hu
  | saved _ _ _ hpapers => simp [hpapers] at hu
  | failed _ _ _ _ _ hpapers => simp [hpapers] at hu
  | abandoned _ _ _ hpapers => simp [hpapers] at hu
  | interrupted _ _ hpapers => simp [hpapers] at hu

/-- All that was passed to the store in a run has been saved, is lost, or is being
written. -/
theorem passed_run (s : Service κ) (as : List (Action κ)) {u : Snapshot}
    (hu : s.writing = some u ∨ u ∈ along (fun s a => (s.papers a).passed) s as) :
    u ∈ along (fun s a => (s.papers a).saved) s as ∨ u ∈ along lost s as ∨
      (s.run as).writing = some u := by
  induction as generalizing s with
  | nil =>
      rcases hu with hnow | hlater
      · exact Or.inr (Or.inr hnow)
      · cases hlater
  | cons a as ih =>
      simp only [along, List.mem_append, run_cons] at hu ⊢
      have hnow : u ∈ s.saved a ∨ u ∈ s.lost a ∨ ((s.step a).writing = some u ∨
          u ∈ along (fun s a => (s.papers a).passed) (s.step a) as) := by
        rcases hu with hwriting | hpassed | hrest
        · rcases s.writing_step a hwriting with hsaved | hlost | hstill
          · exact Or.inl hsaved
          · exact Or.inr (Or.inl hlost)
          · exact Or.inr (Or.inr (Or.inl hstill))
        · exact Or.inr (Or.inr (Or.inl (s.writing_of_passed a hpassed)))
        · exact Or.inr (Or.inr (Or.inr hrest))
      rcases hnow with hsaved | hlost | hlater
      · exact Or.inl (Or.inl hsaved)
      · exact Or.inr (Or.inl (Or.inl hlost))
      · rcases ih (s.step a) hlater with hsaved | hlost | hstill
        · exact Or.inl (Or.inr hsaved)
        · exact Or.inr (Or.inl (Or.inr hlost))
        · exact Or.inr (Or.inr hstill)

/-- A caller that returns when its turn comes has a snapshot that is stale. -/
theorem stale_of_returned (s : Service κ) (place : Nat) {t : Snapshot}
    (ht : t ∈ s.returned (.claim place)) :
    s.writing = none ∧ t.seq < s.placed.engine.writer.lastClaimed ∧
      (s.step (.claim place)).store = s.store := by
  have hreturned : (s.papers (.claim place)).returned = s.returned (.claim place) := rfl
  rw [← hreturned] at ht
  cases s.writingTurn (.claim place) with
  | skipped place' u hfree _ hstale hdesk hpapers =>
      rw [hpapers] at ht
      obtain rfl := List.mem_singleton.mp ht
      have hstore : (s.step (.claim place)).store = (s.step (.claim place)).desk.store := rfl
      refine ⟨hfree, hstale, ?_⟩
      rw [hstore, hdesk]
      rfl
  | saved u _ _ hpapers =>
      have hnone : (s.papers (.claim place)).saved = [] := rfl
      rw [hpapers] at hnone
      cases hnone
  | failed _ _ haction _ _ _ => cases haction
  | idle _ hpapers => simp [hpapers] at ht
  | queued _ _ _ _ hpapers => simp [hpapers] at ht
  | claimed _ _ _ _ _ _ hpapers => simp [hpapers] at ht
  | abandoned _ _ _ hpapers => simp [hpapers] at ht
  | interrupted _ _ hpapers => simp [hpapers] at ht

end Service

namespace Launch

variable {κ : Type} [DecidableEq κ]

/-- The snapshots that were passed to the store and lost. -/
def lost (l : Launch) (as : List (Action κ)) : List Snapshot :=
  l.along Service.lost as

theorem lost_eq_nil (l : Launch) {as : List (Action κ)} (has : ∀ a ∈ as, a.breaksSave = false) :
    l.lost as = [] := by
  rw [List.eq_nil_iff_forall_not_mem]
  intro u hu
  obtain ⟨before, a, after, hcourse, hlost⟩ := Service.mem_along hu
  have ha : a ∈ l.course as := by
    rw [hcourse]
    exact List.mem_append_right _ (List.mem_cons_self ..)
  rw [Service.lost_of_not_breaksSave _ (l.not_breaksSave_course has a ha)] at hlost
  cases hlost

end Launch

variable {κ : Type} [DecidableEq κ]

/-- A caller whose snapshot is skipped leaves the store as it is, since a newer snapshot
was passed to the store before; that one has been saved or was lost, and has been saved
if no save failed or was broken off. -/
theorem skipped_behind_newer (l : Launch) (as : List (Action κ)) (place : Nat) :
    ∀ t ∈ (l.run as).returned (.claim place),
      (l.run (as ++ [.claim place])).store = (l.run as).store ∧
      ∃ u ∈ l.passed as, t.seq < u.seq ∧ (u ∈ l.saved as ∨ u ∈ l.lost as) ∧
        ((∀ a ∈ as, a.breaksSave = false) → u ∈ l.saved as) := by
  intro t ht
  have horder := l.orderly as
  obtain ⟨hfree, hstale, hstore⟩ := (l.run as).stale_of_returned place ht
  obtain ⟨u, hpassed, hlast⟩ : ∃ u ∈ l.passed as, u.seq = (l.run as).desk.lastClaimed := by
    rcases horder.last_mem with hzero | hnewer
    · have hlt : t.seq < (l.run as).desk.lastClaimed := hstale
      omega
    · exact hnewer
  have hlt : t.seq < u.seq := by
    rw [hlast]
    exact hstale
  have hfate : u ∈ l.saved as ∨ u ∈ l.lost as := by
    rcases l.opened.passed_run (l.course as) (Or.inr hpassed) with hsaved | hlost | hwriting
    · exact Or.inl hsaved
    · exact Or.inr hlost
    · have hbusy : (l.run as).writing = some u := hwriting
      rw [hfree] at hbusy
      cases hbusy
  refine ⟨?_, u, hpassed, hlt, hfate, ?_⟩
  · rw [l.run_concat]
    exact hstore
  · intro has
    rcases hfate with hsaved | hlost
    · exact hsaved
    · rw [l.lost_eq_nil has] at hlost
      cases hlost

/-- A start whose caller gets its turn after a later change of the interval has failed to
be saved is skipped: it is not stored, though nothing newer is. -/
theorem skipped_behind_lost :
    let as : List (Action Unit) := [.command .start, .command (.setInterval 5), .claim 1,
      .save (.error (.unavailable ""))]
    ⟨1, ⟨true, 10⟩⟩ ∈ (Launch.standard.run as).returned (.claim 0) ∧
      ∃ u ∈ Launch.standard.passed as, 1 < u.seq ∧ u ∈ Launch.standard.lost as := by
  intro as
  have hskipped : ⟨1, ⟨true, 10⟩⟩ ∈ (Launch.standard.run as).returned (.claim 0) :=
    List.mem_cons_self ..
  obtain ⟨_, u, hpassed, hlt, hfate, _⟩ :=
    skipped_behind_newer Launch.standard as 0 _ hskipped
  refine ⟨hskipped, u, hpassed, hlt, ?_⟩
  rcases hfate with hsaved | hlost
  · cases hsaved
  · exact hlost

/-- Hence a snapshot may be skipped although nothing newer has ever been saved. -/
theorem skipped_with_nothing_newer_saved :
    ¬∀ (l : Launch) (as : List (Action Unit)) (place : Nat),
      ∀ t ∈ (l.run as).returned (.claim place), ∃ u ∈ l.saved as, t.seq < u.seq := by
  intro hclaim
  have hskipped : ∃ u ∈ Launch.standard.saved [.command .start,
      .command (.setInterval 5), .claim 1, .save (.error (.unavailable ""))],
      (1 : Nat) < u.seq :=
    hclaim Launch.standard _ 0 ⟨1, ⟨true, 10⟩⟩ (List.mem_cons_self ..)
  obtain ⟨u, hsaved, _⟩ := hskipped
  cases hsaved

end Polling
end SearchPolling
