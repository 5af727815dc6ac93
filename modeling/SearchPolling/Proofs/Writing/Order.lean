import Mathlib.Data.List.Nodup
import Mathlib.Data.List.Perm.Basic
import SearchPolling.Proofs.Writing.Desk

/-!
# The order of writing

Snapshots are numbered in the order of the transitions, but their callers may get their
turns in any order.  What is passed to the store is in the order of the transitions all
the same, since a snapshot that comes after a newer one is skipped.  As long as no save
fails or is broken off, a caller that returns knows that its own snapshot or a newer one
has been saved, and in the end the store holds the newest.
-/

namespace SearchPolling
namespace Polling

/-- What has been taken, passed to the store and saved so far agrees with the desk. -/
structure Orderly (l : Launch) (d : Desk) (taken passed saved : List Snapshot) : Prop where
  numbers : taken.map (·.seq) = List.range' 1 taken.length
  count : d.snapshots = taken.length
  waiting_taken : ∀ t ∈ d.waiting, t ∈ taken
  passed_taken : ∀ t ∈ passed, t ∈ taken
  /-- No two callers wait with snapshots of one number. -/
  nodup : (d.waiting.map (·.seq)).Nodup
  unclaimed : ∀ t ∈ d.waiting, t.seq ≠ d.lastClaimed
  rising : passed.Pairwise (·.seq < ·.seq)
  /-- The snapshot that was claimed last is the newest that was passed to the store. -/
  passed_le : ∀ t ∈ passed, t.seq ≤ d.lastClaimed
  last_mem : d.lastClaimed = 0 ∨ ∃ t ∈ passed, t.seq = d.lastClaimed
  saved_sublist : (saved ++ d.writing.toList).Sublist passed
  key_eq : d.stateKey = l.stateKey
  store_eq : d.store = saved.foldl (fun m t => m.save l.stateKey t.record.render) l.store

namespace Orderly

variable {l : Launch} {d : Desk} {taken passed saved : List Snapshot}

theorem seq_le (h : Orderly l d taken passed saved) {t : Snapshot} (ht : t ∈ taken) :
    1 ≤ t.seq ∧ t.seq ≤ d.snapshots := by
  have hmem : t.seq ∈ taken.map (·.seq) := List.mem_map_of_mem ht
  rw [h.numbers, List.mem_range'_1] at hmem
  rw [h.count]
  omega

theorem last_le (h : Orderly l d taken passed saved) : d.lastClaimed ≤ d.snapshots := by
  rcases h.last_mem with hzero | ⟨t, ht, hlast⟩
  · rw [hzero]
    exact Nat.zero_le _
  · rw [← hlast]
    exact (h.seq_le (h.passed_taken t ht)).2

/-- The snapshot that was taken last bears the number of all that were taken. -/
theorem seq_of_getLast? (h : Orderly l d taken passed saved) {t : Snapshot}
    (ht : taken.getLast? = some t) : t.seq = taken.length := by
  obtain ⟨earlier, rfl⟩ := List.getLast?_eq_some_iff.mp ht
  have hnumbers := h.numbers
  rw [List.map_append, List.length_append, List.length_singleton, List.range'_concat] at hnumbers
  have hlast := (List.append_inj' hnumbers rfl).2
  rw [List.map_singleton, List.cons.injEq] at hlast
  rw [List.length_append, List.length_singleton]
  omega

/-- The snapshot that was taken last is the newest. -/
theorem le_of_getLast? (h : Orderly l d taken passed saved) {t u : Snapshot}
    (ht : taken.getLast? = some t) (hu : u ∈ taken) : u.seq ≤ t.seq := by
  rw [h.seq_of_getLast? ht, ← h.count]
  exact (h.seq_le hu).2

/-- Snapshots of one number are one snapshot. -/
theorem eq_of_seq_eq (h : Orderly l d taken passed saved) {t u : Snapshot} (ht : t ∈ taken)
    (hu : u ∈ taken) (hseq : t.seq = u.seq) : t = u := by
  have hnodup : (taken.map (·.seq)).Nodup := by
    rw [h.numbers]
    exact List.nodup_range'
  exact List.inj_on_of_nodup_map hnodup ht hu hseq

theorem saved_passed (h : Orderly l d taken passed saved) : saved.Sublist passed :=
  (List.sublist_append_left _ _).trans h.saved_sublist

/-- If the newest snapshot has been saved, it was saved last, and the store holds its
record. -/
theorem load_newest (h : Orderly l d taken passed saved) {t : Snapshot}
    (hsaved : t ∈ saved) (hnewest : ∀ u ∈ taken, u.seq ≤ t.seq) :
    d.store.load l.stateKey = some t.record.render := by
  obtain ⟨earlier, u, rfl⟩ : ∃ earlier u, saved = earlier ++ [u] := by
    refine ⟨saved.dropLast, saved.getLast (List.ne_nil_of_mem hsaved), ?_⟩
    exact (List.dropLast_append_getLast _).symm
  have hlast : t = u := by
    rcases List.mem_append.mp hsaved with hearlier | hlast
    · have hu : u ∈ passed :=
        h.saved_passed.subset (List.mem_append_right _ (List.mem_singleton_self u))
      have hrising := (List.pairwise_append.mp (h.rising.sublist h.saved_passed)).2.2
      have hlt := hrising t hearlier u (List.mem_singleton_self u)
      have hle := hnewest u (h.passed_taken u hu)
      omega
    · exact List.mem_singleton.mp hlast
  rw [h.store_eq, List.foldl_append, hlast]
  exact Store.Memory.load_save_self _ _ _

theorem queue (h : Orderly l d taken passed saved) {t : Snapshot}
    (ht : t.seq = d.snapshots + 1) :
    Orderly l { d with snapshots := t.seq, waiting := d.waiting ++ [t] }
      (taken ++ [t]) passed saved := { h with
  numbers := by
    rw [List.map_append, h.numbers, List.length_append, List.length_singleton,
      List.range'_concat, List.map_singleton, ht, h.count]
    simp [Nat.add_comm]
  count := by
    rw [List.length_append, List.length_singleton, ← h.count]
    exact ht
  waiting_taken := by
    intro u hu
    rcases List.mem_append.mp hu with hold | hnew
    · exact List.mem_append_left _ (h.waiting_taken u hold)
    · exact List.mem_append_right _ hnew
  passed_taken := fun u hu => List.mem_append_left _ (h.passed_taken u hu)
  nodup := by
    rw [List.map_append, List.map_singleton, List.nodup_append]
    refine ⟨h.nodup, List.pairwise_singleton _ _, ?_⟩
    intro n hn m hm
    obtain ⟨u, hu, rfl⟩ := List.mem_map.mp hn
    have hle := (h.seq_le (h.waiting_taken u hu)).2
    rw [List.mem_singleton.mp hm]
    omega
  unclaimed := by
    intro u hu
    rcases List.mem_append.mp hu with hold | hnew
    · exact h.unclaimed u hold
    · have hle := h.last_le
      rw [List.mem_singleton.mp hnew]
      show t.seq ≠ d.lastClaimed
      omega }

/-- A caller that goes, for whatever reason, leaves the others as they are. -/
theorem dismiss (h : Orderly l d taken passed saved) (place : Nat) :
    Orderly l { d with waiting := d.waiting.eraseIdx place } taken passed saved := { h with
  waiting_taken := fun t ht => h.waiting_taken t (List.mem_of_mem_eraseIdx ht)
  nodup := h.nodup.sublist ((List.eraseIdx_sublist _ _).map _)
  unclaimed := fun t ht => h.unclaimed t (List.mem_of_mem_eraseIdx ht) }

/-- The snapshot of a caller that goes has a number of its own. -/
theorem seq_ne_of_mem_eraseIdx (h : Orderly l d taken passed saved) {place : Nat}
    {t u : Snapshot} (hplace : d.waiting[place]? = some t)
    (hu : u ∈ d.waiting.eraseIdx place) : u.seq ≠ t.seq := by
  obtain ⟨hlt, rfl⟩ := List.getElem?_eq_some_iff.mp hplace
  have hperm := (List.getElem_cons_eraseIdx_perm hlt).map (·.seq)
  have hnodup := hperm.nodup_iff.mpr h.nodup
  rw [List.map_cons, List.nodup_cons] at hnodup
  intro heq
  exact hnodup.1 (heq ▸ List.mem_map_of_mem hu)

/-- A snapshot that is not stale when its turn comes is newer than all before it. -/
theorem claim (h : Orderly l d taken passed saved) {place : Nat} {t : Snapshot}
    (hwriting : d.writing = none) (hplace : d.waiting[place]? = some t)
    (hfresh : d.lastClaimed ≤ t.seq) :
    Orderly l
      { d with
        lastClaimed := t.seq
        waiting := d.waiting.eraseIdx place
        writing := some t }
      taken (passed ++ [t]) saved := { h.dismiss place with
  passed_taken := by
    intro u hu
    rcases List.mem_append.mp hu with hold | hnew
    · exact h.passed_taken u hold
    · rw [List.mem_singleton.mp hnew]
      exact h.waiting_taken t (List.mem_of_getElem? hplace)
  unclaimed := fun u hu => h.seq_ne_of_mem_eraseIdx hplace hu
  rising := by
    rw [List.pairwise_append]
    refine ⟨h.rising, List.pairwise_singleton _ _, ?_⟩
    intro u hu v hv
    -- What was claimed last is the newest that was passed, and it waits no longer.
    have hle := h.passed_le u hu
    have hne := h.unclaimed t (List.mem_of_getElem? hplace)
    rw [List.mem_singleton.mp hv]
    omega
  passed_le := by
    intro u hu
    rcases List.mem_append.mp hu with hold | hnew
    · exact Nat.le_trans (h.passed_le u hold) hfresh
    · exact Nat.le_of_eq (congrArg Snapshot.seq (List.mem_singleton.mp hnew))
  last_mem := Or.inr ⟨t, List.mem_append_right _ (List.mem_singleton_self t), rfl⟩
  saved_sublist := by
    have hsaved := h.saved_sublist
    rw [hwriting] at hsaved
    have hrest : saved.Sublist passed := by simpa using hsaved
    exact hrest.append (List.Sublist.refl [t]) }

theorem save (h : Orderly l d taken passed saved) {t : Snapshot}
    (hwriting : d.writing = some t) :
    Orderly l
      { d with
        writing := none
        store := d.store.save d.stateKey t.record.render }
      taken passed (saved ++ [t]) := { h with
  saved_sublist := by
    have hsaved := h.saved_sublist
    rw [hwriting] at hsaved
    simpa using hsaved
  store_eq := by
    rw [List.foldl_append, ← h.store_eq, h.key_eq]
    rfl }

theorem drop (h : Orderly l d taken passed saved) :
    Orderly l { d with writing := none } taken passed saved := { h with
  saved_sublist := by
    have hall : saved.Sublist (saved ++ d.writing.toList) := List.sublist_append_left _ _
    simpa using hall.trans h.saved_sublist }

variable {κ : Type} [DecidableEq κ]

/-- Every step keeps order. -/
theorem step {s : Service κ} (h : Orderly l s.desk taken passed saved) (a : Action κ) :
    Orderly l (s.step a).desk (taken ++ (s.papers a).taken) (passed ++ (s.papers a).passed)
      (saved ++ (s.papers a).saved) := by
  cases s.writingTurn a with
  | idle hdesk hpapers =>
      rw [hdesk, hpapers]
      simp only [List.append_nil]
      exact h
  | queued t hseq _ hdesk hpapers =>
      rw [hdesk, hpapers]
      simp only [List.append_nil]
      exact h.queue hseq
  | skipped place t _ _ _ hdesk hpapers =>
      rw [hdesk, hpapers]
      simp only [List.append_nil]
      exact h.dismiss place
  | claimed place t hwriting hplace hfresh hdesk hpapers =>
      rw [hdesk, hpapers]
      simp only [List.append_nil]
      exact h.claim hwriting hplace hfresh
  | saved t hwriting hdesk hpapers =>
      rw [hdesk, hpapers]
      simp only [List.append_nil]
      exact h.save hwriting
  | failed t e _ _ hdesk hpapers =>
      rw [hdesk, hpapers]
      simp only [List.append_nil]
      exact h.drop
  | abandoned place _ hdesk hpapers =>
      rw [hdesk, hpapers]
      simp only [List.append_nil]
      exact h.dismiss place
  | interrupted _ hdesk hpapers =>
      rw [hdesk, hpapers]
      simp only [List.append_nil]
      exact h.drop

theorem run {s : Service κ} (h : Orderly l s.desk taken passed saved) (as : List (Action κ)) :
    Orderly l (s.run as).desk
      (taken ++ Service.along (fun s a => (s.papers a).taken) s as)
      (passed ++ Service.along (fun s a => (s.papers a).passed) s as)
      (saved ++ Service.along (fun s a => (s.papers a).saved) s as) := by
  induction as generalizing s taken passed saved with
  | nil => simpa [Service.along] using h
  | cons a as ih => simpa [Service.along] using ih (h.step a)

end Orderly

namespace Launch

variable {κ : Type}

/-- Nothing has been written when a service has been opened. -/
theorem desk_opened (l : Launch) :
    (l.opened : Service κ).desk =
      { snapshots := 0
        lastClaimed := 0
        waiting := []
        writing := none
        stateKey := l.stateKey
        store := l.store } := by
  simp only [Service.desk, Service.state, opened, Engine.adopt, opening, Engine.opening]
  cases l.found.record? <;>
    simp only [Engine.carryOut, Engine.performAll_state, Engine.performAll_writer,
      Engine.performAll_stateKey] <;>
    rfl

variable [DecidableEq κ]

/-- The snapshots that have been taken, in their order. -/
def taken (l : Launch) (as : List (Action κ)) : List Snapshot :=
  l.along (fun s a => (s.papers a).taken) as

/-- The snapshots that have been passed to the store, in their order. -/
def passed (l : Launch) (as : List (Action κ)) : List Snapshot :=
  l.along (fun s a => (s.papers a).passed) as

/-- The snapshots that the store has taken in, in their order. -/
def saved (l : Launch) (as : List (Action κ)) : List Snapshot :=
  l.along (fun s a => (s.papers a).saved) as

/-- The snapshots whose callers have returned, in the order of the returns. -/
def returned (l : Launch) (as : List (Action κ)) : List Snapshot :=
  l.along (fun s a => (s.papers a).returned) as

omit [DecidableEq κ] in
theorem orderly_opened (l : Launch) : Orderly l (l.opened : Service κ).desk [] [] [] := by
  rw [desk_opened]
  exact {
    numbers := rfl
    count := rfl
    waiting_taken := fun _ ht => nomatch ht
    passed_taken := fun _ ht => nomatch ht
    nodup := .nil
    unclaimed := fun _ ht => nomatch ht
    rising := .nil
    passed_le := fun _ ht => nomatch ht
    last_mem := Or.inl rfl
    saved_sublist := .slnil
    key_eq := rfl
    store_eq := rfl }

theorem orderly (l : Launch) (as : List (Action κ)) :
    Orderly l (l.run as).desk (l.taken as) (l.passed as) (l.saved as) :=
  l.orderly_opened.run (l.course as)

theorem stateKey_run (l : Launch) (as : List (Action κ)) :
    (l.run as).placed.engine.stateKey = l.stateKey :=
  (l.orderly as).key_eq

end Launch
end Polling
end SearchPolling
