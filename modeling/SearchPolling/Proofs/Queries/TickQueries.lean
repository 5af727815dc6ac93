import Mathlib.Data.List.Induction
import SearchPolling.Proofs.Lifetime.Release

/-!
# Queries of ticks

A tick issues a query only while none is outstanding.  Starts may put any number of queries
beside the one that a tick has issued, and a reset leaves behind what is on its way without
ending it; still no two queries on their way that ticks have issued are of the same cycle.

Cycles are numbered by the resets, in 64 bits.  The count of outstanding queries, on which a
tick relies, is right as long as no query stays on its way until the number of its cycle comes
round; how many resets a run has altogether does not matter.
-/

namespace SearchPolling
namespace Polling

/-- The count of a view is that of its queries of the current cycle, and of each cycle at most
one query on its way is a tick's. -/
structure Paced (v : View) : Prop where
  outstanding_eq : v.outstanding = v.flights.countP (·.cycle = v.cycle)
  ticks_le : ∀ c, v.flights.countP (fun f => f.origin = .tick ∧ f.cycle = c) ≤ 1

namespace Paced

variable {v : View}

/-- Where none is outstanding, no query on its way is of the current cycle. -/
theorem cycle_ne (h : Paced v) (hfree : v.outstanding = 0) {f : Flight} (hf : f ∈ v.flights) :
    f.cycle ≠ v.cycle := by
  have hnone : v.flights.countP (·.cycle = v.cycle) = 0 := h.outstanding_eq.symm.trans hfree
  rw [List.countP_eq_zero] at hnone
  simpa using hnone f hf

theorem issue (h : Paced v) {f : Flight} (hf : f.cycle = v.cycle)
    (hfree : f.origin = .tick → v.outstanding = 0) : Paced (v.issue f) where
  outstanding_eq := View.outstanding_issue h.outstanding_eq hf
  ticks_le := by
    intro c
    simp only [View.issue, List.countP_append, List.countP_singleton]
    by_cases hnew : f.origin = .tick ∧ f.cycle = c
    · -- A tick found nothing outstanding, so its query is the first of the cycle.
      obtain ⟨horigin, rfl⟩ := hnew
      have hnone : v.flights.countP (fun g => g.origin = .tick ∧ g.cycle = f.cycle) = 0 := by
        rw [List.countP_eq_zero]
        intro g hg
        have hother := h.cycle_ne (hfree horigin) hg
        simp [hf, hother]
      rw [hnone]
      split <;> decide
    · simpa [hnew] using h.ticks_le c

theorem land (h : Paced v) (hnodup : (v.flights.map (·.number)).Nodup) {f : Flight}
    (hf : f ∈ v.flights) : Paced (v.land f) where
  outstanding_eq := View.outstanding_land h.outstanding_eq hnodup hf
  ticks_le := fun c => Nat.le_trans List.filter_sublist.countP_le (h.ticks_le c)

/-- A reset leaves nothing outstanding, if its cycle has a new number. -/
theorem reset (h : Paced v) (hnew : ∀ f ∈ v.flights, f.cycle ≠ v.cycle + 1) :
    Paced { v with cycle := v.cycle + 1, outstanding := 0 } where
  outstanding_eq := by
    symm
    rw [List.countP_eq_zero]
    intro f hf
    simpa using hnew f hf
  ticks_le := h.ticks_le

theorem of_same (h : Paced v) {w : View} (houtstanding : w.outstanding = v.outstanding)
    (hcycle : w.cycle = v.cycle) (hflights : w.flights = v.flights) : Paced w where
  outstanding_eq := by rw [houtstanding, hcycle, hflights, h.outstanding_eq]
  ticks_le := by
    rw [hflights]
    exact h.ticks_le

variable {κ : Type} [DecidableEq κ]

theorem step {s : Service κ} (h : Paced s.view) (hnodup : (s.flights.map (·.number)).Nodup)
    (a : Action κ)
    (hnew : (s.marks a).resets = true → ∀ f ∈ s.flights, f.cycle ≠ s.state.cycle + 1) :
    Paced (s.step a).view := by
  cases s.turn a with
  | quiet hview _ =>
      rw [hview]
      exact h
  | obsolete _ _ _ hview _ =>
      rw [hview]
      exact h.of_same rfl rfl rfl
  | ticked haction _ hview hmarks =>
      rw [hview]
      refine h.issue rfl fun _ => ?_
      subst haction
      exact Service.outstanding_of_issued (by rw [hmarks]; exact List.cons_ne_nil _ _)
  | started _ _ hview _ =>
      rw [hview]
      have hactive : Paced { s.view with active := true } := h.of_same rfl rfl rfl
      exact (hactive.issue rfl fun horigin => by cases horigin).of_same rfl rfl rfl
  | stopped hview _ =>
      rw [hview]
      exact h.of_same rfl rfl rfl
  | reset _ hview hmarks =>
      rw [hview]
      exact (h.reset (hnew (by rw [hmarks]))).of_same rfl rfl rfl
  | answered f hf hview _ =>
      rw [hview]
      exact h.land hnodup hf

end Paced

namespace Service

variable {κ : Type} [DecidableEq κ]

theorem tally_append (b : Service κ → Action κ → Bool) (s : Service κ) (as bs : List (Action κ)) :
    tally b s (as ++ bs) = tally b s as + tally b (s.run as) bs := by
  induction as generalizing s with
  | nil => simp [tally]
  | cons a as ih =>
      simp only [List.cons_append, tally, ih, run_cons]
      omega

/-- A query that is issued is on its way. -/
theorem mem_flights_of_issued {s : Service κ} {a : Action κ} {f : Flight}
    (h : f ∈ (s.marks a).issued) : f ∈ (s.step a).view.flights := by
  cases s.turn a with
  | ticked _ _ hview hmarks =>
      rw [hmarks] at h
      rw [hview]
      exact List.mem_append_right _ h
  | started _ _ hview hmarks =>
      rw [hmarks] at h
      rw [hview]
      exact List.mem_append_right _ h
  | quiet _ hmarks => simp [hmarks] at h
  | obsolete _ _ _ _ hmarks => simp [hmarks] at h
  | stopped _ hmarks => simp [hmarks] at h
  | reset _ _ hmarks => simp [hmarks] at h
  | answered _ _ _ hmarks => simp [hmarks] at h

/-- A tick issues a query of its own, of the current cycle. -/
theorem eq_next_of_issued {s : Service κ} {generation : UInt64} {f : Flight}
    (h : f ∈ (s.marks (.tick generation)).issued) : f = s.next .tick := by
  cases s.turn (.tick generation) with
  | ticked _ _ _ hmarks => simpa [hmarks] using h
  | started haction _ _ _ => cases haction
  | quiet _ hmarks => simp [hmarks] at h
  | obsolete _ _ _ _ hmarks => simp [hmarks] at h
  | stopped _ hmarks => simp [hmarks] at h
  | reset _ _ hmarks => simp [hmarks] at h
  | answered _ _ _ hmarks => simp [hmarks] at h

theorem flights_of_resets {s : Service κ} {a : Action κ} (h : (s.marks a).resets = true) :
    (s.step a).view.flights = s.view.flights := by
  cases s.turn a with
  | reset _ hview _ => rw [hview]; rfl
  | quiet _ hmarks => simp [hmarks] at h
  | obsolete _ _ _ _ hmarks => simp [hmarks] at h
  | ticked _ _ _ hmarks => simp [hmarks] at h
  | started _ _ _ hmarks => simp [hmarks] at h
  | stopped _ hmarks => simp [hmarks] at h
  | answered _ _ _ hmarks => simp [hmarks] at h

/-- A query bears the number of its cycle: so many have been opened before it was issued. -/
theorem cycle_of_issued {s : Service κ} {as : List (Action κ)} {f : Flight}
    (h : f ∈ along (fun s a => (s.marks a).issued) s as) :
    ∃ n ≤ tally (fun s a => (s.marks a).resets) s as, f.cycle = s.state.cycle + UInt64.ofNat n := by
  obtain ⟨before, a, after, rfl, hissued⟩ := mem_along h
  have hconcat : s.run (before ++ [a]) = (s.run before).step a := s.run_concat before a
  refine ⟨tally (fun s a => (s.marks a).resets) s (before ++ [a]), ?_, ?_⟩
  · rw [List.append_cons before a after, tally_append _ _ (before ++ [a])]
    exact Nat.le_add_right _ _
  · rw [← cycle_issued hissued, ← hconcat, cycle_run]

end Service

namespace Launch

variable {κ : Type} [DecidableEq κ]

/-- No query stays on its way until the number of its cycle comes round. -/
def NoneOutstays (l : Launch) (as : List (Action κ)) : Prop :=
  ∀ before between after, l.course as = before ++ (between ++ after) →
    ∀ f ∈ (l.opened.run before).flights, f ∈ ((l.opened.run before).run between).flights →
      Service.tally (fun s a => (s.marks a).resets) (l.opened.run before) between < 2 ^ 64

/-- In a run of fewer than `2 ^ 64` resets no number comes round. -/
theorem noneOutstays_of_resets {l : Launch} {as : List (Action κ)} (h : l.resets as < 2 ^ 64) :
    l.NoneOutstays as := by
  intro before between after hcourse f _ _
  rw [resets, hcourse, Service.tally_append, Service.tally_append] at h
  omega

/-- The cycle that a reset opens is of none of the queries on their way. -/
theorem cycle_ne_of_resets {l : Launch} {as : List (Action κ)} (h : l.NoneOutstays as)
    {past rest : List (Action κ)} {a : Action κ} (hcourse : l.course as = past ++ a :: rest)
    (hresets : ((l.opened.run past).marks a).resets = true) :
    ∀ f ∈ (l.opened.run past).flights, f.cycle ≠ (l.opened.run past).state.cycle + 1 := by
  intro f hf hcycle
  have hissued := (l.ledger_opened.run past).split.mem_iff.mpr (List.mem_append_right _ hf)
  obtain ⟨before, b, between, rfl, hb⟩ := Service.mem_along hissued
  have hrun : (l.opened : Service κ).run (before ++ b :: between) =
      (l.opened.run (before ++ [b])).run between := by
    rw [List.append_cons, Service.run_append]
  have hdeparted : f ∈ (l.opened.run (before ++ [b])).flights := by
    rw [Service.run_concat]
    exact Service.mem_flights_of_issued hb
  have hleft : f ∈ ((l.opened.run (before ++ [b])).run (between ++ [a])).flights := by
    rw [Service.run_concat, ← hrun]
    have hsame : (((l.opened : Service κ).run (before ++ b :: between)).step a).flights = _ :=
      Service.flights_of_resets hresets
    rw [hsame]
    exact hf
  have hfew := h (before ++ [b]) (between ++ [a]) rest (by simp [hcourse]) f hdeparted hleft
  -- Since it was issued so many cycles were opened, and the reset opens one more.
  have hnow := (l.opened.run (before ++ [b])).cycle_run between
  have hthen : (l.opened.run (before ++ [b])).state.cycle = f.cycle := by
    rw [Service.run_concat]
    exact Service.cycle_issued hb
  rw [hrun] at hresets
  rw [Service.tally_append, Service.tally, Service.tally, hresets, if_pos rfl] at hfew
  rw [hrun, hnow, hthen, UInt64.add_assoc, eq_comm, UInt64.add_eq_left] at hcycle
  have hround : (Service.tally (fun s a => (s.marks a).resets)
      (l.opened.run (before ++ [b])) between + 1) % 2 ^ 64 = 0 := by
    rw [← UInt64.toNat_ofNat', UInt64.ofNat_add]
    exact congrArg UInt64.toNat hcycle
  omega

theorem paced {l : Launch} {as : List (Action κ)} (h : l.NoneOutstays as)
    {past rest : List (Action κ)} (hcourse : l.course as = past ++ rest) :
    Paced (l.opened.run past).view := by
  induction past using List.reverseRecOn generalizing rest with
  | nil =>
      rw [Service.run_nil, view_opened]
      exact ⟨rfl, fun _ => Nat.zero_le _⟩
  | append_singleton past a ih =>
      rw [List.append_assoc] at hcourse
      rw [Service.run_concat]
      exact (ih hcourse).step (l.ledger_opened.run past).nodup_flights a
        (cycle_ne_of_resets h hcourse)

theorem resets_cons (l : Launch) (before after : List (Action κ)) (a : Action κ) :
    l.resets (before ++ a :: after) = l.resets before +
      ((if ((l.run before).marks a).resets then 1 else 0) +
        Service.tally (fun s a => (s.marks a).resets) ((l.run before).step a) after) := by
  rw [resets, course_append, Service.tally_append]
  rfl

theorem cycle_run (l : Launch) (as : List (Action κ)) :
    (l.run as).state.cycle = UInt64.ofNat (l.resets as) := by
  have hopened : (l.opened : Service κ).state.cycle = 0 := congrArg View.cycle l.view_opened
  rw [run, Service.cycle_run, hopened, UInt64.zero_add]
  rfl

/-- The queries that are issued after a reset are of cycles that have been opened since. -/
theorem cycle_of_issued_later (l : Launch) {before after : List (Action κ)} {a : Action κ}
    (hresets : ((l.run before).marks a).resets = true) {f : Flight}
    (h : f ∈ Service.along (fun s a => (s.marks a).issued) ((l.run before).step a) after) :
    ∃ n, l.resets before < n ∧ n ≤ l.resets (before ++ a :: after) ∧
      f.cycle = UInt64.ofNat n := by
  obtain ⟨n, hn, hcycle⟩ := Service.cycle_of_issued h
  have hopens := l.resets_cons before after a
  have hnow := l.resets_cons before [] a
  rw [hresets, if_pos rfl] at hopens hnow
  rw [← l.run_concat, l.cycle_run, hnow, Service.tally, ← UInt64.ofNat_add] at hcycle
  refine ⟨l.resets before + 1 + n, by omega, by omega, hcycle⟩

end Launch

variable {κ : Type} [DecidableEq κ]

/-- Of each cycle at most one query on its way is a tick's; and when a tick issues one, no other
query of the current cycle is on its way, whoever issued it.  A cycle bears the number of
resets before it, and so does a query of it: after a reset none is issued under the number of
an older cycle, unless the numbers come round. -/
theorem one_tick_query_per_cycle (l : Launch) (as : List (Action κ)) (hstay : l.NoneOutstays as) :
    (∀ c, (l.run as).flights.countP (fun f => f.origin = .tick ∧ f.cycle = c) ≤ 1) ∧
      (∀ generation, ∀ f ∈ ((l.run as).marks (.tick generation)).issued,
        f.origin = .tick ∧ f.cycle = (l.run as).state.cycle ∧
          ∀ g ∈ (l.run as).flights, g.cycle ≠ (l.run as).state.cycle) ∧
      (l.run as).state.cycle = UInt64.ofNat (l.resets as) ∧
      ∀ before a after, as = before ++ a :: after → ((l.run before).marks a).resets = true →
        ∀ f ∈ Service.along (fun s a => (s.marks a).issued) ((l.run before).step a) after,
          (∃ n, l.resets before < n ∧ n ≤ l.resets as ∧ f.cycle = UInt64.ofNat n) ∧
          (l.resets as < 2 ^ 64 → ∀ m ≤ l.resets before, UInt64.ofNat m < f.cycle) := by
  have hpaced : Paced (l.run as).view := Launch.paced hstay (List.append_nil _).symm
  refine ⟨hpaced.ticks_le, ?_, l.cycle_run as, ?_⟩
  · intro generation f hf
    have hfree : (l.run as).view.outstanding = 0 :=
      Service.outstanding_of_issued (List.ne_nil_of_mem hf)
    rw [Service.eq_next_of_issued hf]
    exact ⟨rfl, rfl, fun g hg => hpaced.cycle_ne hfree hg⟩
  · rintro before a after rfl hresets f hf
    obtain ⟨n, hlater, hn, hcycle⟩ := l.cycle_of_issued_later hresets hf
    refine ⟨⟨n, hlater, hn, hcycle⟩, fun hbound m hm => ?_⟩
    have hnumber : n < UInt64.size := Nat.lt_of_le_of_lt hn hbound
    rw [hcycle, UInt64.ofNat_lt_iff_lt (Nat.lt_of_le_of_lt (by omega) hnumber) hnumber]
    exact Nat.lt_of_le_of_lt hm hlater

/-- A tick's query that a drop leaves behind stays on its way beside that of the next tick,
which is of the next cycle; the tick after that one issues none. -/
theorem tick_queries_after_drop :
    let as : List (Action Unit) := [.command .start, .answer 0 (.error .timeout), .tick 1,
      .command .dropCycle, .tick 2]
    Launch.standard.NoneOutstays as ∧
      (Launch.standard.run as).flights.map (fun f => (f.origin, f.cycle)) =
        [(.tick, 0), (.tick, 1)] ∧
      (∀ c, (Launch.standard.run as).flights.countP (fun f => f.origin = .tick ∧ f.cycle = c) ≤ 1) ∧
      ((Launch.standard.run as).marks (.tick 2)).issued = [] := by
  intro as
  have hstay : Launch.standard.NoneOutstays as := Launch.noneOutstays_of_resets (by decide)
  exact ⟨hstay, by decide, (one_tick_query_per_cycle Launch.standard as hstay).1, by decide⟩

end Polling
end SearchPolling
