import SearchPolling.Proofs.Queries.Telling

/-!
# Queries that a reset overtakes

After a reset all queries issued before it belong to earlier cycles, so whatever is then
decided about one of them, it does not count.  What was decided before stays decided: a
verdict that a query counts may be told when the reset is over, and its event is published
among those of later queries.  These verdicts are the only ones of their kind.
-/

namespace SearchPolling
namespace Polling

/-- All of the first so many queries that are on their way are of earlier cycles. -/
structure Behind (n : Nat) (v : View) : Prop where
  issued_le : n ≤ v.issued
  cycle_lt : ∀ f ∈ v.flights, f.number ≤ n → f.cycle < v.cycle

namespace Behind

variable {n : Nat} {v : View}

theorem issue (h : Behind n v) {f : Flight} (hf : f.number = v.issued + 1) :
    Behind n (v.issue f) where
  issued_le := Nat.le_succ_of_le h.issued_le
  cycle_lt := by
    intro g hg hnumber
    rcases List.mem_append.mp hg with hold | hnew
    · exact h.cycle_lt g hold hnumber
    · rw [List.mem_singleton.mp hnew, hf] at hnumber
      have hle := h.issued_le
      omega

theorem land (h : Behind n v) (f : Flight) : Behind n (v.land f) where
  issued_le := h.issued_le
  cycle_lt := fun g hg => h.cycle_lt g (List.mem_filter.mp hg).1

/-- A reset leaves behind what was of its own cycle, and what was behind already. -/
theorem reset (hissued : n ≤ v.issued) (hle : ∀ f ∈ v.flights, f.number ≤ n → f.cycle ≤ v.cycle)
    (hcycle : v.cycle.toNat + 1 < 2 ^ 64) :
    Behind n { v with cycle := v.cycle + 1, outstanding := 0 } where
  issued_le := hissued
  cycle_lt := fun f hf hnumber => lt_next_cycle (hle f hf hnumber) hcycle

theorem of_same (h : Behind n v) {w : View} (hissued : w.issued = v.issued)
    (hcycle : w.cycle = v.cycle) (hflights : w.flights = v.flights) : Behind n w where
  issued_le := hissued ▸ h.issued_le
  cycle_lt := by
    rw [hcycle, hflights]
    exact h.cycle_lt

variable {κ : Type} [DecidableEq κ]

theorem step {s : Service κ} (h : Behind n s.view) (a : Action κ)
    (hcycle : (s.marks a).resets = true → s.view.cycle.toNat + 1 < 2 ^ 64) :
    Behind n (s.step a).view := by
  apply Service.preserved_of_queries h a
  · intro v w hv _ hsame hflights hissued
    exact hv.of_same hissued hsame hflights
  · intro origin
    exact h.issue rfl
  · intro f _
    exact h.land f
  · intro hresets
    have hle (f : Flight) (hf : f ∈ s.view.flights) (hnumber : f.number ≤ n) :
        f.cycle ≤ s.view.cycle := UInt64.le_of_lt (h.cycle_lt f hf hnumber)
    exact reset h.issued_le hle (hcycle hresets)

/-- An action that resets leaves behind all queries that have been issued. -/
theorem of_resets {s : Service κ} (h : Accounted s.view) {a : Action κ}
    (hresets : (s.marks a).resets = true) (hcycle : s.view.cycle.toNat + 1 < 2 ^ 64) :
    Behind s.world.issued (s.step a).view := by
  cases s.turn a with
  | reset _ hview _ =>
      rw [hview]
      exact (reset (Nat.le_refl _) (fun f hf _ => h.cycle_le f hf) hcycle).of_same rfl rfl rfl
  | quiet _ hmarks => simp [hmarks] at hresets
  | obsolete _ _ _ _ hmarks => simp [hmarks] at hresets
  | ticked _ _ _ hmarks => simp [hmarks] at hresets
  | started _ _ _ hmarks => simp [hmarks] at hresets
  | stopped _ hmarks => simp [hmarks] at hresets
  | answered _ _ _ hmarks => simp [hmarks] at hresets

end Behind

variable {κ : Type} [DecidableEq κ]

namespace Lagging

/-- The count of outstanding queries and the ledger do not depend on when answers are
told. -/
theorem accounted_run {start : Nat} {d : Lagging κ} {issued landed : List Flight}
    (haccounted : Accounted d.service.view) (hledger : Ledger start d.service.view issued landed)
    (ms : List (Move κ)) (hbound : d.service.view.cycle.toNat + d.resets ms < 2 ^ 64) :
    Accounted (d.run ms).service.view ∧
      ∃ landed, Ledger start (d.run ms).service.view (issued ++ d.along Lagging.issued ms) landed := by
  refine run_preserves
    (P := fun d issued => Accounted d.service.view ∧
      ∃ landed, Ledger start d.service.view issued landed)
    ?_ ⟨haccounted, landed, hledger⟩ ms hbound
  rintro d m issued ⟨haccounted, landed, hledger⟩ hcycle
  cases m with
  | act a =>
      rw [view_act]
      exact ⟨Service.accounted_step haccounted hledger.nodup_flights a hcycle, _,
        hledger.step a⟩
  | tell place =>
      rw [view_tell]
      exact ⟨haccounted, landed, by simpa [Lagging.issued] using hledger⟩

omit [DecidableEq κ] in
/-- Whatever is decided about a query that is behind, it does not count. -/
theorem judged_not_old {n : Nat} {d : Lagging κ} (h : Behind n d.service.view) (m : Move κ) :
    ∀ v ∈ d.judged m, v.isOld n = false := by
  intro v hv
  cases m with
  | tell place => simp [judged] at hv
  | act a =>
      cases a with
      | answer place result =>
          simp only [judged, Option.mem_toList, Option.map_eq_some_iff] at hv
          obtain ⟨f, hplace, rfl⟩ := hv
          by_cases hnumber : f.number ≤ n
          · have hlt := h.cycle_lt f (List.mem_of_getElem? hplace) hnumber
            have hother : d.service.state.isCurrent f.cycle = false :=
              decide_eq_false fun heq => UInt64.ne_of_lt hlt heq.symm
            simp [Verdict.isOld, verdict, hother]
          · simp [Verdict.isOld, verdict, hnumber]
      | _ => simp [judged] at hv

theorem behind_step {n : Nat} {d : Lagging κ} (h : Behind n d.service.view) (m : Move κ)
    (hcycle : d.opens m = true → d.service.view.cycle.toNat + 1 < 2 ^ 64) :
    Behind n (d.step m).service.view := by
  cases m with
  | act a =>
      rw [view_act]
      exact h.step a hcycle
  | tell place =>
      rw [view_tell]
      exact h

/-- Once queries are behind, no verdict that is reached says that one of them counts. -/
theorem judged_run {n : Nat} {d : Lagging κ} (h : Behind n d.service.view) (ms : List (Move κ))
    (hbound : d.service.view.cycle.toNat + d.resets ms < 2 ^ 64) :
    ∀ v ∈ d.along judged ms, v.isOld n = false := by
  have hnow : Behind n d.service.view ∧ ∀ v ∈ ([] : List Verdict), v.isOld n = false :=
    ⟨h, by simp⟩
  refine (run_preserves (g := judged)
    (P := fun d judged => Behind n d.service.view ∧ ∀ v ∈ judged, v.isOld n = false)
    ?_ hnow ms hbound).2
  rintro d m earlier ⟨hbehind, hearlier⟩ hcycle
  refine ⟨behind_step hbehind m hcycle, ?_⟩
  intro v hv
  rcases List.mem_append.mp hv with hv | hv
  · exact hearlier v hv
  · exact judged_not_old hbehind m v hv

/-- So those of their verdicts that say that they count are told or stay untold, and none is
added to them. -/
theorem old_run {n : Nat} {d : Lagging κ} (h : Behind n d.service.view) (ms : List (Move κ))
    (hbound : d.service.view.cycle.toNat + d.resets ms < 2 ^ 64) :
    ((d.along told ms ++ (d.run ms).untold).filter (·.isOld n)).Perm
      (d.untold.filter (·.isOld n)) := by
  have hnone : (d.along judged ms).filter (·.isOld n) = [] := by
    rw [List.filter_eq_nil_iff]
    intro v hv
    simp [judged_run h ms hbound v hv]
  have hkept : (d.untold ++ d.along judged ms).filter (·.isOld n) =
      d.untold.filter (·.isOld n) := by
    rw [List.filter_append, hnone, List.append_nil]
  have hperm := (d.untold_run ms).filter (·.isOld n)
  rwa [hkept] at hperm

end Lagging

/-- The first start stays in the first cycle. -/
theorem Launch.resets_nil (l : Launch) : l.resets ([] : List (Action κ)) = 0 := by
  simp only [resets, course, first, List.append_nil]
  split <;> rfl

theorem Launch.cycle_nil (l : Launch) : (l.run [] : Service κ).view.cycle = 0 := by
  have hopened : (l.opened : Service κ).state.cycle = 0 := congrArg View.cycle l.view_opened
  have hrun := l.opened.cycle_run (l.course ([] : List (Action κ)))
  rw [hopened] at hrun
  have hnone : Service.tally (fun s a => (s.marks a).resets) l.opened
      (l.course ([] : List (Action κ))) = 0 := l.resets_nil
  rwa [hnone] at hrun

namespace Lagging

theorem bound_launched (l : Launch) {ms : List (Move κ)}
    (hresets : (launched l).resets ms < 2 ^ 64) :
    (launched (κ := κ) l).service.view.cycle.toNat + (launched l).resets ms < 2 ^ 64 := by
  show (l.run [] : Service κ).view.cycle.toNat + _ < _
  rw [l.cycle_nil]
  simpa using hresets

/-- The count and the ledger of a run that begins with a launch. -/
theorem accounted_launched (l : Launch) (ms : List (Move κ))
    (hresets : (launched l).resets ms < 2 ^ 64) :
    Accounted ((launched l).run ms).service.view ∧
      ∃ landed, Ledger l.world.issued ((launched l).run ms).service.view
        (l.issued ([] : List (Action κ)) ++ (launched l).along Lagging.issued ms) landed := by
  have hfirst : l.resets ([] : List (Action κ)) < 2 ^ 64 := by
    rw [l.resets_nil]
    decide
  exact accounted_run (l.accounted [] hfirst) (l.ledger []) ms (bound_launched l hresets)

end Lagging

/-- The events that are published after a reset are those of the verdicts that are told then
and say that their query counts.  The queries issued before it are the first so many, and of
the verdicts about them that say so just those are told or stay untold that were untold at
the reset.  So where there were none, every event is that of a query issued after it. -/
theorem told_after_reset (l : Launch) (before after : List (Move κ)) (c : Command)
    (hreset : c.resets ((Lagging.launched l).run before).service.state = true)
    (hresets : (Lagging.launched l).resets (before ++ .act (.command c) :: after) < 2 ^ 64) :
    let d := (Lagging.launched l).run before
    let e := d.step (.act (.command c))
    let n := d.service.world.issued
    (∀ f ∈ l.issued ([] : List (Action κ)) ++ (Lagging.launched l).along Lagging.issued before,
        f.number ≤ n) ∧
      (∀ f ∈ e.along Lagging.issued after, n < f.number) ∧
      (e.along Lagging.published after).map (·.id) =
        ((e.along Lagging.told after).filter (·.counts)).map (·.flight.id) ∧
      ((e.along Lagging.told after ++ (e.run after).untold).filter (·.isOld n)).Perm
        (d.untold.filter (·.isOld n)) ∧
      ((∀ v ∈ d.untold, v.counts = false) →
        ∀ v ∈ e.along Lagging.told after, v.counts = true → n < v.flight.number) := by
  intro d e n
  have hsplit := hresets
  rw [Lagging.resets_append] at hsplit
  obtain ⟨haccounted, _, hledger⟩ := Lagging.accounted_launched l before (by omega)
  obtain ⟨_, _, hwhole⟩ := Lagging.accounted_launched l _ hresets
  rw [Lagging.along_append, ← List.append_assoc] at hwhole
  -- the reset and what comes after it have cycles left
  have hbound : d.service.view.cycle.toNat +
      d.resets (.act (.command c) :: after) < 2 ^ 64 :=
    (Lagging.launched l).bound_run before _ (Lagging.bound_launched l hresets)
  have hopens : d.opens (.act (.command c)) = true := hreset
  have hleft : d.service.view.cycle.toNat + 1 < 2 ^ 64 := by
    rw [Lagging.resets, if_pos hopens] at hbound
    omega
  have hbehind : Behind n e.service.view := by
    show Behind n (d.step (.act (.command c))).service.view
    rw [Lagging.view_act]
    exact Behind.of_resets haccounted hreset hleft
  have hold := Lagging.old_run hbehind after (d.bound_run [.act (.command c)] after hbound)
  have huntold : e.untold = d.untold := rfl
  rw [huntold] at hold
  refine ⟨fun f hf => hledger.number_le hf, ?_, e.ids_published after, hold, ?_⟩
  · intro f hf
    have hlt := hwhole.lt_number (List.mem_append_right _ hf)
    rw [← hledger.count] at hlt
    exact hlt
  · intro hnone v hv hcounts
    by_contra hle
    have hvold : v.isOld n = true := by simpa [Verdict.isOld, hcounts] using hle
    have hmem : v ∈ d.untold.filter (·.isOld n) :=
      hold.mem_iff.mp (List.mem_filter.mpr ⟨List.mem_append_left _ hv, hvold⟩)
    have hbefore := hnone v (List.mem_filter.mp hmem).1
    rw [hcounts] at hbefore
    cases hbefore

/-- Of two queries that a reset discards, the one that was decided upon is published. -/
theorem told_after_reset_of_decided :
    let before : List (Move Unit) :=
      [.act (.command .start), .act (.command .dropCycle), .act (.tick 2),
        .act (.answer 1 (.error .timeout))]
    let after : List (Move Unit) := [.tell 0, .act (.answer 0 (.error .timeout)), .tell 0]
    let d := (Lagging.launched .standard).run before
    Command.resets d.service.state .dropCycle = true ∧
      (Lagging.launched .standard).resets (before ++ .act (.command .dropCycle) :: after) <
        2 ^ 64 ∧
      ((d.step (.act (.command .dropCycle))).along Lagging.published after).map (·.id) =
        [.ofNat 2] := by
  intro before after d
  have hreset : Command.resets d.service.state .dropCycle = true := by decide
  have hresets : (Lagging.launched .standard).resets
      (before ++ .act (.command .dropCycle) :: after) < 2 ^ 64 := by decide
  refine ⟨hreset, hresets, ?_⟩
  have htold := told_after_reset .standard before after .dropCycle hreset hresets
  rw [htold.2.2.1]
  decide

/-- It is not so that nothing is published after a reset of the queries issued before it. -/
theorem published_after_reset :
    ¬ ∀ (l : Launch) (before after : List (Move Unit)) (c : Command),
      c.resets ((Lagging.launched l).run before).service.state = true →
        ∀ id ∈ (l.issued ([] : List (Action Unit)) ++
            (Lagging.launched l).along Lagging.issued before).map (·.id),
          id ∉ ((((Lagging.launched l).run before).step (.act (.command c))).along
            Lagging.published after).map (·.id) := by
  intro h
  let before : List (Move Unit) := [.act (.command .start), .act (.answer 0 (.error .timeout))]
  have hissued : QueryId.ofNat 1 ∈ (Launch.standard.issued ([] : List (Action Unit)) ++
      (Lagging.launched .standard).along Lagging.issued before).map (·.id) := by
    decide
  exact h .standard before [.tell 0] .dropCycle (by decide) (.ofNat 1) hissued (by decide)

end Polling
end SearchPolling
