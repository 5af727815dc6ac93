import SearchPolling.Proofs.Timers.Generation

/-!
# The effective timer

A timer that was stopped may still tick, for it may have been woken before.  Such a
tick changes nothing.  Of all timers that were ever armed, only the one that was armed
last has an effect, and only while polling is active; so nothing is issued between a
stop and the next start.
-/

namespace SearchPolling
namespace Polling

variable {κ : Type} [DecidableEq κ]

namespace Service

/-- A tick of an obsolete timer changes nothing: its loop, which ends, has left the
service before. -/
theorem step_tick_obsolete {s : Service κ} (h : Held s.view) {g : UInt64}
    (hobsolete : s.state.generation ≠ g ∨ s.state.record.active = false) :
    s.step (.tick g) = s := by
  have hnone : s.state.tick g = none := (tick_eq_none_iff _ _).mpr hobsolete
  have hrunning (t : Timer) (ht : t ∈ s.timers) : t.generation ≠ g := by
    have hmem : t.generation ∈ s.view.running := List.mem_map_of_mem ht
    rw [← h.filter_running hobsolete] at hmem
    simpa using (List.mem_filter.mp hmem).2
  have htimers : s.timers.filter (fun t => t.generation ≠ g) = s.timers := by
    rw [List.filter_eq_self]
    intro t ht
    simpa using hrunning t ht
  have htick : Engine.tick s.placed g =
      ⟨{ s.placed.engine with timers := s.timers.filter fun t => t.generation ≠ g },
        s.world⟩ := by
    simp only [Engine.tick, hnone]
    rfl
  rw [step, htick, htimers]

omit [DecidableEq κ] in
theorem issued_tick_obsolete {s : Service κ} {g : UInt64}
    (hobsolete : s.state.generation ≠ g ∨ s.state.record.active = false) :
    (s.marks (.tick g)).issued = [] := by
  have hnone : s.state.tick g = none := (tick_eq_none_iff _ _).mpr hobsolete
  simp only [marks, effects, hnone, Footprint.of_disarm, Surroundings.nextFlights_nil]

theorem running_tick_current {s : Service κ} (h : Held s.view)
    (hactive : s.state.record.active = true) :
    (s.step (.tick s.state.generation)).view.running = [s.state.generation] := by
  have hrunning : s.view.running = [s.state.generation] := by
    rw [h.running_eq, h.timer_eq]
    have hview : s.view.active = true := hactive
    rw [hview]
    rfl
  cases s.turn (.tick s.state.generation) with
  | quiet hview _ => rw [hview, hrunning]
  | ticked _ _ hview _ =>
      rw [hview]
      exact hrunning
  | obsolete generation haction hobsolete _ _ =>
      obtain rfl := Action.tick.inj haction
      simp [hactive] at hobsolete
  | started haction _ _ _ => cases haction
  | stopped _ hmarks => exact absurd (congrArg Marks.disposes hmarks) Bool.false_ne_true
  | reset _ _ hmarks => exact absurd (congrArg Marks.disposes hmarks) Bool.false_ne_true
  | answered _ _ _ hmarks => exact absurd (congrArg Marks.landed hmarks) (List.cons_ne_nil _ _).symm

/-- While polling is stopped, nothing but a start issues a query or resumes polling. -/
theorem idle_step {s : Service κ} (hstopped : s.state.record.active = false) {a : Action κ}
    (hstart : a ≠ .command .start) :
    (s.marks a).issued = [] ∧ (s.step a).state.record.active = false := by
  have hactive : (s.step a).state.record.active = (s.step a).view.active := rfl
  rw [hactive]
  cases s.turn a with
  | quiet hview hmarks =>
      rw [hview, hmarks]
      exact ⟨rfl, hstopped⟩
  | obsolete _ _ _ hview hmarks =>
      rw [hview, hmarks]
      exact ⟨rfl, hstopped⟩
  | ticked _ hpolling _ _ =>
      rw [hstopped] at hpolling
      cases hpolling
  | started haction _ _ _ => exact absurd haction hstart
  | stopped hview hmarks =>
      rw [hview, hmarks]
      exact ⟨rfl, rfl⟩
  | reset hpolling _ _ =>
      rw [hstopped] at hpolling
      cases hpolling
  | answered _ _ hview hmarks =>
      rw [hview, hmarks]
      exact ⟨rfl, hstopped⟩

/-- While polling is stopped, no query is issued until the next start. -/
theorem idle_run {s : Service κ} (hstopped : s.state.record.active = false)
    (as : List (Action κ)) (hstart : .command .start ∉ as) :
    along (fun s a => (s.marks a).issued) s as = [] := by
  induction as generalizing s with
  | nil => rfl
  | cons a as ih =>
      rw [List.mem_cons, not_or] at hstart
      obtain ⟨hissued, hstill⟩ := idle_step hstopped (Ne.symm hstart.1)
      rw [along, hissued, ih hstill hstart.2]
      rfl

/-- A stop issues nothing, and polling is stopped after it. -/
theorem step_stop (s : Service κ) (persist : Bool) :
    (s.marks (.command (.stop persist))).issued = [] ∧
      (s.step (.command (.stop persist))).state.record.active = false := by
  constructor
  · cases s.turn (.command (.stop persist)) with
    | ticked haction _ _ _ => cases haction
    | started haction _ _ _ => cases haction
    | quiet _ hmarks => rw [hmarks]
    | obsolete _ _ _ _ hmarks => rw [hmarks]
    | stopped _ hmarks => rw [hmarks]
    | reset _ _ hmarks => rw [hmarks]
    | answered _ _ _ hmarks => rw [hmarks]
  · rw [state_step]
    cases persist <;> rfl

end Service

/-- Polling is active if and only if a timer is held.  No two timers that were ever
armed have the same generation; while polling is active the current generation is that
of the timer that was armed last, and otherwise of none.  The tick of any other timer,
or of any timer at all while polling is stopped, changes nothing whatever and ends the
loop of its timer, and the tick of the timer that is held does not.  So no query is
issued between a stop and the next start. -/
theorem single_effective_timer (l : Launch) (as : List (Action κ))
    (hdisposals : l.disposals as < 2 ^ 64) :
    ((l.run as).state.record.active = true ↔ (l.run as).state.timer.isSome = true) ∧
      (l.armed as).Nodup ∧
      ((l.run as).state.record.active = true →
        (l.run as).state.timer = some (l.run as).state.generation ∧
        (l.armed as).getLast? = some (l.run as).state.generation) ∧
      ((l.run as).state.record.active = false → (l.run as).state.generation ∉ l.armed as) ∧
      (∀ g, (l.run as).state.generation ≠ g ∨ (l.run as).state.record.active = false →
        (l.run as).state.tick g = none ∧
        (l.run as).step (.tick g) = l.run as ∧
        ((l.run as).marks (.tick g)).issued = [] ∧
        g ∉ ((l.run as).step (.tick g)).timers.map (·.generation)) ∧
      ((l.run as).state.record.active = true →
        ((l.run as).state.tick (l.run as).state.generation).isSome = true ∧
        ((l.run as).step (.tick (l.run as).state.generation)).timers.map (·.generation) =
          [(l.run as).state.generation]) ∧
      ∀ persist bs, .command .start ∉ bs →
        l.issued (as ++ .command (.stop persist) :: bs) = l.issued as := by
  have hheld := l.held as
  have harmory := l.armory as hdisposals
  have htimer : (l.run as).state.timer =
      if (l.run as).state.record.active then some (l.run as).state.generation else none :=
    hheld.timer_eq
  refine ⟨?_, ?_, ?_, harmory.fresh, ?_, ?_, ?_⟩
  · rw [htimer]
    cases (l.run as).state.record.active <;> simp
  · exact harmory.rising.imp UInt64.ne_of_lt
  · intro hactive
    refine ⟨?_, harmory.last hactive⟩
    rw [htimer, if_pos hactive]
  · intro g hobsolete
    have hsame := Service.step_tick_obsolete hheld hobsolete
    refine ⟨(Service.tick_eq_none_iff _ _).mpr hobsolete, hsame,
      Service.issued_tick_obsolete hobsolete, ?_⟩
    rw [hsame]
    intro hrunning
    obtain ⟨hactive, rfl⟩ := hheld.mem_running.mp hrunning
    rcases hobsolete with hgeneration | hstopped
    · exact hgeneration rfl
    · exact Bool.false_ne_true (hstopped.symm.trans hactive)
  · intro hactive
    refine ⟨?_, Service.running_tick_current hheld hactive⟩
    rw [Option.isSome_iff_ne_none, ne_eq, Service.tick_eq_none_iff]
    simp [hactive]
  · intro persist bs hstart
    obtain ⟨hissued, hstopped⟩ := (l.run as).step_stop persist
    rw [Launch.issued, l.along_append, Service.along, hissued,
      Service.idle_run hstopped bs hstart]
    simp [Launch.issued]

/-- The timer of a first start changes nothing any more after a stop and a second start. -/
theorem tick_obsolete_after_restart :
    let as : List (Action Unit) := [.command .start, .command (.stop true), .command .start]
    Launch.standard.disposals as < 2 ^ 64 ∧
      Launch.standard.armed as = [1, 3] ∧
      (Launch.standard.run as).step (.tick 1) = Launch.standard.run as ∧
      ((Launch.standard.run as).step (.tick 3)).timers.map (·.generation) = [3] := by
  intro as
  have hdisposals : Launch.standard.disposals as < 2 ^ 64 := by decide
  obtain ⟨-, -, -, -, hobsolete, hcurrent, -⟩ :=
    single_effective_timer Launch.standard as hdisposals
  exact ⟨hdisposals, rfl, (hobsolete 1 (Or.inl (by decide))).2.1, (hcurrent rfl).2⟩

end Polling
end SearchPolling
