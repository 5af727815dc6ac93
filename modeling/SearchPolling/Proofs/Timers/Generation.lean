import SearchPolling.Proofs.Service.Launch

/-!
# Timers and their generations

The timer that is held bears the current generation, and its loop is the only one that
goes on; this needs no bound.  As long as the generations have not come round, they
rise with every timer that is armed, so that a generation tells apart all timers that
there ever were.
-/

namespace SearchPolling
namespace Polling

/-- A timer of the current generation is held while polling is active, and the loop of
no other timer goes on. -/
structure Held (v : View) : Prop where
  timer_eq : v.timer = if v.active then some v.generation else none
  running_eq : v.running = v.timer.toList

namespace Held

variable {v : View}

theorem mem_running (h : Held v) {g : UInt64} :
    g ∈ v.running ↔ v.active = true ∧ g = v.generation := by
  rw [h.running_eq, h.timer_eq]
  cases v.active <;> simp

/-- The loop of the timer that is held does not survive its disposal. -/
theorem running_dispose (h : v.running = v.timer.toList) : v.dispose.running = [] := by
  simp only [View.dispose, h]
  cases v.timer <;> simp

theorem dispose (h : v.running = v.timer.toList) (hstopped : v.active = false) :
    Held v.dispose where
  timer_eq := by
    have hactive : v.dispose.active = false := hstopped
    rw [hactive]
    rfl
  running_eq := running_dispose h

theorem arm (h : v.running = v.timer.toList) (hactive : v.active = true) : Held v.arm where
  timer_eq := by
    have harmed : v.arm.active = true := hactive
    rw [harmed]
    rfl
  running_eq := by
    simp only [View.arm, running_dispose h]
    rfl

theorem of_same (h : Held v) {w : View} (hactive : w.active = v.active)
    (htimer : w.timer = v.timer) (hgeneration : w.generation = v.generation)
    (hrunning : w.running = v.running) : Held w where
  timer_eq := by rw [htimer, hactive, hgeneration, h.timer_eq]
  running_eq := by rw [hrunning, htimer, h.running_eq]

/-- An obsolete tick finds no loop of its own to end. -/
theorem filter_running (h : Held v) {g : UInt64}
    (hobsolete : v.generation ≠ g ∨ v.active = false) :
    v.running.filter (· ≠ g) = v.running := by
  rw [List.filter_eq_self]
  intro x hx
  obtain ⟨hactive, rfl⟩ := h.mem_running.mp hx
  -- A loop that goes on is of the current generation, and polling is active then.
  rcases hobsolete with hgeneration | hstopped
  · simpa using hgeneration
  · rw [hactive] at hstopped
    cases hstopped

end Held

/-- The timers that were armed, in their order, have rising generations.  None is of a
later generation than the current one, and the one that is held was armed last. -/
structure Armory (v : View) (armed : List UInt64) : Prop where
  rising : armed.Pairwise (· < ·)
  le : ∀ g ∈ armed, g ≤ v.generation
  last : v.active = true → armed.getLast? = some v.generation
  fresh : v.active = false → v.generation ∉ armed

namespace Armory

variable {v : View} {armed : List UInt64}

theorem lt_next (h : Armory v armed) (hgeneration : v.generation.toNat + 1 < 2 ^ 64)
    {g : UInt64} (hg : g ∈ armed) : g < v.generation + 1 := by
  have hnext := Service.toNat_advance (n := v.generation) (b := true) hgeneration
  have hle := UInt64.le_iff_toNat_le.mp (h.le g hg)
  rw [UInt64.lt_iff_toNat_lt]
  simp only [if_true] at hnext
  omega

/-- A disposal leaves all timers behind. -/
theorem dispose (h : Armory v armed) (hgeneration : v.generation.toNat + 1 < 2 ^ 64) :
    Armory { v with active := false }.dispose armed where
  rising := h.rising
  le := fun _ hg => UInt64.le_of_lt (h.lt_next hgeneration hg)
  last := fun hactive => nomatch hactive
  fresh := fun _ hg => UInt64.lt_irrefl _ (h.lt_next hgeneration hg)

/-- The timer that is armed next is of a later generation than all before it. -/
theorem arm (h : Armory v armed) (hgeneration : v.generation.toNat + 1 < 2 ^ 64) :
    Armory { v with active := true }.arm (armed ++ [v.generation + 1]) where
  rising := by
    rw [List.pairwise_append]
    refine ⟨h.rising, List.pairwise_singleton _ _, ?_⟩
    intro g hg x hx
    rw [List.mem_singleton.mp hx]
    exact h.lt_next hgeneration hg
  le := by
    intro g hg
    rcases List.mem_append.mp hg with hold | hnew
    · exact UInt64.le_of_lt (h.lt_next hgeneration hold)
    · exact UInt64.le_of_eq (List.mem_singleton.mp hnew)
  last := fun _ => List.getLast?_concat
  fresh := fun hstopped => nomatch hstopped

theorem of_same (h : Armory v armed) {w : View} (hactive : w.active = v.active)
    (hgeneration : w.generation = v.generation) : Armory w armed where
  rising := h.rising
  le := hgeneration ▸ h.le
  last := by
    rw [hactive, hgeneration]
    exact h.last
  fresh := by
    rw [hactive, hgeneration]
    exact h.fresh

end Armory

variable {κ : Type} [DecidableEq κ]

namespace Service

/-- Every step leaves the timer held that should be. -/
theorem held_step {s : Service κ} (h : Held s.view) (a : Action κ) : Held (s.step a).view := by
  cases s.turn a with
  | quiet hview _ =>
      rw [hview]
      exact h
  | obsolete generation _ hobsolete hview _ =>
      rw [hview]
      exact h.of_same rfl rfl rfl (h.filter_running hobsolete)
  | ticked _ _ hview _ =>
      rw [hview]
      exact h.of_same rfl rfl rfl rfl
  | started _ _ hview _ =>
      rw [hview]
      exact .arm h.running_eq rfl
  | stopped hview _ =>
      rw [hview]
      exact .dispose h.running_eq rfl
  | reset hactive hview _ =>
      rw [hview]
      exact .arm h.running_eq hactive
  | answered f _ hview _ =>
      rw [hview]
      exact h.of_same rfl rfl rfl rfl

/-- Every step keeps the armory while there are generations left. -/
theorem armory_step {s : Service κ} {armed : List UInt64} (h : Armory s.view armed)
    (a : Action κ)
    (hgeneration : (s.marks a).disposes = true → s.view.generation.toNat + 1 < 2 ^ 64) :
    Armory (s.step a).view (armed ++ (s.marks a).armed) := by
  cases s.turn a with
  | quiet hview hmarks =>
      rw [hview, hmarks, List.append_nil]
      exact h
  | obsolete generation _ _ hview hmarks =>
      rw [hview, hmarks, List.append_nil]
      exact h.of_same rfl rfl
  | ticked _ _ hview hmarks =>
      rw [hview, hmarks, List.append_nil]
      exact h.of_same rfl rfl
  | started _ _ hview hmarks =>
      rw [hview, hmarks]
      exact (h.arm (hgeneration (by rw [hmarks]))).of_same rfl rfl
  | stopped hview hmarks =>
      rw [hview, hmarks, List.append_nil]
      exact h.dispose (hgeneration (by rw [hmarks]))
  | reset hactive hview hmarks =>
      rw [hview, hmarks]
      exact (h.arm (hgeneration (by rw [hmarks]))).of_same hactive rfl
  | answered f _ hview hmarks =>
      rw [hview, hmarks, List.append_nil]
      exact h.of_same rfl rfl

/-- A run keeps the armory while there are generations left. -/
theorem armory_run {s : Service κ} {armed : List UInt64} (h : Armory s.view armed)
    (as : List (Action κ))
    (hgeneration :
      s.view.generation.toNat + tally (fun s a => (s.marks a).disposes) s as < 2 ^ 64) :
    Armory (s.run as).view (armed ++ along (fun s a => (s.marks a).armed) s as) :=
  run_preserves_bounded (P := fun s armed => Armory s.view armed)
    (n := (·.view.generation)) generation_step
    (fun _ a _ hs hgeneration => armory_step hs a hgeneration) h as hgeneration

end Service

namespace Launch

/-- From the launch on the timer is held that should be. -/
theorem held_opened_run (l : Launch) (as : List (Action κ)) : Held (l.opened.run as).view := by
  have hopened : Held (l.opened : Service κ).view := by
    rw [view_opened]
    exact ⟨rfl, rfl⟩
  exact Service.run_preserves (P := fun s => Held s.view) (fun s a h => s.held_step h a)
    hopened as

/-- In every reachable service the timer is held that should be. -/
theorem held (l : Launch) (as : List (Action κ)) : Held (l.run as).view :=
  l.held_opened_run (l.course as)

theorem armory (l : Launch) (as : List (Action κ)) (hdisposals : l.disposals as < 2 ^ 64) :
    Armory (l.run as).view (l.armed as) := by
  have hopened : Armory (l.opened : Service κ).view [] := by
    rw [view_opened]
    exact ⟨.nil, by simp, (fun h => nomatch h), by simp⟩
  have hgeneration : (l.opened : Service κ).view.generation.toNat + l.disposals as < 2 ^ 64 := by
    rw [view_opened]
    simpa [View.fresh] using hdisposals
  exact Service.armory_run hopened (l.course as) hgeneration

end Launch
end Polling
end SearchPolling
