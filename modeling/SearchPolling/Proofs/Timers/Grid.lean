import Mathlib.Data.List.Induction
import Mathlib.Data.List.Infix
import Mathlib.Data.List.Sort
import SearchPolling.Proofs.Timers.Clockwork
import SearchPolling.Proofs.Timers.Generation
import SearchPolling.Proofs.Timers.Periods

/-!
# The grid of a timer

A timer should be acted on at the multiples of its period, counted from its arming.  Time may
pass in steps of any size, and the timer gets its turn whenever it may be; a turn before it is
due it lets pass.  So it is acted on at most once from one point of its grid to the next, a turn
that comes late makes up for all that it missed, and the timer is due again at the next point of
the grid: it neither drifts nor catches up.  A timer that gets its turn at every point is acted
on at exactly those points.

All of this holds as long as the timer is held.  What else happens meanwhile does not matter.
-/

namespace SearchPolling
namespace Polling

/-- The points of time that lie whole periods after the start. -/
structure Grid where
  start : Nat
  period : Nat

namespace Grid

def point (w : Grid) (k : Nat) : Nat :=
  w.start + k * w.period

/-- The number of the last point up to a time. -/
def slot (w : Grid) (t : Nat) : Nat :=
  (t - w.start) / w.period

variable {w : Grid}

theorem point_le_iff (hp : 0 < w.period) {k t : Nat} (ht : w.start ≤ t) :
    w.point k ≤ t ↔ k ≤ w.slot t := by
  rw [point, slot, Nat.le_div_iff_mul_le hp]
  omega

theorem start_le_of_slot {k t : Nat} (hk : 1 ≤ k) (h : k ≤ w.slot t) : w.start ≤ t := by
  by_contra hearly
  have hnone : t - w.start = 0 := by omega
  rw [slot, hnone, Nat.zero_div] at h
  omega

theorem point_slot_le (hp : 0 < w.period) {t : Nat} (ht : w.start ≤ t) :
    w.point (w.slot t) ≤ t :=
  (point_le_iff hp ht).mpr (Nat.le_refl _)

theorem lt_point_succ (hp : 0 < w.period) {t : Nat} (ht : w.start ≤ t) :
    t < w.point (w.slot t + 1) := by
  rw [← Nat.not_le, point_le_iff hp ht]
  omega

theorem slot_point (hp : 0 < w.period) (k : Nat) : w.slot (w.point k) = k := by
  rw [slot, point, Nat.add_sub_cancel_left, Nat.mul_div_cancel _ hp]

/-- From a point of the grid to the next the slot is that of the point. -/
theorem slot_eq_of_window (hp : 0 < w.period) {k t : Nat} (hk : w.point k ≤ t)
    (hnext : t < w.point (k + 1)) : w.slot t = k := by
  have ht : w.start ≤ t := Nat.le_trans (Nat.le_add_right _ _) hk
  apply Nat.le_antisymm
  · rw [← Nat.not_le, point_le_iff hp ht] at hnext
    omega
  · exact (point_le_iff hp ht).mp hk

/-- A timer of the grid that is acted on is due at the next point, however many it missed. -/
theorem acted (hp : 0 < w.period) {generation : UInt64} {k now : Nat} (hdue : w.point k ≤ now) :
    (Timer.mk generation w.period (w.point k)).acted now =
      ⟨generation, w.period, w.point (w.slot now + 1)⟩ := by
  have hstart : w.start ≤ now := Nat.le_trans (Nat.le_add_right _ _) hdue
  have hslot : k ≤ w.slot now := (point_le_iff hp hstart).mp hdue
  have hmissed : (now - w.point k) / w.period = w.slot now - k := by
    rw [point, ← Nat.sub_sub, Nat.mul_comm, Nat.sub_mul_div, slot]
  have hnext : w.point k + w.period * (w.slot now - k + 1) = w.point (w.slot now + 1) := by
    rw [point, point, Nat.mul_comm w.period, Nat.add_assoc, ← Nat.add_mul, ← Nat.add_assoc,
      Nat.add_sub_of_le hslot]
  simp only [Timer.acted, hmissed, hnext]

/-- Times of which each lies in a later slot than the one before it, and none before the first
point. -/
structure Spaced (w : Grid) (ts : List Nat) : Prop where
  rising : (ts.map w.slot).Pairwise (· < ·)
  one_le : ∀ t ∈ ts, 1 ≤ w.slot t

namespace Spaced

variable {ts : List Nat}

theorem concat (h : w.Spaced ts) {t : Nat} (hone : 1 ≤ w.slot t)
    (hlater : ∀ u ∈ ts, w.slot u < w.slot t) : w.Spaced (ts ++ [t]) where
  rising := by
    rw [List.map_append, List.pairwise_append]
    refine ⟨h.rising, List.pairwise_singleton _ _, ?_⟩
    intro j hj k hk
    obtain ⟨u, hu, rfl⟩ := List.mem_map.mp hj
    rw [List.mem_singleton.mp hk]
    exact hlater u hu
  one_le := by
    intro u hu
    rcases List.mem_append.mp hu with hold | hnew
    · exact h.one_le u hold
    · rw [List.mem_singleton.mp hnew]
      exact hone

theorem first_le (h : w.Spaced ts) (hp : 0 < w.period) {t : Nat} (ht : t ∈ ts) :
    w.point 1 ≤ t := by
  have hone := h.one_le t ht
  exact (point_le_iff hp (start_le_of_slot (Nat.le_refl 1) hone)).mpr hone

theorem one_per_window (h : w.Spaced ts) (hp : 0 < w.period) (k : Nat) :
    ts.countP (fun t => w.point k ≤ t ∧ t < w.point (k + 1)) ≤ 1 := by
  have hnodup : (ts.map w.slot).Nodup := h.rising.imp Nat.ne_of_lt
  calc ts.countP (fun t => w.point k ≤ t ∧ t < w.point (k + 1))
      ≤ ts.countP (fun t => w.slot t = k) := by
        apply List.countP_mono_left
        intro t _ hwindow
        obtain ⟨hk, hnext⟩ := of_decide_eq_true hwindow
        exact decide_eq_true (slot_eq_of_window hp hk hnext)
    _ = (ts.map w.slot).count k := by
        rw [List.count, List.countP_map]
        rfl
    _ ≤ 1 := List.nodup_iff_count_le_one.mp hnodup k

/-- Up to a time there are no more of them than points. -/
theorem countP_le (h : w.Spaced ts) (t : Nat) : ts.countP (· ≤ t) ≤ w.slot t := by
  have hsublist : ((ts.filter (· ≤ t)).map w.slot).Sublist (ts.map w.slot) :=
    List.filter_sublist.map w.slot
  have hnodup : ((ts.filter (· ≤ t)).map w.slot).Nodup :=
    (h.rising.imp Nat.ne_of_lt).sublist hsublist
  have hslots : (ts.filter (· ≤ t)).map w.slot ⊆ List.range' 1 (w.slot t) := by
    intro k hk
    obtain ⟨u, hu, rfl⟩ := List.mem_map.mp hk
    obtain ⟨hmem, hle⟩ := List.mem_filter.mp hu
    have hone := h.one_le u hmem
    have hmono : w.slot u ≤ w.slot t :=
      Nat.div_le_div_right (Nat.sub_le_sub_right (of_decide_eq_true hle) _)
    rw [List.mem_range'_1]
    omega
  have hfew := (List.subperm_of_subset hnodup hslots).length_le
  rwa [List.length_map, List.length_range', ← List.countP_eq_length_filter] at hfew

/-- If all points up to a time are among them, and none is later, they are these points. -/
theorem eq_points (h : w.Spaced ts) (hp : 0 < w.period) {now : Nat} (hpast : ∀ t ∈ ts, t ≤ now)
    (hall : ∀ k, 1 ≤ k → w.point k ≤ now → w.point k ∈ ts) :
    ts = (List.range' 1 (w.slot now)).map w.point := by
  have hpoint (t : Nat) (ht : t ∈ ts) : w.point (w.slot t) = t := by
    have hone := h.one_le t ht
    have hle := point_slot_le hp (start_le_of_slot (Nat.le_refl 1) hone)
    have hmem := hall _ hone (Nat.le_trans hle (hpast t ht))
    -- The point and the time are in the same slot, of which there is one.
    exact List.inj_on_of_nodup_map (h.rising.imp Nat.ne_of_lt) hmem ht (slot_point hp _)
  have hslots : ts.map w.slot = List.range' 1 (w.slot now) := by
    apply h.rising.eq_of_mem_iff List.pairwise_lt_range'
    intro k
    rw [List.mem_range'_1, List.mem_map]
    constructor
    · rintro ⟨t, ht, rfl⟩
      have hmono : w.slot t ≤ w.slot now :=
        Nat.div_le_div_right (Nat.sub_le_sub_right (hpast t ht) _)
      have hone := h.one_le t ht
      omega
    · rintro ⟨hone, hlt⟩
      have hle : k ≤ w.slot now := by omega
      have hpassed : w.point k ≤ now := (point_le_iff hp (start_le_of_slot hone hle)).mpr hle
      exact ⟨w.point k, hall k hone hpassed, slot_point hp k⟩
  calc ts = ts.map (fun t => w.point (w.slot t)) := by
        conv_lhs => rw [← List.map_id ts]
        exact List.map_congr_left fun t ht => (hpoint t ht).symm
    _ = (ts.map w.slot).map w.point := by
        rw [List.map_map]
        rfl
    _ = (List.range' 1 (w.slot now)).map w.point := by rw [hslots]

end Spaced
end Grid

namespace Service

variable {κ : Type}

/-! ## Turns of timers -/

/-- Whether an action is the turn of a timer that is not due yet. -/
def isEarly (s : Service κ) : Action κ → Bool
  | .tick generation => s.timers.any fun t => t.generation = generation ∧ s.world.now < t.due
  | _ => false

theorem exists_tick_of_ticked {s : Service κ} {a : Action κ} (h : s.ticked a ≠ []) :
    ∃ c, a = .tick s.state.generation ∧ s.state.tick s.state.generation = some c ∧
      s.ticked a = [s.world.now] := by
  cases a with
  | tick generation =>
      cases htick : s.state.tick generation with
      | none => simp [ticked, htick] at h
      | some c =>
          have hcurrent : ¬(s.state.generation ≠ generation ∨ s.state.record.active = false) := by
            rw [← tick_eq_none_iff, htick]
            exact Option.some_ne_none c
          obtain rfl := Decidable.not_not.mp (not_or.mp hcurrent).1
          exact ⟨c, rfl, htick, by simp [ticked, htick]⟩
  | _ => exact absurd rfl h

/-- The timer that is held is the only one. -/
theorem timers_of_held {s : Service κ} (h : Held s.view) {generation : UInt64}
    (htimer : s.state.timer = some generation) :
    s.state.generation = generation ∧ ∃ t, s.timers = [t] ∧ t.generation = generation := by
  have heq : s.state.timer = if s.state.record.active then some s.state.generation else none :=
    h.timer_eq
  have hrunning : s.timers.map (·.generation) = s.state.timer.toList := h.running_eq
  rw [htimer] at heq hrunning
  constructor
  · split at heq
    · exact (Option.some.inj heq).symm
    · cases heq
  · obtain ⟨t, hsingle, hgeneration⟩ := List.map_eq_singleton_iff.mp hrunning
    exact ⟨t, hsingle, hgeneration⟩

variable [DecidableEq κ]

/-- What takes place of actions: a timer that gets its turn before it is due goes on
waiting. -/
def onTime (s : Service κ) : List (Action κ) → List (Action κ)
  | [] => []
  | a :: as => if s.isEarly a then s.onTime as else a :: (s.step a).onTime as

theorem onTime_append (s : Service κ) (as bs : List (Action κ)) :
    s.onTime (as ++ bs) = s.onTime as ++ (s.run (s.onTime as)).onTime bs := by
  induction as generalizing s with
  | nil => rfl
  | cons a as ih =>
      simp only [List.cons_append, onTime]
      split
      · exact ih s
      · rw [ih, List.cons_append, run_cons]

/-- Time does not go back. -/
theorem now_le_step (s : Service κ) (a : Action κ) : s.world.now ≤ (s.step a).world.now := by
  rw [world, world, step_placed, Engine.performAll_now]
  cases a with
  | command c =>
      simp only [base]
      split <;> exact Nat.le_refl _
  | tick generation =>
      simp only [base]
      split <;> exact Nat.le_refl _
  | answer place result =>
      simp only [base]
      split <;> exact Nat.le_refl _
  | claim place =>
      simp only [base]
      split <;> exact Nat.le_refl _
  | receive name most =>
      simp only [base, step]
      split <;> exact Nat.le_refl _
  | elapse ms => exact Nat.le_add_right _ _
  | _ => exact Nat.le_refl _

/-! ## The timers after a step -/

theorem timers_base {s : Service κ} {a : Action κ} (h : s.ticked a = []) :
    (s.base a).engine.timers = s.timers := by
  cases a with
  | command c =>
      simp only [base]
      split <;> rfl
  | tick generation =>
      have hnone : s.state.tick generation = none := by simpa [ticked] using h
      simp only [base, hnone]
  | answer place result =>
      simp only [base]
      split <;> rfl
  | claim place =>
      simp only [base]
      split <;> rfl
  | receive name most =>
      simp only [base, step]
      split <;> rfl
  | _ => rfl

/-- While a timer is held, effects neither arm another nor stop it. -/
theorem timers_step {s : Service κ} (h : Held s.view) {a : Action κ} {generation : UInt64}
    (htimer : s.state.timer = some generation)
    (hstays : (s.step a).state.timer = some generation) {t : Timer}
    (ht : (s.base a).engine.timers = [t]) : (s.step a).timers = [t] := by
  obtain ⟨hbefore, -⟩ := timers_of_held h htimer
  obtain ⟨hafter, u, hsingle, -⟩ := timers_of_held (held_step h a) hstays
  have hkept : (s.marks a).disposes = false := by
    have hnext := s.generation_step a
    simp only [viewOf, hbefore, hafter] at hnext
    cases hdisposes : (s.marks a).disposes with
    | false => rfl
    | true =>
        rw [hdisposes, if_pos rfl, eq_comm, UInt64.add_eq_left] at hnext
        cases hnext
  have harmed : (s.marks a).armed = [] := by
    cases s.turn a with
    | quiet _ hmarks => rw [hmarks]
    | obsolete _ _ _ _ hmarks => rw [hmarks]
    | ticked _ _ _ hmarks => rw [hmarks]
    | started _ _ _ hmarks => rw [hmarks] at hkept; cases hkept
    | stopped _ hmarks => rw [hmarks] at hkept; cases hkept
    | reset _ _ hmarks => rw [hmarks] at hkept; cases hkept
    | answered _ _ _ hmarks => rw [hmarks]
  have hu : u ∈ (Engine.performAll (s.base a) (s.effects a)).engine.timers := by
    rw [← step_placed, ← timers, hsingle]
    exact List.mem_singleton_self u
  rcases Engine.mem_timers_performAll _ hu with hbase | ⟨g, period, harm, -⟩
  · rw [ht, List.mem_singleton] at hbase
    rw [hsingle, hbase]
  · have hmem : g ∈ (s.marks a).armed := List.mem_filterMap.mpr ⟨_, harm, rfl⟩
    rw [harmed] at hmem
    cases hmem

omit [DecidableEq κ] in
theorem exists_command_of_disposes {s : Service κ} {a : Action κ}
    (h : (s.marks a).disposes = true) : ∃ c, a = .command c := by
  cases a with
  | command c => exact ⟨c, rfl⟩
  | _ => cases h

/-- No tick takes the timer away. -/
theorem timer_step_tick (s : Service κ) (generation : UInt64) :
    (s.step (.tick generation)).state.timer = s.state.timer := by
  have hview : (s.step (.tick generation)).state.timer = (s.step (.tick generation)).view.timer :=
    rfl
  rw [hview]
  cases s.turn (.tick generation) with
  | quiet hview _ =>
      rw [hview]
      rfl
  | obsolete _ _ _ hview _ =>
      rw [hview]
      rfl
  | ticked _ _ hview _ =>
      rw [hview]
      rfl
  | started haction _ _ _ => cases haction
  | stopped _ hmarks => cases congrArg Marks.disposes hmarks
  | reset _ _ hmarks => cases congrArg Marks.disposes hmarks
  | answered _ _ _ hmarks => cases congrArg Marks.landed hmarks

/-- A command that arms a timer leaves that timer and no other. -/
theorem timers_of_armed {s : Service κ} (h : Held s.view) {a : Action κ}
    {generation period : UInt64} (harm : .arm generation period ∈ s.effects a) :
    (s.step a).timers = [.armed generation period s.world.now] ∧
      (s.step a).world.now = s.world.now := by
  have hmem : generation ∈ (s.marks a).armed := List.mem_filterMap.mpr ⟨_, harm, rfl⟩
  have hrunning : generation = s.state.generation + 1 ∧
      (s.step a).view.running = [s.state.generation + 1] ∧ (s.marks a).disposes = true := by
    cases s.turn a with
    | started _ _ hview hmarks =>
        rw [hmarks] at hmem ⊢
        rw [hview]
        refine ⟨List.mem_singleton.mp hmem, ?_, rfl⟩
        exact (Held.arm (v := { s.view with active := true }.issue _) h.running_eq rfl).running_eq
    | reset hactive hview hmarks =>
        rw [hmarks] at hmem ⊢
        rw [hview]
        refine ⟨List.mem_singleton.mp hmem, ?_, rfl⟩
        exact (Held.arm (v := { s.view with cycle := _, outstanding := 0 }) h.running_eq
          hactive).running_eq
    | quiet _ hmarks => simp [hmarks] at hmem
    | obsolete _ _ _ _ hmarks => simp [hmarks] at hmem
    | ticked _ _ _ hmarks => simp [hmarks] at hmem
    | stopped _ hmarks => simp [hmarks] at hmem
    | answered _ _ _ hmarks => simp [hmarks] at hmem
  obtain ⟨hgeneration, hrunning, hdisposes⟩ := hrunning
  obtain ⟨c, rfl⟩ := exists_command_of_disposes hdisposes
  have hbase : (s.base (.command c)).engine.timers = s.timers ∧
      (s.base (.command c)).world.now = s.world.now := by
    simp only [base]
    split <;> exact ⟨rfl, rfl⟩
  obtain ⟨t, hsingle, ht⟩ := List.map_eq_singleton_iff.mp hrunning
  have hmember : t ∈
      (Engine.performAll (s.base (.command c)) (s.effects (.command c))).engine.timers := by
    rw [← step_placed, hsingle]
    exact List.mem_singleton_self t
  refine ⟨?_, by rw [world, step_placed, Engine.performAll_now, hbase.2]⟩
  rcases Engine.mem_timers_performAll _ hmember with hold | ⟨g, p, hother, rfl⟩
  · -- A timer that went on before is of the generation before.
    rw [hbase.1] at hold
    obtain ⟨-, hcurrent⟩ := h.mem_running.mp (List.mem_map_of_mem hold)
    have hround : s.state.generation + 1 = s.state.generation := ht.symm.trans hcurrent
    rw [UInt64.add_eq_left] at hround
    cases hround
  · have hgeneration : g = generation := ht.trans hgeneration.symm
    have hperiod : p = period := (period_of_armed hother).trans (period_of_armed harm).symm
    rw [timers, hsingle, hgeneration, hperiod, hbase.2]

omit [DecidableEq κ] in
/-- The timer that is held is acted on whenever it gets its turn. -/
theorem ticked_of_held {s : Service κ} (h : Held s.view) {generation : UInt64}
    (htimer : s.state.timer = some generation) :
    s.ticked (.tick generation) = [s.world.now] := by
  have heq : s.state.timer = if s.state.record.active then some s.state.generation else none :=
    h.timer_eq
  have hacts : (s.state.tick generation).isSome = true := by
    rw [Option.isSome_iff_ne_none, ne_eq, tick_eq_none_iff, not_or]
    rw [htimer] at heq
    split at heq
    · next hactive => exact ⟨(not_not.mpr (Option.some.inj heq).symm), by simp [hactive]⟩
    · cases heq
  simp only [ticked, hacts, if_true]

/-- The timer of a generation is held at every point of what takes place of actions. -/
def Retains (s : Service κ) (generation : UInt64) (as : List (Action κ)) : Prop :=
  ∀ past, past <+: as → (s.run (s.onTime past)).state.timer = some generation

end Service

/-- A timer that was armed at the start of a grid and has been acted on at given times, for the
last time in a given slot, is due at the point after it. -/
structure Tuned {κ : Type} (w : Grid) (generation : UInt64) (s : Service κ) (ts : List Nat)
    (last : Nat) : Prop where
  held : Held s.view
  timers_eq : s.timers = [⟨generation, w.period, w.point (last + 1)⟩]
  start_le : w.start ≤ s.world.now
  spaced : w.Spaced ts
  past : ∀ t ∈ ts, t ≤ s.world.now ∧ w.slot t ≤ last
  last_cases : last = 0 ∨ ∃ t ∈ ts, w.slot t = last

namespace Tuned

variable {κ : Type} {w : Grid} {generation : UInt64} {s : Service κ} {ts : List Nat} {last : Nat}

theorem timer_eq (h : Tuned w generation s ts last) : s.state.timer = some generation := by
  have hrunning : s.timers.map (·.generation) = s.state.timer.toList := h.held.running_eq
  rw [h.timers_eq] at hrunning
  exact Option.toList_eq_singleton_iff.mp hrunning.symm

theorem isEarly_iff (h : Tuned w generation s ts last) :
    s.isEarly (.tick generation) = true ↔ s.world.now < w.point (last + 1) := by
  simp [Service.isEarly, h.timers_eq]

/-- When a point has come at which the timer is not due, it has been acted on there. -/
theorem mem_of_early (h : Tuned w generation s ts last) (hp : 0 < w.period) {k : Nat}
    (hone : 1 ≤ k) (hnow : s.world.now = w.point k)
    (hearly : s.isEarly (.tick generation) = true) : w.point k ∈ ts := by
  rw [h.isEarly_iff, ← Nat.not_le, Grid.point_le_iff hp h.start_le, hnow, Grid.slot_point hp,
    Nat.not_le, Nat.lt_succ_iff] at hearly
  rcases h.last_cases with hnone | ⟨t, ht, hlast⟩
  · omega
  · have hslot : k ≤ w.slot t := hlast.symm ▸ hearly
    have hle : w.point k ≤ t :=
      (Grid.point_le_iff hp (Grid.start_le_of_slot hone hslot)).mpr hslot
    have hpast : t ≤ w.point k := hnow ▸ (h.past t ht).1
    rwa [Nat.le_antisymm hle hpast]

variable [DecidableEq κ]

omit [DecidableEq κ] in
theorem point_le_now (h : Tuned w generation s ts last)
    (hdue : s.isEarly (.tick generation) = false) : w.point (last + 1) ≤ s.world.now := by
  rw [← Nat.not_lt, ← h.isEarly_iff, hdue]
  exact Bool.false_ne_true

/-- A timer that is acted on is due at the next point of the grid after that. -/
theorem timers_tick (h : Tuned w generation s ts last) (hp : 0 < w.period)
    (hdue : s.isEarly (.tick generation) = false) :
    (s.step (.tick generation)).timers =
      [⟨generation, w.period, w.point (w.slot s.world.now + 1)⟩] := by
  have hticked := Service.ticked_of_held h.held h.timer_eq
  obtain ⟨c, haction, htick, -⟩ := Service.exists_tick_of_ticked (hticked ▸ List.cons_ne_nil _ _)
  rw [← Action.tick.inj haction] at htick
  have hstays : (s.step (.tick generation)).state.timer = some generation :=
    (s.timer_step_tick generation).trans h.timer_eq
  apply Service.timers_step h.held h.timer_eq hstays
  simp only [Service.base, htick, Engine.wind, h.timers_eq, List.map_singleton, if_true]
  rw [Grid.acted hp (h.point_le_now hdue)]

/-- A turn of the timer when it is due keeps it in tune. -/
theorem tick (h : Tuned w generation s ts last) (hp : 0 < w.period)
    (hdue : s.isEarly (.tick generation) = false) :
    Tuned w generation (s.step (.tick generation)) (ts ++ [s.world.now])
      (w.slot s.world.now) := by
  have hlater : last + 1 ≤ w.slot s.world.now :=
    (Grid.point_le_iff hp h.start_le).mp (h.point_le_now hdue)
  have hnow := s.now_le_step (.tick generation)
  refine ⟨Service.held_step h.held _, h.timers_tick hp hdue, Nat.le_trans h.start_le hnow, ?_, ?_,
    Or.inr ⟨_, List.mem_concat_self, rfl⟩⟩
  · apply h.spaced.concat
    · omega
    · intro t ht
      exact Nat.lt_of_le_of_lt (h.past t ht).2 hlater
  · intro t ht
    rcases List.mem_append.mp ht with hold | hnew
    · have hpast := h.past t hold
      exact ⟨Nat.le_trans hpast.1 hnow, by omega⟩
    · rw [List.mem_singleton.mp hnew]
      exact ⟨hnow, Nat.le_refl _⟩

/-- What takes place keeps the timer in tune as long as it is held. -/
theorem step (h : Tuned w generation s ts last) (hp : 0 < w.period) {a : Action κ}
    (hdue : s.isEarly a = false) (hstays : (s.step a).state.timer = some generation) :
    ∃ next, Tuned w generation (s.step a) (ts ++ s.ticked a) next := by
  by_cases hticked : s.ticked a = []
  · have hnow := s.now_le_step a
    have htimers : (s.step a).timers = [⟨generation, w.period, w.point (last + 1)⟩] := by
      apply Service.timers_step h.held h.timer_eq hstays
      rw [Service.timers_base hticked, h.timers_eq]
    rw [hticked, List.append_nil]
    refine ⟨last, Service.held_step h.held a, htimers, Nat.le_trans h.start_le hnow, h.spaced, ?_,
      h.last_cases⟩
    intro t ht
    exact ⟨Nat.le_trans (h.past t ht).1 hnow, (h.past t ht).2⟩
  · obtain ⟨c, haction, -, hnows⟩ := Service.exists_tick_of_ticked hticked
    rw [(Service.timers_of_held h.held h.timer_eq).1] at haction
    rw [hnows, haction]
    rw [haction] at hdue
    exact ⟨_, h.tick hp hdue⟩

theorem run (h : Tuned w generation s ts last) (hp : 0 < w.period) {as : List (Action κ)}
    (hretains : s.Retains generation as) :
    ∃ next, Tuned w generation (s.run (s.onTime as))
      (ts ++ Service.along Service.ticked s (s.onTime as)) next := by
  induction as using List.reverseRecOn with
  | nil => exact ⟨last, by simpa [Service.onTime, Service.along] using h⟩
  | append_singleton as a ih =>
      obtain ⟨next, hnext⟩ :=
        ih fun past hpast => hretains past (hpast.trans (List.prefix_append ..))
      have hstays := hretains (as ++ [a]) (List.prefix_refl _)
      rw [Service.onTime_append, Service.run_append] at hstays
      rw [Service.onTime_append, Service.run_append, Service.along_append, ← List.append_assoc]
      cases hearly : (s.run (s.onTime as)).isEarly a with
      | true => exact ⟨next, by simpa [Service.onTime, hearly, Service.along] using hnext⟩
      | false =>
          simp only [Service.onTime, hearly, Bool.false_eq_true, if_false, Service.run_cons,
            Service.run_nil] at hstays
          simpa [Service.onTime, hearly, Service.along] using hnext.step hp hearly hstays

/-- A timer that gets its turn at every point of the grid is acted on at every point. -/
theorem mem_of_turn (h : Tuned w generation s ts last) (hp : 0 < w.period) {k : Nat}
    (hone : 1 ≤ k) (hnow : s.world.now = w.point k) :
    w.point k ∈ ts ++ Service.along Service.ticked s (s.onTime [.tick generation]) := by
  cases hearly : s.isEarly (.tick generation) with
  | true => exact List.mem_append_left _ (h.mem_of_early hp hone hnow hearly)
  | false =>
      have hticked := Service.ticked_of_held h.held h.timer_eq
      simp [Service.onTime, hearly, Service.along, hticked, hnow]

end Tuned

namespace Launch

variable {κ : Type} [DecidableEq κ]

/-- A timer that has just been armed is in tune. -/
theorem tuned_of_armed (l : Launch) {before : List (Action κ)} {a : Action κ}
    {generation period : UInt64} (harm : .arm generation period ∈ (l.opened.run before).effects a) :
    Tuned ⟨(l.opened.run before).world.now, period.toNat * 1000⟩ generation
      ((l.opened.run before).step a) [] 0 := by
  have hheld : Held (l.opened.run before).view := l.held_opened_run before
  obtain ⟨htimers, hnow⟩ := Service.timers_of_armed hheld harm
  refine ⟨Service.held_step hheld a, ?_, Nat.le_of_eq hnow.symm, ⟨.nil, by simp⟩, by simp,
    Or.inl rfl⟩
  rw [htimers]
  simp [Timer.armed, Grid.point]

theorem period_pos_of_armed (l : Launch) {before : List (Action κ)} {a : Action κ}
    {generation period : UInt64} (harm : .arm generation period ∈ (l.opened.run before).effects a) :
    0 < period.toNat * 1000 := by
  have hinterval := (l.isRegular_opened_run (before ++ [a])).interval
  rw [Service.run_concat, Service.record_step, ← Service.period_of_armed harm] at hinterval
  exact Nat.mul_pos hinterval.1 (by decide)

end Launch

variable {κ : Type} [DecidableEq κ]

/-- Whenever a timer is armed, and whatever happens from then on while it is held: it is acted
on neither before its first point nor twice between two points, so that by any time it has been
acted on at most once for each point that has come; when it is acted on, however late, it is due
next at the first point that is still to come; and if it gets its turn at every point, it is acted
on at exactly the points of the grid. -/
theorem ticks_keep_to_grid (l : Launch) (before : List (Action κ)) (a : Action κ)
    (generation period : UInt64) (harm : .arm generation period ∈ (l.opened.run before).effects a)
    (as : List (Action κ)) (hretains : ((l.opened.run before).step a).Retains generation as) :
    let w : Grid := ⟨(l.opened.run before).world.now, period.toNat * 1000⟩
    let s := (l.opened.run before).step a
    let t := s.run (s.onTime as)
    let ts := Service.along Service.ticked s (s.onTime as)
    (∀ now ∈ ts, w.point 1 ≤ now) ∧
      (∀ k, 1 ≤ k → ts.countP (fun now => w.point k ≤ now ∧ now < w.point (k + 1)) ≤ 1) ∧
      (∀ now, ts.countP (· ≤ now) ≤ (now - w.start) / w.period) ∧
      (t.isEarly (.tick generation) = false →
        t.ticked (.tick generation) = [t.world.now] ∧
        ∃ k, (t.step (.tick generation)).timers = [⟨generation, w.period, w.point (k + 1)⟩] ∧
          w.point k ≤ t.world.now ∧ t.world.now < w.point (k + 1)) ∧
      ((∀ k, 1 ≤ k → w.point k ≤ t.world.now →
          ∃ past rest, as = past ++ .tick generation :: rest ∧
            (s.run (s.onTime past)).world.now = w.point k) →
        ts = (List.range' 1 ((t.world.now - w.start) / w.period)).map w.point) := by
  intro w s t ts
  have hp : 0 < w.period := l.period_pos_of_armed harm
  have harmed : Tuned w generation s [] 0 := l.tuned_of_armed harm
  obtain ⟨last, htuned⟩ := harmed.run hp hretains
  refine ⟨?_, ?_, htuned.spaced.countP_le, ?_, ?_⟩
  · intro now hnow
    exact htuned.spaced.first_le hp hnow
  · intro k _
    exact htuned.spaced.one_per_window hp k
  · intro hdue
    refine ⟨Service.ticked_of_held htuned.held htuned.timer_eq, w.slot t.world.now,
      htuned.timers_tick hp hdue, Grid.point_slot_le hp htuned.start_le,
      Grid.lt_point_succ hp htuned.start_le⟩
  · intro hturns
    apply htuned.spaced.eq_points hp fun now hnow => (htuned.past now hnow).1
    intro k hone hk
    obtain ⟨past, rest, rfl, hnow⟩ := hturns k hone hk
    have hpast : s.Retains generation past :=
      fun pre hpre => hretains pre (hpre.trans (List.prefix_append ..))
    obtain ⟨earlier, hearlier⟩ := harmed.run hp hpast
    have hmem := hearlier.mem_of_turn hp hone hnow
    have hparts : s.onTime (past ++ .tick generation :: rest) =
        s.onTime past ++ ((s.run (s.onTime past)).onTime [.tick generation] ++
          ((s.run (s.onTime past)).run
            ((s.run (s.onTime past)).onTime [.tick generation])).onTime rest) := by
      rw [Service.onTime_append, ← List.singleton_append, Service.onTime_append]
    rw [hparts, Service.along_append, Service.along_append]
    rw [List.nil_append] at hmem ⊢
    rw [← List.append_assoc]
    exact List.mem_append_left _ hmem

/-- A timer that misses two of its points is acted on once for them, and again at the next. -/
theorem ticks_after_standstill :
    let as : List (Action Unit) :=
      [.elapse 9999, .tick 1, .elapse 25001, .tick 1, .tick 1, .elapse 5000, .tick 1]
    let s := (Launch.standard.opened : Service Unit).step (.command .start)
    .arm 1 10 ∈ (Launch.standard.opened : Service Unit).effects (.command .start) ∧
      s.Retains 1 as ∧ Service.along Service.ticked s (s.onTime as) = [35000, 40000] ∧
      (s.run (s.onTime as)).timers = [⟨1, 10000, 50000⟩] ∧
      ∀ now, [35000, 40000].countP (· ≤ now) ≤ now / 10000 := by
  intro as s
  have harm : .arm 1 10 ∈ (Launch.standard.opened : Service Unit).effects (.command .start) :=
    .tail _ (.tail _ (.head _))
  have hretains : s.Retains 1 as := by
    intro past hpast
    rw [← List.mem_inits] at hpast
    revert past
    decide
  have hticked : Service.along Service.ticked s (s.onTime as) = [35000, 40000] := by decide
  obtain ⟨-, -, hfew, -⟩ :=
    ticks_keep_to_grid Launch.standard [] (.command .start) 1 10 harm as hretains
  rw [← hticked]
  exact ⟨harm, hretains, rfl, by decide, hfew⟩

end Polling
end SearchPolling
