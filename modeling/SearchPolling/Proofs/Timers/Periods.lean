import SearchPolling.Proofs.Queries.Settlement
import SearchPolling.Proofs.Writing.Recovery

/-!
# Intervals and periods

An interval comes from the settings, from the record in the store or from a command, and
whatever is given there, the interval of the record can be used at every point of a run.
Timers are armed with the interval of the record, so that no period is zero and no timer
is ever due later than a day ahead; and what is passed to the store is a record that the
next session accepts as it is.
-/

namespace SearchPolling
namespace Polling

/-- Intervals that can be used: from one second to one day. -/
def IsInterval (seconds : UInt64) : Prop :=
  1 ≤ seconds.toNat ∧ seconds.toNat ≤ 86400

instance (seconds : UInt64) : Decidable (IsInterval seconds) :=
  inferInstanceAs (Decidable (_ ∧ _))

theorem checkInterval_eq_ok {seconds : UInt64} :
    checkInterval seconds = .ok () ↔ IsInterval seconds := by
  have hzero : seconds = 0 ↔ seconds.toNat = 0 := UInt64.toNat_inj.symm
  have hlong : longestInterval < seconds ↔ 86400 < seconds.toNat := UInt64.lt_iff_toNat_lt
  simp only [checkInterval, IsInterval, hzero, hlong]
  constructor
  · intro h
    split at h
    · cases h
    · omega
  · rintro ⟨hpos, hle⟩
    rw [if_neg (by omega)]

theorem checkInterval_eq_error {seconds : UInt64} {refused : InvalidInterval} :
    checkInterval seconds = .error refused ↔ ¬IsInterval seconds ∧ refused = ⟨seconds⟩ := by
  rw [← checkInterval_eq_ok, checkInterval]
  split
  · simp [eq_comm]
  · simp

/-! ## Timers that are due within a day -/

namespace Timer

/-- The timer is due after a point of time, and at most a day after it. -/
def IsAhead (t : Timer) (now : Nat) : Prop :=
  now < t.due ∧ t.due ≤ now + 86400000

/-- The period is between a second and a day, in milliseconds. -/
structure IsRegular (t : Timer) : Prop where
  le_period : 1000 ≤ t.period
  period_le : t.period ≤ 86400000

theorem isRegular_armed {period : UInt64} (h : IsInterval period) (generation : UInt64)
    (now : Nat) : (armed generation period now).IsRegular := by
  obtain ⟨hpos, hle⟩ := h
  constructor
  · simp only [armed]
    omega
  · simp only [armed]
    omega

theorem isAhead_armed {period : UInt64} (h : IsInterval period) (generation : UInt64)
    (now : Nat) : (armed generation period now).IsAhead now := by
  obtain ⟨hpos, hle⟩ := h
  constructor
  · simp only [armed]
    omega
  · simp only [armed]
    omega

/-- A timer that is acted on late is due again within one period. -/
theorem due_acted_le (t : Timer) (now : Nat) (hdue : t.due ≤ now) :
    (t.acted now).due ≤ now + t.period := by
  have hmissed : t.period * ((now - t.due) / t.period) ≤ now - t.due :=
    Nat.mul_div_le (now - t.due) t.period
  simp only [acted, Nat.mul_add, Nat.mul_one]
  omega

theorem IsRegular.isAhead_acted {t : Timer} (h : t.IsRegular) {now : Nat}
    (hdue : t.isDue now = true) : (t.acted now).IsAhead now := by
  have hdue : t.due ≤ now := of_decide_eq_true hdue
  have hpos : 0 < t.period := Nat.lt_of_lt_of_le (by decide) h.le_period
  have hle := h.period_le
  refine ⟨t.lt_due_acted now hpos hdue, ?_⟩
  exact Nat.le_trans (t.due_acted_le now hdue) (Nat.add_le_add_left hle now)

end Timer

/-! ## The timers that effects leave -/

def Effect.period? : Effect → Option UInt64
  | arm _ period => some period
  | _ => none

namespace Engine

variable {κ : Type}

/-- A timer that goes on after effects went on before, or they have armed it. -/
theorem mem_timers_performAll (p : Placed κ) {es : List Effect} {t : Timer}
    (ht : t ∈ (performAll p es).engine.timers) :
    t ∈ p.engine.timers ∨
      ∃ generation period, .arm generation period ∈ es ∧
        t = .armed generation period p.world.now := by
  induction es generalizing p with
  | nil => exact Or.inl ht
  | cons e es ih =>
      have hnow : (perform p e).world.now = p.world.now := performAll_now p [e]
      rcases ih (perform p e) ht with hold | ⟨generation, period, harm, hnew⟩
      · cases e with
        | arm generation period =>
            rcases List.mem_append.mp hold with hbefore | harmed
            · exact Or.inl hbefore
            · refine Or.inr ⟨generation, period, List.mem_cons_self .., ?_⟩
              exact List.mem_singleton.mp harmed
        | disarm generation => exact Or.inl (List.mem_filter.mp hold).1
        | measure m =>
            simp only [perform] at hold
            split at hold <;> exact Or.inl hold
        | _ => exact Or.inl hold
      · rw [hnow] at hnew
        exact Or.inr ⟨generation, period, List.mem_cons_of_mem _ harm, hnew⟩

end Engine

namespace Service

variable {κ : Type}

/-- A timer is armed with the interval that the record then has. -/
theorem period_of_armed {s : Service κ} {a : Action κ} {generation period : UInt64}
    (h : .arm generation period ∈ s.effects a) :
    period = (a.revise s.state.record).refreshInterval := by
  rcases s.landed_cases a with hnone | ⟨place, result, f, rfl, hplace, -⟩
  · exact (routine_effects hnone).period_eq h
  · -- An answer arms nothing, whether it counts or not.
    simp only [effects, hplace, List.mem_append] at h
    rcases h with hretire | hanswer
    · exact (s.state.routine_retire _ f.cycle).period_eq hretire
    · cases hcurrent : s.state.isCurrent f.cycle <;>
        simp [hcurrent, Engine.answerEffects, Engine.countedEffects, Engine.ignoredEffects]
          at hanswer

variable [DecidableEq κ]

/-- Before its effects, an action leaves every timer its period. -/
theorem mem_timers_base {s : Service κ} {a : Action κ} {t : Timer}
    (ht : t ∈ (s.base a).engine.timers) : ∃ u ∈ s.timers, t.period = u.period := by
  have hsame (h : t ∈ s.timers) : ∃ u ∈ s.timers, t.period = u.period := ⟨t, h, rfl⟩
  cases a with
  | command c =>
      simp only [base] at ht
      split at ht <;> exact hsame ht
  | tick generation =>
      simp only [base] at ht
      split at ht
      · exact hsame ht
      · obtain ⟨u, hu, rfl⟩ := List.mem_map.mp ht
        refine ⟨u, hu, ?_⟩
        split <;> rfl
  | answer place result =>
      simp only [base] at ht
      split at ht <;> exact hsame ht
  | claim place =>
      simp only [base] at ht
      split at ht <;> exact hsame ht
  | receive name most =>
      simp only [base, step] at ht
      split at ht <;> exact hsame ht
  | _ => exact hsame ht

/-- The interval of the record can be used, and so can the periods of all timers. -/
structure IsRegular (s : Service κ) : Prop where
  interval : IsInterval s.state.record.refreshInterval
  timers : ∀ t ∈ s.timers, t.IsRegular

theorem IsRegular.step {s : Service κ} (h : s.IsRegular) (a : Action κ) :
    (s.step a).IsRegular := by
  have hinterval : IsInterval (a.revise s.state.record).refreshInterval :=
    checkInterval_eq_ok.mp (Action.check_revise (checkInterval_eq_ok.mpr h.interval) a)
  constructor
  · rw [record_step]
    exact hinterval
  · intro t ht
    rw [Service.timers, step_placed] at ht
    rcases Engine.mem_timers_performAll _ ht with hbase | ⟨generation, period, harm, rfl⟩
    · obtain ⟨u, hu, hperiod⟩ := mem_timers_base hbase
      obtain ⟨hpos, hle⟩ := h.timers u hu
      exact ⟨hperiod ▸ hpos, hperiod ▸ hle⟩
    · rw [← period_of_armed harm] at hinterval
      exact Timer.isRegular_armed hinterval generation _

end Service

namespace Launch

variable {κ : Type} [DecidableEq κ]

/-- The periods of the timers that were ever armed, in seconds and in their order. -/
def periods (l : Launch) (as : List (Action κ)) : List UInt64 :=
  l.along (fun s a => (s.effects a).filterMap Effect.period?) as

theorem isRegular_opened (l : Launch) : (l.opened : Service κ).IsRegular where
  interval := checkInterval_eq_ok.mp (l.check_opened_run [])
  timers := by
    intro t ht
    rw [l.timers_opened] at ht
    cases ht

/-- Everything is regular from the launch on, even before polling goes on with the record
that was found. -/
theorem isRegular_opened_run (l : Launch) (before : List (Action κ)) :
    (l.opened.run before).IsRegular :=
  Service.run_preserves (fun _ a h => h.step a) l.isRegular_opened before

theorem isInterval_periods (l : Launch) (as : List (Action κ)) {period : UInt64}
    (h : period ∈ l.periods as) : IsInterval period := by
  obtain ⟨before, a, after, -, heffect⟩ := Service.mem_along h
  obtain ⟨e, he, hperiod⟩ := List.mem_filterMap.mp heffect
  cases e with
  | arm generation seconds =>
      obtain rfl := Option.some.inj hperiod
      rw [Service.period_of_armed he, ← Service.record_step, ← Service.run_concat]
      exact (l.isRegular_opened_run (before ++ [a])).interval
  | _ => cases hperiod

end Launch

variable {κ : Type} [DecidableEq κ]

/-- Whatever the settings and the store said at the launch, and whatever is asked since,
the interval of the record can be used.  So can every period with which a timer was ever
armed: such a timer is due in the future, and no more than a day ahead, when it is armed
and again whenever it is acted on.  Every snapshot that was passed to the store holds the
record as its transition left it, and the text of it is one that the next session reads
and accepts as the very record. -/
theorem interval_always_usable (l : Launch) (as : List (Action κ)) :
    IsInterval (l.run as).state.record.refreshInterval ∧
      (∀ period ∈ l.periods as, IsInterval period ∧
        ∀ generation now, (Timer.armed generation period now).IsAhead now) ∧
      (∀ t ∈ (l.run as).timers, t.IsRegular ∧
        ∀ now, t.isDue now = true → (t.acted now).IsAhead now) ∧
      ∀ t ∈ l.passed as,
        (∃ before a after, l.course as = before ++ a :: after ∧
          t ∈ (l.opened.run before).taken a ∧
          t.record = ((l.opened.run before).step a).state.record) ∧
        Restored.ofLoad (.ok (some t.record.render)) = .found t.record := by
  have hrun : (l.run as).IsRegular := l.isRegular_opened_run (l.course as)
  refine ⟨hrun.interval, ?_, ?_, ?_⟩
  · intro period hperiod
    have hinterval := l.isInterval_periods as hperiod
    exact ⟨hinterval, fun generation now => Timer.isAhead_armed hinterval generation now⟩
  · intro t ht
    have hregular := hrun.timers t ht
    exact ⟨hregular, fun now hdue => hregular.isAhead_acted hdue⟩
  · intro t ht
    have htaken : t ∈ l.taken as := (l.orderly as).passed_taken t ht
    obtain ⟨before, a, after, hcourse, hnow⟩ := Service.mem_along htaken
    refine ⟨⟨before, a, after, hcourse, hnow, Service.record_taken hnow⟩, ?_⟩
    exact Restored.ofText_render (l.check_taken htaken)

/-- A session that is to poll every zero seconds polls every ten, takes over an interval
of one day, and refuses one second more; both records that it stores can be restored. -/
theorem interval_usable_at_bounds :
    let l : Launch := { Launch.standard with interval := 0 }
    let as : List (Action Unit) := [.command .start, .claim 0, .save (.ok ()),
      .command (.setInterval 86400), .command (.setInterval 86401), .claim 0]
    l.periods as = [10, 86400] ∧ IsInterval 86400 ∧
      l.passed as = [⟨1, ⟨true, 10⟩⟩, ⟨2, ⟨true, 86400⟩⟩] ∧
      Restored.ofLoad (.ok (some (Record.render ⟨true, 86400⟩))) = .found ⟨true, 86400⟩ := by
  intro l as
  have hperiods : l.periods as = [10, 86400] := by decide
  have hpassed : l.passed as = [⟨1, ⟨true, 10⟩⟩, ⟨2, ⟨true, 86400⟩⟩] := by decide
  obtain ⟨-, harmed, -, hstored⟩ := interval_always_usable l as
  have hlongest : 86400 ∈ l.periods as := by
    rw [hperiods]
    decide
  have hsecond : ⟨2, ⟨true, 86400⟩⟩ ∈ l.passed as := by
    rw [hpassed]
    decide
  exact ⟨hperiods, (harmed 86400 hlongest).1, hpassed, (hstored _ hsecond).2⟩

end Polling
end SearchPolling
