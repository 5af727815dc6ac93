import SearchPolling.Proofs.Service.Script
import SearchPolling.Proofs.Timers.Clockwork
import SearchPolling.Proofs.Writing.Order

/-!
# Query traffic does not interfere

Here timers go by the clock: whenever time has passed, the timers that are then due get
their turn.  Two runs in which the same is done at the same times, traffic aside, keep in
step: the record is the same at every point, the same snapshots are passed to the store,
and ticks are acted on at the same times.  Traffic is everything that has to do with
queries and events: their answers, the descriptor, subscribers, and whether polling is
suppressed.

Time passes in the same steps in both runs.  They may be as small as one likes, so that
traffic comes at different times: where time passes in single milliseconds, the same is done
at the same times if and only if the schedule is the same.
-/

namespace SearchPolling
namespace Polling

/-- What may happen to a service whose timers go by the clock. -/
inductive Moment (κ : Type) where
  | act (a : Action κ)
  /-- Time passes, and the timers that are then due get their turn. -/
  | pass (milliseconds : Nat)

namespace Moment

variable {κ : Type}

def isTraffic : Moment κ → Bool
  | act a => a.isTraffic
  | pass _ => false

/-- What is done, traffic aside, and how time passes in between. -/
def schedule (ms : List (Moment κ)) : List (Moment κ) :=
  ms.filter fun m => !m.isTraffic

def timekeeper : Scribe (Moment κ) (Moment κ) where
  script := schedule
  noted? _ m := if m.isTraffic then none else some m
  script_nil := rfl
  script_concat past m := by
    rw [schedule, List.filter_append]
    cases hm : m.isTraffic <;> simp [hm, schedule]

end Moment

namespace Service

variable {κ : Type}

/-- The generations of the timers that are due at a time. -/
def dueAt (s : Service κ) (now : Nat) : List UInt64 :=
  (s.timers.filter (·.isDue now)).map (·.generation)

/-- The actions that take place in a moment. -/
def actions (s : Service κ) : Moment κ → List (Action κ)
  | .act a => [a]
  | .pass ms => .elapse ms :: (s.dueAt (s.world.now + ms)).map .tick

theorem actions_congr {s t : Service κ} (h : s.clockwork = t.clockwork) (m : Moment κ) :
    s.actions m = t.actions m := by
  have hpart {α : Type} (part : Service κ → α) : part s.clockwork = part t.clockwork :=
    congrArg part h
  exact hpart (·.actions m)

variable [DecidableEq κ]

/-- The actions that take place in moments, one after another. -/
def enact (s : Service κ) : List (Moment κ) → List (Action κ)
  | [] => []
  | m :: ms => s.actions m ++ (s.run (s.actions m)).enact ms

theorem enact_append (s : Service κ) (ms ns : List (Moment κ)) :
    s.enact (ms ++ ns) = s.enact ms ++ (s.run (s.enact ms)).enact ns := by
  induction ms generalizing s with
  | nil => rfl
  | cons m ms ih => simp only [List.cons_append, enact, ih, run_append, List.append_assoc]

/-- Time may pass in small steps: where no timer is due in between, it makes no difference
whether it passes in two steps or in one. -/
theorem run_pass_add (s : Service κ) (m n : Nat) (hidle : s.dueAt (s.world.now + m) = []) :
    s.run (s.enact [.pass m, .pass n]) = s.run (s.enact [.pass (m + n)]) := by
  have hfirst : s.run (s.actions (.pass m)) = s.step (.elapse m) := by
    simp only [actions, hidle, List.map_nil, run_cons, run_nil]
  have hnow : (s.step (.elapse m)).world.now = s.world.now + m := rfl
  have helapsed : (s.step (.elapse m)).step (.elapse n) = s.step (.elapse (m + n)) := by
    simp only [step, withWorld, Nat.add_assoc]
  have hdue (now : Nat) : (s.step (.elapse m)).dueAt now = s.dueAt now := rfl
  simp only [enact, List.append_nil, run_append, hfirst]
  simp only [actions, run_cons, helapsed, hnow, hdue, Nat.add_assoc]

end Service

variable {κ : Type}

/-- What actions give goes by the clockwork: it depends on nothing else, and traffic gives
nothing. -/
structure ByClockwork {α : Type} (g : Service κ → Action κ → List α) : Prop where
  congr : ∀ {s t : Service κ}, s.clockwork = t.clockwork → ∀ a, g s a = g t a
  traffic : ∀ (s : Service κ) (a : Action κ), a.isTraffic = true → g s a = []

namespace ByClockwork

variable [DecidableEq κ]

theorem passed : ByClockwork (κ := κ) Service.passed where
  congr h a := congrArg Papers.passed (Service.clockwork_congr h a).2.1
  traffic s _ ha := congrArg Papers.passed (s.clockwork_step_of_traffic ha).2.1

theorem saved : ByClockwork (κ := κ) Service.saved where
  congr h a := congrArg Papers.saved (Service.clockwork_congr h a).2.1
  traffic s _ ha := congrArg Papers.saved (s.clockwork_step_of_traffic ha).2.1

theorem ticked : ByClockwork (κ := κ) Service.ticked where
  congr h a := (Service.clockwork_congr h a).2.2
  traffic s _ ha := (s.clockwork_step_of_traffic ha).2.2

/-- Where the clockwork is the same, the same actions leave it the same and give the
same. -/
theorem run_congr {α : Type} {g : Service κ → Action κ → List α} (hg : ByClockwork g)
    {s t : Service κ} (h : s.clockwork = t.clockwork) (as : List (Action κ)) :
    (s.run as).clockwork = (t.run as).clockwork ∧ Service.along g s as = Service.along g t as := by
  induction as generalizing s t with
  | nil => exact ⟨h, rfl⟩
  | cons a as ih =>
      have hstep : (s.step a).clockwork = (t.step a).clockwork := (Service.clockwork_congr h a).1
      obtain ⟨hrun, halong⟩ := ih hstep
      refine ⟨hrun, ?_⟩
      rw [Service.along, Service.along, hg.congr h a, halong]

end ByClockwork

namespace Launch

variable [DecidableEq κ]

/-- The actions that take place after the launch in moments, one after another. -/
def enacted (l : Launch) (ms : List (Moment κ)) : List (Action κ) :=
  (l.run []).enact ms

/-- The times at which ticks were acted on. -/
def ticked (l : Launch) (as : List (Action κ)) : List Nat :=
  l.along Service.ticked as

theorem enacted_concat (l : Launch) (ms : List (Moment κ)) (m : Moment κ) :
    l.enacted (ms ++ [m]) = l.enacted ms ++ (l.run (l.enacted ms)).actions m := by
  have hrun : (l.run [] : Service κ).run (l.enacted ms) = l.run (l.enacted ms) := by
    rw [← l.run_append, List.nil_append]
  rw [enacted, Service.enact_append, ← enacted, hrun, Service.enact, Service.enact,
    List.append_nil]

/-- Runs with the same schedule have the same clockwork and have given the same. -/
theorem clockwork_eq_of_alike (l : Launch) {α : Type} {g : Service κ → Action κ → List α}
    (hg : ByClockwork g) {ms ns : List (Moment κ)} (h : Moment.timekeeper.Alike ms ns) :
    (l.run (l.enacted ms)).clockwork = (l.run (l.enacted ns)).clockwork ∧
      l.along g (l.enacted ms) = l.along g (l.enacted ns) := by
  have hpassedOver {past : List (Moment κ)} {m : Moment κ}
      (hm : Moment.timekeeper.noted? past m = none) :
      (l.run (l.enacted (past ++ [m]))).clockwork = (l.run (l.enacted past)).clockwork ∧
        l.along g (l.enacted (past ++ [m])) = l.along g (l.enacted past) := by
    have htraffic : m.isTraffic = true := by simpa [Moment.timekeeper] using hm
    cases m with
    | pass ms => cases htraffic
    | act a =>
        have henacted : l.enacted (past ++ [.act a]) = l.enacted past ++ [a] :=
          l.enacted_concat past (.act a)
        rw [henacted, l.run_concat, l.along_concat, hg.traffic _ _ htraffic, List.append_nil]
        exact ⟨((l.run (l.enacted past)).clockwork_step_of_traffic htraffic).1, rfl⟩
  induction h with
  | start => exact ⟨rfl, rfl⟩
  | left _ hm ih =>
      obtain ⟨hclockwork, halong⟩ := hpassedOver hm
      exact ⟨hclockwork.trans ih.1, halong.trans ih.2⟩
  | right _ hn ih =>
      obtain ⟨hclockwork, halong⟩ := hpassedOver hn
      exact ⟨ih.1.trans hclockwork.symm, ih.2.trans halong.symm⟩
  | @both ms ns m n e _ hm hn ih =>
      obtain ⟨hclockwork, halong⟩ := ih
      have hsame : m = n := by
        simp only [Moment.timekeeper, Option.ite_none_left_eq_some, Option.some.injEq] at hm hn
        exact hm.2.trans hn.2.symm
      obtain ⟨hrun, hmore⟩ :=
        hg.run_congr hclockwork ((l.run (l.enacted ns)).actions n)
      rw [hsame, l.enacted_concat, l.enacted_concat, Service.actions_congr hclockwork,
        l.run_append, l.run_append, l.along_append, l.along_append, halong, hmore]
      exact ⟨hrun, rfl⟩

/-- Two runs keep in step: the record, the timers and the store are the same, the same
snapshots have been passed to the store and saved, and ticks have been acted on at the same
times. -/
structure InStep (l : Launch) (as bs : List (Action κ)) : Prop where
  record_eq : (l.run as).state.record = (l.run bs).state.record
  timers_eq : (l.run as).timers = (l.run bs).timers
  now_eq : (l.run as).world.now = (l.run bs).world.now
  passed_eq : l.passed as = l.passed bs
  saved_eq : l.saved as = l.saved bs
  store_eq : (l.run as).store = (l.run bs).store
  ticked_eq : l.ticked as = l.ticked bs

theorem inStep_of_alike (l : Launch) {ms ns : List (Moment κ)}
    (h : Moment.timekeeper.Alike ms ns) : l.InStep (l.enacted ms) (l.enacted ns) := by
  obtain ⟨hclockwork, hticked⟩ := l.clockwork_eq_of_alike .ticked h
  have hpart {α : Type} (part : Service κ → α) :
      part (l.run (l.enacted ms)).clockwork = part (l.run (l.enacted ns)).clockwork :=
    congrArg part hclockwork
  exact {
    record_eq := hpart (·.state.record)
    timers_eq := hpart Service.timers
    now_eq := hpart (·.world.now)
    passed_eq := (l.clockwork_eq_of_alike .passed h).2
    saved_eq := (l.clockwork_eq_of_alike .saved h).2
    store_eq := hpart Service.store
    ticked_eq := hticked }

end Launch

variable [DecidableEq κ]

/-- Two runs in which the same is done at the same times, traffic aside, keep in step, in
the end and at every point: to each point of the one corresponds a point of the other with
the same schedule, up to which they have kept in step. -/
theorem traffic_does_not_interfere (l : Launch) (ms ns : List (Moment κ))
    (hschedule : Moment.schedule ms = Moment.schedule ns) :
    l.InStep (l.enacted ms) (l.enacted ns) ∧
      ∀ before, before <+: ms → ∃ before', before' <+: ns ∧
        Moment.schedule before = Moment.schedule before' ∧
        l.InStep (l.enacted before) (l.enacted before') := by
  have halike : Moment.timekeeper.Alike ms ns := Scribe.alike_of_script_eq hschedule
  refine ⟨l.inStep_of_alike halike, ?_⟩
  intro before hbefore
  obtain ⟨before', hprefix, hcorresponding⟩ := halike.exists_prefix hbefore
  exact ⟨before', hprefix, hcorresponding.script_eq, l.inStep_of_alike hcorresponding⟩

/-- Polling that is suppressed and polling whose query has been answered keep in step, though
the next tick issues a query in the one run and none in the other. -/
theorem inStep_while_suppressed :
    let ms : List (Moment Unit) :=
      [.act (.command .start), .act (.command (.suppress true)), .pass 10000]
    let ns : List (Moment Unit) :=
      [.act (.command .start), .act (.answer 0 (.error .timeout)), .pass 10000]
    Moment.schedule ms = Moment.schedule ns ∧
      (Launch.standard.issued (Launch.standard.enacted ms)).length = 1 ∧
      (Launch.standard.issued (Launch.standard.enacted ns)).length = 2 ∧
      Launch.standard.ticked (Launch.standard.enacted ms) = [10000] ∧
      Launch.standard.ticked (Launch.standard.enacted ns) = [10000] := by
  intro ms ns
  have hschedule : Moment.schedule ms = Moment.schedule ns := rfl
  have hstep := (traffic_does_not_interfere Launch.standard ms ns hschedule).1
  have hticked : Launch.standard.ticked (Launch.standard.enacted ms) = [10000] := by decide
  refine ⟨hschedule, by decide, by decide, hticked, ?_⟩
  rw [← hstep.ticked_eq, hticked]

end Polling
end SearchPolling
