import SearchPolling.Proofs.Measuring.Entries

/-!
# The balance of the metrics

What is counted is counted by different parts of the service, some of it when the state is
no longer held and some of it only if nothing else came first.  All the same the counters
balance after every run.  Every identity holds for each action alone, and so for a run by
adding up its actions.
-/

namespace SearchPolling
namespace Polling

open Metrics (Meter)

namespace Service

variable {κ : Type} [DecidableEq κ]

/-! ## What a run adds up to -/

/-- The sum of what the actions of a run give, each at the service that it meets. -/
def total (g : Service κ → Action κ → Nat) (s : Service κ) : List (Action κ) → Nat
  | [] => 0
  | a :: as => g s a + total g (s.step a) as

theorem total_add (g k : Service κ → Action κ → Nat) (s : Service κ) (as : List (Action κ)) :
    total g s as + total k s as = total (fun s a => g s a + k s a) s as := by
  induction as generalizing s with
  | nil => rfl
  | cons a as ih =>
      simp only [total, ← ih]
      omega

theorem countP_along {α : Type} (g : Service κ → Action κ → List α) (p : α → Bool)
    (s : Service κ) (as : List (Action κ)) :
    (along g s as).countP p = total (fun s a => (g s a).countP p) s as := by
  induction as generalizing s with
  | nil => rfl
  | cons a as ih => rw [along, List.countP_append, ih, total]

theorem tally_eq_total (b : Service κ → Action κ → Bool) (s : Service κ)
    (as : List (Action κ)) : tally b s as = total (fun s a => if b s a then 1 else 0) s as := by
  induction as generalizing s with
  | nil => rfl
  | cons a as ih => rw [tally, ih, total]

end Service

namespace Launch

variable {κ : Type} [DecidableEq κ]

/-- How often polling has become active. -/
def resumptions (l : Launch) (as : List (Action κ)) : Nat :=
  Service.tally Service.resumes l.opened (l.course as)

/-- How many ticks have been acted on. -/
def ticksActedOn (l : Launch) (as : List (Action κ)) : Nat :=
  Service.tally Service.actsOnTick l.opened (l.course as)

/-- How often a save of the store has returned. -/
def savesEnded (l : Launch) (as : List (Action κ)) : Nat :=
  Service.tally Service.endsSave l.opened (l.course as)

/-- A meter of a registry that was fresh at the launch shows the entries of the run. -/
theorem read_run (M : Meter) {l : Launch} (hmeasured : l.measured = true)
    (hfresh : l.world.registry = .fresh) (as : List (Action κ)) :
    M.read (l.run as).world.registry =
      Service.total (fun s a => (s.entries a).countP M.counts) l.opened (l.course as) := by
  have hopened : M.read (l.opened : Service κ).world.registry = 0 := by
    have hgauges : ∀ m ∈ measuredFirst l, M.counts m = false := by
      intro m hm
      rw [measuredFirst, measurements_opening] at hm
      simp only [List.cons_append, List.nil_append, List.mem_cons, List.mem_map] at hm
      rcases hm with rfl | rfl | rfl | rfl | ⟨r, _, rfl⟩
      · exact M.counts_gauge _ rfl
      · exact M.counts_gauge _ rfl
      · exact M.counts_gauge _ rfl
      · exact M.counts_load _
      · exact M.counts_gauge _ rfl
    rw [registry_opened l hmeasured, hfresh, M.read_recordAll, M.read_fresh, Nat.zero_add,
      List.countP_eq_zero]
    intro m hm
    simp [hgauges m hm]
  have hrun : (l.run as).world.registry =
      (l.opened : Service κ).world.registry.recordAll
        (Service.along Service.measured l.opened (l.course as)) :=
    Service.registry_run ((measured_opened l).trans hmeasured) _
  rw [hrun, M.read_recordAll, hopened, Service.countP_along]
  simp only [Service.countP_measured, Nat.zero_add]

end Launch

/-- Of every origin, the queries that were issued are those that are counted and those on
their way.  Ticks issued as many queries as are counted as issued, and starts as many as
polling became active.  Every tick that was acted on is counted, and so is every save that
returned.  The events that were published are counted as successes and failures, and their
durations observed. -/
theorem metrics_balance {κ : Type} [DecidableEq κ] (l : Launch) (hmeasured : l.measured = true)
    (hfresh : l.world.registry = .fresh) (as : List (Action κ)) :
    let r := (l.run as).world.registry
    (∀ origin : Origin,
      r.queriesOf origin .success + r.queriesOf origin .failure + r.queriesOf origin .discarded +
          (l.run as).flights.countP (·.origin = origin) =
        (l.issued as).countP (·.origin = origin)) ∧
      (l.issued as).countP (·.origin = .tick) = r.ticksOf .issued ∧
      (l.issued as).countP (·.origin = .eager) = l.resumptions as ∧
      r.ticksOf .issued + r.ticksOf .congested + r.ticksOf .suppressed = l.ticksActedOn as ∧
      (∀ origin : Origin,
        (l.published as).countP (·.origin = origin) =
            r.queriesOf origin .success + r.queriesOf origin .failure ∧
          (l.published as).countP (·.origin = origin) = r.durationsOf origin) ∧
      r.savesOf true + r.savesOf false = l.savesEnded as := by
  intro r
  have hread (M : Meter) : M.read r =
      Service.total (fun s a => (s.entries a).countP M.counts) l.opened (l.course as) :=
    l.read_run M hmeasured hfresh as
  have hissued (origin : Origin) : (l.issued as).countP (·.origin = origin) =
      Service.total (fun s a => (s.marks a).issued.countP (·.origin = origin))
        l.opened (l.course as) := Service.countP_along _ _ _ _
  have hpublished (origin : Origin) : (l.published as).countP (·.origin = origin) =
      Service.total (fun s a => (s.published a).countP (·.origin = origin))
        l.opened (l.course as) := Service.countP_along _ _ _ _
  refine ⟨?_, ?_, ?_, ?_, ?_, ?_⟩
  · intro origin
    have hlanded : (l.landed as).countP (·.origin = origin) =
        Service.total (fun s a => (s.landed a).countP (·.origin = origin))
          l.opened (l.course as) := Service.countP_along _ _ _ _
    have hsettled : r.queriesOf origin .success + r.queriesOf origin .failure +
        r.queriesOf origin .discarded = (l.landed as).countP (·.origin = origin) := by
      show (Meter.queries origin .success).read r + (Meter.queries origin .failure).read r +
        (Meter.queries origin .discarded).read r = _
      rw [hread, hread, hread, Service.total_add, Service.total_add, hlanded]
      simp only [Service.fates_entries]
    rw [hsettled, (l.ledger as).split.countP_eq, List.countP_append]
    rfl
  · show _ = (Meter.ticks .issued).read r
    rw [hread, hissued]
    simp only [Service.issued_tick]
  · rw [hissued, Launch.resumptions, Service.tally_eq_total]
    simp only [Service.issued_eager]
  · show (Meter.ticks .issued).read r + (Meter.ticks .congested).read r +
      (Meter.ticks .suppressed).read r = _
    rw [hread, hread, hread, Service.total_add, Service.total_add, Launch.ticksActedOn,
      Service.tally_eq_total]
    simp only [Service.ticks_entries]
  · intro origin
    constructor
    · show _ = (Meter.queries origin .success).read r + (Meter.queries origin .failure).read r
      rw [hread, hread, Service.total_add, hpublished]
      simp only [(Service.published_entries _ _ origin).1]
    · show _ = (Meter.durations origin).read r
      rw [hread, hpublished]
      simp only [(Service.published_entries _ _ origin).2]
  · show (Meter.saves true).read r + (Meter.saves false).read r = _
    rw [hread, hread, Service.total_add, Launch.savesEnded, Service.tally_eq_total]
    simp only [Service.saves_entries]

/-- The query of a start is discarded, that of a tick fails, that of another tick is on its
way, and a save has failed. -/
theorem balance_after_drop :
    let as : List (Action Unit) :=
      [.command .start, .command .dropCycle, .tick 2, .answer 0 (.error .timeout),
        .answer 0 (.error .timeout), .claim 0, .save (.error (.unavailable "")), .tick 2]
    let r := (Launch.standard.run as).world.registry
    Launch.standard.measured = true ∧ Launch.standard.world.registry = .fresh ∧
      r.queriesOf .eager .success + r.queriesOf .eager .failure +
        r.queriesOf .eager .discarded = 1 ∧
      r.ticksOf .issued = 2 ∧ Launch.standard.resumptions as = 1 ∧
      r.queriesOf .tick .success + r.queriesOf .tick .failure = 1 ∧ r.durationsOf .tick = 1 ∧
      r.savesOf true + r.savesOf false = 1 := by
  intro as r
  obtain ⟨hfates, hticks, hstarts, -, hpublished, hsaves⟩ :=
    metrics_balance Launch.standard rfl rfl as
  have heagerIssued : (Launch.standard.issued as).countP (·.origin = .eager) = 1 := by decide
  have htickIssued : (Launch.standard.issued as).countP (·.origin = .tick) = 2 := by decide
  have hone : (Launch.standard.published as).countP (·.origin = .tick) = 1 := by decide
  refine ⟨rfl, rfl, ?_, ?_, ?_, ?_, ?_, ?_⟩
  · have hlanded : (Launch.standard.run as).flights.countP (·.origin = .eager) = 0 := by decide
    have heager := hfates .eager
    rw [hlanded, heagerIssued] at heager
    exact heager
  · rw [← hticks, htickIssued]
  · rw [← hstarts, heagerIssued]
  · rw [← (hpublished .tick).1, hone]
  · rw [← (hpublished .tick).2, hone]
  · rw [hsaves]
    decide

end Polling
end SearchPolling
