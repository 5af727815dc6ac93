import SearchPolling.Proofs.Lifetime.Handles
import SearchPolling.Proofs.Queries.Outstanding

/-!
# After the last handle

When the last handle is gone the timer goes on as long as a query keeps the service
alive.  A tick is then held back only by the outstanding queries of the current cycle: if
all that keeps the service alive is a query of an earlier cycle, or one whose answer has
been decided about, the tick issues another query.  If all queries on their way are of the
current cycle, and their tasks end with their answers, no query is issued any more.
-/

namespace SearchPolling
namespace Polling

/-- A tick issues a query only if none is outstanding. -/
theorem State.outstanding_of_issues {s : State} {generation : UInt64} {c : Change}
    (h : s.tick generation = some c) (hissues : (Footprint.of c.effects).issues ≠ []) :
    s.outstanding = 0 := by
  by_contra hne
  have hpending : s.pending = true := by
    rw [pending, decide_eq_true_eq]
    exact Nat.pos_of_ne_zero hne
  simp only [tick, isCongested, hpending] at h
  split at h
  · cases h
  · obtain rfl := Option.some.inj h
    apply hissues
    by_cases hsuppressed : s.suppressed = true
    · simp only [tickOutcome, if_pos hsuppressed]
      rfl
    · simp only [tickOutcome, if_neg hsuppressed, if_true]
      rfl

namespace Service

variable {κ : Type}

theorem outstanding_of_issued {s : Service κ} {generation : UInt64}
    (h : (s.marks (.tick generation)).issued ≠ []) : s.state.outstanding = 0 := by
  have hissues : (Footprint.of (s.effects (.tick generation))).issues ≠ [] := by
    intro hnone
    apply h
    rw [marks, hnone]
    rfl
  simp only [effects] at hissues
  split at hissues
  · exact absurd rfl hissues
  · next c htick => exact State.outstanding_of_issues htick hissues

variable [DecidableEq κ]

/-- Nothing but ticks and starts issues queries. -/
theorem action_of_issued {s : Service κ} {a : Action κ} (h : (s.marks a).issued ≠ []) :
    (∃ generation, a = .tick generation) ∨ a = .command .start := by
  cases s.turn a with
  | ticked haction _ _ _ => exact Or.inl ⟨_, haction⟩
  | started haction _ _ _ => exact Or.inr haction
  | quiet _ hmarks => exact absurd (by rw [hmarks]) h
  | obsolete _ _ _ _ hmarks => exact absurd (by rw [hmarks]) h
  | stopped _ hmarks => exact absurd (by rw [hmarks]) h
  | reset _ _ hmarks => exact absurd (by rw [hmarks]) h
  | answered _ _ _ hmarks => exact absurd (by rw [hmarks]) h

/-- Without a command an idle desk stays idle. -/
theorem idle_step_of_not_command {s : Service κ} (h : s.idle = true) {a : Action κ}
    (ha : ∀ c, a ≠ .command c) : (s.step a).idle = true := by
  obtain ⟨hwaiting, hwriting⟩ := idle_iff.mp h
  rw [idle_iff]
  cases a with
  | command c => exact absurd rfl (ha c)
  | answer place result =>
      simp only [step, takeAnswer]
      split <;> exact ⟨hwaiting, hwriting⟩
  | claim place => simp [step, takeTurn, hwaiting, hwriting]
  | save result => simp [step, endSave, hwaiting, hwriting]
  | abandon place => simp [step, hwaiting, hwriting]
  | interrupt => exact ⟨hwaiting, rfl⟩
  | receive name most =>
      simp only [step]
      split <;> exact ⟨hwaiting, hwriting⟩
  | _ => exact ⟨hwaiting, hwriting⟩

/-- Where no query is issued and no cycle opened, queries only land. -/
theorem flights_step_of_quiet {s : Service κ} {a : Action κ} (hissued : (s.marks a).issued = [])
    (hresets : (s.marks a).resets = false) :
    (s.step a).view.flights.Sublist s.view.flights ∧ (s.step a).view.cycle = s.view.cycle := by
  cases s.turn a with
  | quiet hview _ =>
      rw [hview]
      exact ⟨List.Sublist.refl _, rfl⟩
  | obsolete _ _ _ hview _ =>
      rw [hview]
      exact ⟨List.Sublist.refl _, rfl⟩
  | stopped hview _ =>
      rw [hview]
      exact ⟨List.Sublist.refl _, rfl⟩
  | answered f _ hview _ =>
      rw [hview]
      exact ⟨List.filter_sublist, rfl⟩
  | ticked _ _ _ hmarks =>
      rw [hmarks] at hissued
      cases hissued
  | started _ _ _ hmarks =>
      rw [hmarks] at hissued
      cases hissued
  | reset _ _ hmarks =>
      rw [hmarks] at hresets
      cases hresets

end Service

namespace Owned

variable {κ : Type} [DecidableEq κ]

/-- Nobody owns the service, all queries on their way are of the current cycle, and no
answered one lingers. -/
structure Released (o : Owned κ) : Prop where
  not_held : o.isHeld = false
  lingering_eq : o.lingering = 0
  cycle_eq : ∀ f ∈ o.service.flights, f.cycle = o.service.state.cycle
  accounted : Accounted o.service.view
  nodup : (o.service.flights.map (·.number)).Nodup

/-- Without an owner a query is issued only by a tick that meets no query of the current
cycle, while an earlier one or the task of an answered one keeps the service alive. -/
theorem tick_of_issued {o : Owned κ} (hheld : o.isHeld = false)
    (haccounted : Accounted o.service.view) {d : Deed κ} (h : o.issued [d] ≠ []) :
    (∃ generation, d = .act (.tick generation)) ∧
      (∀ f ∈ o.service.flights, f.cycle ≠ o.service.state.cycle) ∧
      (o.service.flights ≠ [] ∨ 0 < o.lingering) := by
  obtain ⟨a, ha, hissued⟩ : ∃ a, o.action? d = some a ∧ (o.service.marks a).issued ≠ [] := by
    rw [issued_singleton] at h
    cases ha : o.action? d with
    | none =>
        rw [ha] at h
        exact absurd rfl h
    | some a =>
        rw [ha] at h
        exact ⟨a, rfl, by simpa using h⟩
  have hact : d = .act a ∧ o.permits a = true := by
    cases d with
    | act b =>
        simp only [action?] at ha
        split at ha
        · next hpermits =>
            obtain rfl := Option.some.inj ha
            exact ⟨rfl, hpermits⟩
        · cases ha
    | linger place result =>
        obtain rfl := Option.some.inj ha
        rcases Service.action_of_issued hissued with ⟨_, htick⟩ | hstart
        · cases htick
        · cases hstart
    | _ => cases ha
  obtain ⟨rfl, hpermits⟩ := hact
  rcases Service.action_of_issued hissued with ⟨generation, rfl⟩ | rfl
  · have hnone : o.service.view.outstanding = 0 := Service.outstanding_of_issued hissued
    rw [haccounted.outstanding_eq, List.countP_eq_zero] at hnone
    refine ⟨⟨generation, rfl⟩, ?_, ?_⟩
    · intro f hf hsame
      exact hnone f hf (decide_eq_true hsame)
    · have halive : o.isAlive = true := hpermits
      simpa [isAlive, hheld] using halive
  · rw [not_permits_command hheld] at hpermits
    cases hpermits

namespace Released

variable {o : Owned κ}

theorem issued_eq_nil (h : o.Released) (d : Deed κ) : o.issued [d] = [] := by
  by_contra hissued
  obtain ⟨_, hother, halive⟩ := tick_of_issued h.not_held h.accounted hissued
  rcases halive with hflights | hlingering
  · obtain ⟨f, hf⟩ := List.exists_mem_of_ne_nil _ hflights
    exact hother f hf (h.cycle_eq f hf)
  · rw [h.lingering_eq] at hlingering
    cases hlingering

/-- An action without an owner that issues nothing leaves the service released. -/
theorem act (h : o.Released) {a : Action κ} (ha : ∀ c, a ≠ .command c)
    (hissued : (o.service.marks a).issued = []) :
    ({ o with service := o.service.step a } : Owned κ).Released := by
  have hresets : (o.service.marks a).resets = false := by
    cases a with
    | command c => exact absurd rfl (ha c)
    | _ => rfl
  obtain ⟨hflights, hcycle⟩ := Service.flights_step_of_quiet hissued hresets
  obtain ⟨hhandles, hidle⟩ := isHeld_eq_false_iff.mp h.not_held
  constructor
  · exact isHeld_eq_false_iff.mpr ⟨hhandles, Service.idle_step_of_not_command hidle ha⟩
  · exact h.lingering_eq
  · intro f hf
    have hsame : (o.service.step a).state.cycle = o.service.state.cycle := hcycle
    rw [hsame]
    exact h.cycle_eq f (hflights.subset hf)
  · refine Service.accounted_step h.accounted h.nodup a ?_
    intro hreset
    rw [hresets] at hreset
    cases hreset
  · exact h.nodup.sublist (hflights.map _)

theorem step (h : o.Released) {d : Deed κ} (hd : d.lingers = false) : (o.step d).Released := by
  obtain ⟨hhandles, _⟩ := isHeld_eq_false_iff.mp h.not_held
  have hquiet := h.issued_eq_nil d
  rw [issued_singleton] at hquiet
  cases d with
  | act a =>
      by_cases hpermits : o.permits a = true
      · have haction : o.action? (.act a) = some a := if_pos hpermits
        rw [haction] at hquiet
        have hstep : o.step (.act a) = { o with service := o.service.step a } := by
          rw [Owned.step, haction]
          rfl
        rw [hstep]
        apply h.act
        · rintro c rfl
          rw [not_permits_command h.not_held] at hpermits
          cases hpermits
        · simpa using hquiet
      · have haction : o.action? (.act a) = none := if_neg hpermits
        have hstep : o.step (.act a) = o := by
          rw [Owned.step, haction]
          rfl
        rwa [hstep]
  | clone =>
      have hstep : o.step .clone = o := by
        simp only [Owned.step, handlesAfter, hhandles, Nat.lt_irrefl, if_false]
        rw [← hhandles]
        rfl
      rwa [hstep]
  | drop =>
      have hstep : o.step .drop = o := by
        simp only [Owned.step, handlesAfter, hhandles, Nat.zero_sub]
        rw [← hhandles]
        rfl
      rwa [hstep]
  | depart =>
      have hstep : o.step .depart = o := by
        simp only [Owned.step, lingeringAfter, h.lingering_eq, Nat.zero_sub]
        rw [← h.lingering_eq]
        rfl
      rwa [hstep]
  | linger place result => cases hd

theorem run_issued_eq_nil (h : o.Released) {ds : List (Deed κ)}
    (hds : ∀ d ∈ ds, d.lingers = false) : o.issued ds = [] := by
  induction ds generalizing o with
  | nil => rfl
  | cons d ds ih =>
      rw [List.forall_mem_cons] at hds
      rw [issued_cons, h.issued_eq_nil d, ih (h.step hds.1) hds.2]
      rfl

end Released
end Owned

variable {κ : Type} [DecidableEq κ]

/-- After the last handle is gone, a query is issued only by a tick, and only if no query
of the current cycle is on its way while a query of an earlier cycle is, or the task of an
answered one has not ended.  If all queries on their way are of the current cycle and no
answered one lingers, none is ever issued again as long as tasks end with their answers. -/
theorem issued_after_release (l : Launch) (ds : List (Deed κ))
    (hresets : l.resets ((Owned.launched l).actions ds) < 2 ^ 64)
    (hheld : ((Owned.launched l).run ds).isHeld = false) :
    (∀ d, ((Owned.launched l).run ds).issued [d] ≠ [] →
      (∃ generation, d = .act (.tick generation)) ∧
        (∀ f ∈ ((Owned.launched l).run ds).service.flights,
          f.cycle ≠ ((Owned.launched l).run ds).service.state.cycle) ∧
        (((Owned.launched l).run ds).service.flights ≠ [] ∨
          0 < ((Owned.launched l).run ds).lingering)) ∧
      (((Owned.launched l).run ds).lingering = 0 →
        (∀ f ∈ ((Owned.launched l).run ds).service.flights,
          f.cycle = ((Owned.launched l).run ds).service.state.cycle) →
        ∀ later, (∀ d ∈ later, d.lingers = false) →
          ((Owned.launched l).run ds).issued later = []) := by
  have hservice := Owned.service_launched l ds
  have haccounted : Accounted ((Owned.launched l).run ds).service.view := by
    rw [hservice]
    exact l.accounted _ hresets
  have hnodup : (((Owned.launched l).run ds).service.flights.map (·.number)).Nodup := by
    rw [hservice]
    exact (l.ledger _).nodup_flights
  constructor
  · intro d hissued
    exact Owned.tick_of_issued hheld haccounted hissued
  · intro hlingering hcycle later hlater
    have hreleased : ((Owned.launched l).run ds).Released :=
      ⟨hheld, hlingering, hcycle, haccounted, hnodup⟩
    exact hreleased.run_issued_eq_nil hlater

/-- A tick that comes after the last handle is gone, while the eager query is still on its
way, issues nothing, and nothing is issued after the answer to that query. -/
theorem quiet_after_release :
    let ds : List (Deed Unit) := [.act (.command .start), .act (.claim 0),
      .act (.save (.ok ())), .drop]
    ((Owned.launched Launch.standard).run ds).isHeld = false ∧
      ((Owned.launched Launch.standard).run ds).isAlive = true ∧
      ((Owned.launched Launch.standard).run ds).issued [.act (.tick 1),
        .act (.answer 0 (.error .timeout)), .act (.tick 1)] = [] := by
  intro ds
  have hresets : Launch.standard.resets ((Owned.launched Launch.standard).actions ds) < 2 ^ 64 := by
    decide
  have hquiet := (issued_after_release Launch.standard ds hresets rfl).2 rfl (by decide)
  exact ⟨rfl, rfl, hquiet _ (by simp [Deed.lingers])⟩

/-- But a query may be issued after the last handle is gone: if the cycle was dropped
while the eager query was on its way, the next tick issues another one. -/
theorem issued_by_released :
    ¬∀ (l : Launch) (ds later : List (Deed Unit)),
      ((Owned.launched l).run ds).isHeld = false →
        ((Owned.launched l).run ds).issued later = [] := by
  intro hclaim
  have hnone : ((Owned.launched Launch.standard).run [.act (.command .start), .act (.claim 0),
      .act (.save (.ok ())), .act (.command .dropCycle), .drop]).issued
        ([.act (.tick 2)] : List (Deed Unit)) = [] := hclaim _ _ _ rfl
  cases hnone

end Polling
end SearchPolling
