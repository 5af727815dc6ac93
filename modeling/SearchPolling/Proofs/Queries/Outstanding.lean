import SearchPolling.Proofs.Queries.Ledger

/-!
# Outstanding queries

The state counts the outstanding queries of the current cycle.  A reset sets the count
to zero while the queries that it counted stay on their way, and a query that is
answered lowers the count only if it is of the current cycle.  The count is exact all
the same, as long as the cycles have not come round to a number that was used before.
-/

namespace SearchPolling
namespace Polling

/-- The cycle that a reset opens is later than all before it, unless the cycles come
round. -/
theorem lt_next_cycle {c d : UInt64} (hle : c ≤ d) (hd : d.toNat + 1 < 2 ^ 64) : c < d + 1 := by
  have hnext : (d + 1).toNat = d.toNat + 1 := by
    rw [UInt64.toNat_add]
    exact Nat.mod_eq_of_lt hd
  rw [UInt64.lt_iff_toNat_lt, hnext]
  exact Nat.lt_succ_of_le (UInt64.le_iff_toNat_le.mp hle)

namespace View

variable {v : View}

/-- The count stays exact when a query of the current cycle is issued. -/
theorem outstanding_issue (h : v.outstanding = v.flights.countP (·.cycle = v.cycle)) {f : Flight}
    (hf : f.cycle = v.cycle) :
    (v.issue f).outstanding = (v.issue f).flights.countP (·.cycle = v.cycle) := by
  simp only [issue, List.countP_append, h]
  simp [hf]

/-- The count stays exact when a query lands, be it of the current cycle or not. -/
theorem outstanding_land (h : v.outstanding = v.flights.countP (·.cycle = v.cycle))
    (hnodup : (v.flights.map (·.number)).Nodup) {f : Flight} (hf : f ∈ v.flights) :
    (v.land f).outstanding = (v.land f).flights.countP (·.cycle = v.cycle) := by
  have hperm := Ledger.perm_cons_filter hnodup hf
  have hcount := hperm.countP_eq (p := (·.cycle = v.cycle))
  rw [List.countP_cons, ← h] at hcount
  simp only [land]
  by_cases hcurrent : v.cycle = f.cycle
  · rw [if_pos hcurrent]
    simp only [hcurrent, decide_true, if_true] at hcount ⊢
    omega
  · rw [if_neg hcurrent]
    have hother : decide (f.cycle = v.cycle) = false :=
      decide_eq_false fun heq => hcurrent heq.symm
    rw [hother] at hcount
    exact hcount

end View

/-- The count of a view is that of its queries of the current cycle, and none of its
queries is of a later cycle. -/
structure Accounted (v : View) : Prop where
  outstanding_eq : v.outstanding = v.flights.countP (·.cycle = v.cycle)
  cycle_le : ∀ f ∈ v.flights, f.cycle ≤ v.cycle

namespace Accounted

variable {v : View}

theorem issue (h : Accounted v) {f : Flight} (hf : f.cycle = v.cycle) :
    Accounted (v.issue f) where
  outstanding_eq := View.outstanding_issue h.outstanding_eq hf
  cycle_le := by
    intro g hg
    rcases List.mem_append.mp hg with hold | hnew
    · exact h.cycle_le g hold
    · rw [List.mem_singleton.mp hnew]
      exact UInt64.le_of_eq hf

theorem land (h : Accounted v) (hnodup : (v.flights.map (·.number)).Nodup) {f : Flight}
    (hf : f ∈ v.flights) : Accounted (v.land f) where
  outstanding_eq := View.outstanding_land h.outstanding_eq hnodup hf
  cycle_le := fun g hg => h.cycle_le g (List.mem_filter.mp hg).1

/-- No query on its way is of the cycle that a reset opens. -/
theorem reset (h : Accounted v) (hcycle : v.cycle.toNat + 1 < 2 ^ 64) :
    Accounted { v with cycle := v.cycle + 1, outstanding := 0 } where
  outstanding_eq := by
    symm
    rw [List.countP_eq_zero]
    intro f hf hnew
    have hlt := lt_next_cycle (h.cycle_le f hf) hcycle
    exact UInt64.ne_of_lt hlt (of_decide_eq_true hnew)
  cycle_le := fun f hf => UInt64.le_of_lt (lt_next_cycle (h.cycle_le f hf) hcycle)

/-- Timers and whether polling is active play no part in the count. -/
theorem of_same (h : Accounted v) {w : View} (houtstanding : w.outstanding = v.outstanding)
    (hcycle : w.cycle = v.cycle) (hflights : w.flights = v.flights) : Accounted w where
  outstanding_eq := by rw [houtstanding, hcycle, hflights, h.outstanding_eq]
  cycle_le := by
    rw [hcycle, hflights]
    exact h.cycle_le

end Accounted

variable {κ : Type} [DecidableEq κ]

namespace Service

/-- A step keeps the count exact, unless it resets in the last cycle of all. -/
theorem accounted_step {s : Service κ} (h : Accounted s.view)
    (hnodup : (s.flights.map (·.number)).Nodup) (a : Action κ)
    (hcycle : (s.marks a).resets = true → s.view.cycle.toNat + 1 < 2 ^ 64) :
    Accounted (s.step a).view := by
  apply preserved_of_queries h a
  · intro v w hv houtstanding hcycle hflights _
    exact hv.of_same houtstanding hcycle hflights
  · intro origin
    exact h.issue rfl
  · intro f hf
    exact h.land hnodup hf
  · intro hresets
    exact h.reset (hcycle hresets)

/-- A run keeps the count exact while there are cycles left. -/
theorem accounted_run {start : Nat} {issued landed : List Flight} {s : Service κ}
    (h : Accounted s.view) (hledger : Ledger start s.view issued landed)
    (as : List (Action κ))
    (hcycle : s.view.cycle.toNat + tally (fun s a => (s.marks a).resets) s as < 2 ^ 64) :
    Accounted (s.run as).view := by
  have hrun := run_preserves_bounded
    (P := fun s (_ : List Unit) =>
      Accounted s.view ∧ ∃ issued landed, Ledger start s.view issued landed)
    (g := fun _ _ => []) (n := (·.view.cycle)) (b := fun s a => (s.marks a).resets)
    cycle_step (fun s a _ hs hcycle => ?_) (l := []) ⟨h, issued, landed, hledger⟩ as hcycle
  · exact hrun.1
  · obtain ⟨haccounted, _, _, hsettled⟩ := hs
    exact ⟨accounted_step haccounted hsettled.nodup_flights a hcycle, _, _, hsettled.step a⟩

end Service

theorem Launch.accounted (l : Launch) (as : List (Action κ)) (hresets : l.resets as < 2 ^ 64) :
    Accounted (l.run as).view := by
  have hopened : Accounted (l.opened : Service κ).view := by
    rw [Launch.view_opened]
    exact ⟨rfl, by simp [View.fresh]⟩
  have hcycle : (l.opened : Service κ).view.cycle.toNat + l.resets as < 2 ^ 64 := by
    rw [Launch.view_opened]
    simpa [View.fresh] using hresets
  exact Service.accounted_run hopened l.ledger_opened _ hcycle

/-- Every query that was issued has been answered or is on its way.  The outstanding
queries are exactly those on their way that are of the current cycle, and none on its
way is of a later one; so a query is pending if and only if there is such a query, and
the count is positive whenever an answer lowers it. -/
theorem outstanding_eq_count_current (l : Launch) (as : List (Action κ))
    (hresets : l.resets as < 2 ^ 64) :
    (l.issued as).Perm (l.landed as ++ (l.run as).flights) ∧
      (l.run as).state.outstanding =
        (l.run as).flights.countP (·.cycle = (l.run as).state.cycle) ∧
      (∀ f ∈ (l.run as).flights, f.cycle ≤ (l.run as).state.cycle) ∧
      ((l.run as).state.pending = true ↔
        ∃ f ∈ (l.run as).flights, f.cycle = (l.run as).state.cycle) ∧
      ∀ f ∈ (l.run as).flights, (l.run as).state.isCurrent f.cycle = true →
        0 < (l.run as).state.outstanding := by
  have h : Accounted (l.run as).view := l.accounted as hresets
  have hcount : (l.run as).state.outstanding =
      (l.run as).flights.countP (·.cycle = (l.run as).state.cycle) := h.outstanding_eq
  have hpos : 0 < (l.run as).state.outstanding ↔
      ∃ f ∈ (l.run as).flights, f.cycle = (l.run as).state.cycle := by
    rw [hcount, List.countP_pos_iff]
    simp only [decide_eq_true_eq]
  refine ⟨(l.ledger as).split, hcount, h.cycle_le, ?_, ?_⟩
  · simpa [State.pending] using hpos
  · intro f hf hcurrent
    have hsame : (l.run as).state.cycle = f.cycle := of_decide_eq_true hcurrent
    exact hpos.mpr ⟨f, hf, hsame.symm⟩

/-- A query that a drop leaves behind stays on its way, but is not outstanding. -/
theorem outstanding_after_drop :
    let as : List (Action Unit) := [.command .start, .command .dropCycle, .tick 2]
    Launch.standard.resets as < 2 ^ 64 ∧
      (Launch.standard.run as).flights.map (·.cycle) = [0, 1] ∧
      (Launch.standard.run as).state.outstanding = 1 := by
  intro as
  have hresets : Launch.standard.resets as < 2 ^ 64 := by decide
  have hcount := (outstanding_eq_count_current Launch.standard as hresets).2.1
  refine ⟨hresets, by decide, ?_⟩
  rw [hcount]
  decide

end Polling
end SearchPolling
