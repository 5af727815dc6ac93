import SearchPolling.Proofs.Queries.Outward
import SearchPolling.Proofs.Service.Script

/-!
# Discarded queries do not interfere

The script of a run is what is done in it and the answers that count, in their order;
when late answers come, what they say, and whether they come at all is left out.  Two runs
with the same script are the same to an observer from the first entry to the last.

A query that is answered is left out of the script if and only if there was a reset on its
journey.  (A journey of `2 ^ 64` resets leads back to the cycle from which it started.)
-/

namespace SearchPolling
namespace Polling

variable {κ : Type} [DecidableEq κ]

namespace Launch

/-- What an observer has seen, in its order. -/
def signs (l : Launch) (as : List (Action κ)) : List Sign :=
  l.along Service.signs as

/-- What is done after the launch and the answers that count, in their order. -/
def script (l : Launch) (as : List (Action κ)) : List (Entry κ) :=
  Service.along (fun s a => (s.noted? a).toList) (l.run []) as

def scribe (l : Launch) : Scribe (Action κ) (Entry κ) where
  script := l.script
  noted? past a := (l.run past).noted? a
  script_nil := rfl
  script_concat past a := by
    have hrun : (l.run [] : Service κ).run past = l.run past := by
      rw [← l.run_append, List.nil_append]
    rw [script, Service.along_append, hrun, Service.along, Service.along, List.append_nil, script]

end Launch

namespace Service

omit [DecidableEq κ] in
/-- The signs of an action are those of its effects, and of what is passed and saved. -/
theorem signs_congr {s t : Service κ} (h : s.outward = t.outward) {a b : Action κ}
    (heffects : s.effects a = t.effects b) (hpassed : s.passed a = t.passed b)
    (hsaved : s.saved a = t.saved b) :
    (s.marks a).issued = (t.marks b).issued ∧ s.signs a = t.signs b := by
  have hpart {α : Type} (part : Service κ → α) : part s.outward = part t.outward :=
    congrArg part h
  have hissued : (s.marks a).issued = (t.marks b).issued := by
    have hnext (issues : List (Origin × UInt64)) :
        s.world.nextFlights issues = t.world.nextFlights issues :=
      hpart (·.world.nextFlights issues)
    simp only [marks, heffects, hnext]
  refine ⟨hissued, ?_⟩
  simp only [signs, hissued, outcomes, published, heffects, hpassed, hsaved]

end Service

namespace Launch

/-- Where the same queries were issued, those on their way with the same number are the
same. -/
theorem eq_of_number_eq (l : Launch) {as bs : List (Action κ)}
    (hissued : l.issued as = l.issued bs) {f g : Flight} (hf : f ∈ (l.run as).flights)
    (hg : g ∈ (l.run bs).flights) (hnumber : f.number = g.number) : f = g := by
  have hnodup : ((l.issued as).map (·.number)).Nodup := by
    rw [(l.ledger as).numbers]
    exact List.nodup_range'
  have hmemf : f ∈ l.issued as :=
    (l.ledger as).split.mem_iff.mpr (List.mem_append_right _ hf)
  have hmemg : g ∈ l.issued as := by
    rw [hissued]
    exact (l.ledger bs).split.mem_iff.mpr (List.mem_append_right _ hg)
  exact List.inj_on_of_nodup_map hnodup hmemf hmemg hnumber

/-- Where two runs were the same so far, an entry that they share does the same in both. -/
theorem step_of_entry (l : Launch) {as bs : List (Action κ)}
    (houtward : (l.run as).outward = (l.run bs).outward) (hissued : l.issued as = l.issued bs)
    {a b : Action κ} {e : Entry κ} (ha : (l.run as).noted? a = some e)
    (hb : (l.run bs).noted? b = some e) :
    ((l.run as).step a).outward = ((l.run bs).step b).outward ∧
      ((l.run as).marks a).issued = ((l.run bs).marks b).issued ∧
      (l.run as).signs a = (l.run bs).signs b := by
  cases (l.run as).entering a with
  | late _ _ _ _ hentry => simp [ha] at hentry
  | done hanswers hentry =>
      obtain rfl : e = .done a := by simpa [ha] using hentry
      cases (l.run bs).entering b with
      | late _ _ _ _ hentry => simp [hb] at hentry
      | answered _ _ _ _ _ _ hentry => simp [hb] at hentry
      | done _ hentry =>
          obtain rfl : a = b := by simpa [hb] using hentry
          have heffects : (l.run as).effects a = (l.run bs).effects a := by
            rw [← Service.effects_outward _ hanswers, houtward,
              Service.effects_outward _ hanswers]
          have hpapers := Service.papers_congr houtward a
          refine ⟨?_, Service.signs_congr houtward heffects ?_ ?_⟩
          · rw [Service.outward_step_of_done _ hanswers, houtward,
              ← Service.outward_step_of_done _ hanswers]
          · exact congrArg Papers.passed hpapers
          · exact congrArg Papers.saved hpapers
  | answered place result f haction hplace _ hentry =>
      obtain rfl : e = .answered f.number result := by simpa [ha] using hentry
      cases (l.run bs).entering b with
      | late _ _ _ _ hentry => simp [hb] at hentry
      | done _ hentry => simp [hb] at hentry
      | answered other result' g haction' hplace' _ hentry =>
          obtain ⟨hnumber, rfl⟩ : f.number = g.number ∧ result = result' := by
            simpa [hb] using hentry
          obtain rfl : f = g := l.eq_of_number_eq hissued (List.mem_of_getElem? hplace)
            (List.mem_of_getElem? hplace') hnumber
          rw [haction, haction']
          obtain ⟨heffects, hstep⟩ :=
            Service.outward_step_of_answered houtward hplace hplace' result
          exact ⟨hstep, Service.signs_congr houtward heffects rfl rfl⟩

/-- Runs with the same script are the same outwardly, have issued the same queries, and
have shown the same signs. -/
theorem outward_eq_of_alike (l : Launch) {as bs : List (Action κ)} (h : l.scribe.Alike as bs) :
    (l.run as).outward = (l.run bs).outward ∧ l.issued as = l.issued bs ∧
      l.signs as = l.signs bs := by
  induction h with
  | start => exact ⟨rfl, rfl, rfl⟩
  | @left as bs a _ ha ih =>
      obtain ⟨houtward, hissued, hsigns⟩ := ih
      obtain ⟨hsame, hnone, hunseen⟩ := (l.run as).outward_step_of_late ha
      refine ⟨?_, ?_, ?_⟩
      · rw [l.run_concat, hsame, houtward]
      · rw [issued, l.along_concat, hnone, List.append_nil]
        exact hissued
      · rw [signs, l.along_concat, hunseen, List.append_nil]
        exact hsigns
  | @right as bs b _ hb ih =>
      obtain ⟨houtward, hissued, hsigns⟩ := ih
      obtain ⟨hsame, hnone, hunseen⟩ := (l.run bs).outward_step_of_late hb
      refine ⟨?_, ?_, ?_⟩
      · rw [l.run_concat, hsame, houtward]
      · rw [issued, issued, l.along_concat, hnone, List.append_nil]
        exact hissued
      · rw [signs, signs, l.along_concat, hunseen, List.append_nil]
        exact hsigns
  | @both as bs a b e _ ha hb ih =>
      obtain ⟨houtward, hissued, hsigns⟩ := ih
      obtain ⟨hsame, hmarks, hseen⟩ := l.step_of_entry houtward hissued ha hb
      refine ⟨?_, ?_, ?_⟩
      · rw [l.run_concat, l.run_concat, hsame]
      · rw [issued, issued, l.along_concat, l.along_concat, hmarks]
        exact congrArg (· ++ _) hissued
      · rw [signs, signs, l.along_concat, l.along_concat, hseen]
        exact congrArg (· ++ _) hsigns

/-- Two runs are the same to an observer: they have the same status, have shown the same
signs, and have left the same for subscribers, in the store and in the metrics, where only
the counters of discarded queries may differ. -/
structure Indistinct (l : Launch) (as bs : List (Action κ)) : Prop where
  status_eq : (l.run as).state.status = (l.run bs).state.status
  signs_eq : l.signs as = l.signs bs
  sink_eq : (l.run as).sink = (l.run bs).sink
  store_eq : (l.run as).store = (l.run bs).store
  registry_eq :
    (l.run as).world.registry.withoutDiscarded = (l.run bs).world.registry.withoutDiscarded

theorem indistinct_of_alike (l : Launch) {as bs : List (Action κ)} (h : l.scribe.Alike as bs) :
    l.Indistinct as bs := by
  obtain ⟨houtward, -, hsigns⟩ := l.outward_eq_of_alike h
  have hpart {α : Type} (part : Service κ → α) :
      part (l.run as).outward = part (l.run bs).outward := congrArg part houtward
  exact {
    status_eq := hpart (·.state.status)
    signs_eq := hsigns
    sink_eq := hpart Service.sink
    store_eq := hpart Service.store
    registry_eq := hpart (·.world.registry) }

end Launch

/-- The answer to a query is passed over in the script if and only if there was a reset on
its journey. -/
theorem Journey.noted?_eq_none_iff {l : Launch} {as : List (Action κ)} {f : Flight}
    (j : Journey l as f) : j.arrival.noted? j.answering = none ↔ ¬2 ^ 64 ∣ j.resets := by
  have hplace : j.arrival.flights[j.place]? = some f := j.answered
  rw [← j.cycle_arrival]
  by_cases hcycle : j.arrival.state.cycle = f.cycle
  · have hcurrent : j.arrival.state.isCurrent f.cycle = true := by simpa [State.isCurrent]
    simp [answering, Service.noted?, hplace, hcurrent, hcycle]
  · have hcurrent : j.arrival.state.isCurrent f.cycle = false := by simpa [State.isCurrent]
    simp [answering, Service.noted?, hplace, hcurrent, hcycle]

/-- Two runs with the same script are the same to an observer, in the end and at every
point: to each point of the one corresponds a point of the other with the same script, at
which they are the same.  What the script passes over are the answers to queries that a
reset has discarded: when they come, what they say, and whether they come. -/
theorem discarded_queries_do_not_interfere (l : Launch) (as bs : List (Action κ))
    (hscript : l.script as = l.script bs) :
    l.Indistinct as bs ∧
      (∀ before, before <+: as → ∃ before', before' <+: bs ∧
        l.script before = l.script before' ∧ l.Indistinct before before') ∧
      ∀ (f : Flight) (j : Journey l as f),
        j.arrival.noted? j.answering = none ↔ ¬2 ^ 64 ∣ j.resets := by
  have halike : l.scribe.Alike as bs := Scribe.alike_of_script_eq hscript
  refine ⟨l.indistinct_of_alike halike, ?_, fun f j => j.noted?_eq_none_iff⟩
  intro before hbefore
  obtain ⟨before', hprefix, hcorresponding⟩ := halike.exists_prefix hbefore
  exact ⟨before', hprefix, hcorresponding.script_eq, l.indistinct_of_alike hcorresponding⟩

/-- The query of a start that was dropped may be answered or not: the query of the next
tick is issued and answered all the same. -/
theorem indistinct_after_drop :
    let failure : Except Search.Failure Search.Response := .error .timeout
    let as : List (Action Unit) :=
      [.command .start, .command .dropCycle, .tick 2, .answer 1 failure]
    let bs : List (Action Unit) :=
      [.command .start, .command .dropCycle, .answer 0 failure, .tick 2, .answer 0 failure]
    Launch.standard.script as = Launch.standard.script bs ∧
      Launch.standard.discarded as = [] ∧ Launch.standard.discarded bs = [.eager] ∧
      Launch.standard.Indistinct as bs := by
  intro failure as bs
  have hone : Launch.standard.script as = [.done (.command .start), .done (.command .dropCycle),
      .done (.tick 2), .answered 2 failure] := rfl
  have hother : Launch.standard.script bs = [.done (.command .start),
      .done (.command .dropCycle), .done (.tick 2), .answered 2 failure] := rfl
  have hscript := hone.trans hother.symm
  exact ⟨hscript, rfl, rfl, (discarded_queries_do_not_interfere Launch.standard as bs hscript).1⟩

end Polling
end SearchPolling
