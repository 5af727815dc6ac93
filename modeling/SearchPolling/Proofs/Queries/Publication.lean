import Mathlib.Data.List.Nodup
import SearchPolling.Proofs.Queries.Settlement

/-!
# Publication

A query that is issued and answered makes a journey: one step issues it, one answers
it, and between the two anything may happen.  What becomes of it depends on nothing but
the number of resets on its journey.  Without a reset its event is published, once;
after a reset nothing of it is published, and it is counted as discarded, once.

The cycle in which a query was issued is remembered as a number of 64 bits, so that
it comes round after `2 ^ 64` resets.  The results say so.
-/

namespace SearchPolling
namespace Polling

variable {κ : Type} [DecidableEq κ]

namespace Launch

/-- The events that have been published, in their order. -/
def published (l : Launch) (as : List (Action κ)) : List Event :=
  l.along Service.published as

/-- The origins of the queries that have been counted as discarded, in their order. -/
def discarded (l : Launch) (as : List (Action κ)) : List Origin :=
  l.along Service.discarded as

/-- What became of the queries that were answered, in the order of the answers. -/
def settlements (l : Launch) (as : List (Action κ)) : List Settlement :=
  l.along Service.settlements as

end Launch

/-- The way of a query through a run. -/
structure Journey (l : Launch) (as : List (Action κ)) (f : Flight) where
  before : List (Action κ)
  /-- The step that issues the query. -/
  issuing : Action κ
  between : List (Action κ)
  place : Nat
  result : Except Search.Failure Search.Response
  after : List (Action κ)
  course_eq : l.course as = before ++ issuing :: (between ++ .answer place result :: after)
  issued : f ∈ ((l.opened.run before).marks issuing).issued
  answered : (((l.opened.run before).step issuing).run between).flights[place]? = some f

namespace Journey

variable {l : Launch} {as : List (Action κ)} {f : Flight}

/-- The service that has just issued the query. -/
def departure (j : Journey l as f) : Service κ :=
  (l.opened.run j.before).step j.issuing

/-- The service that meets the answer. -/
def arrival (j : Journey l as f) : Service κ :=
  j.departure.run j.between

def answering (j : Journey l as f) : Action κ :=
  .answer j.place j.result

/-- How many cycles are opened between the two steps. -/
def resets (j : Journey l as f) : Nat :=
  Service.tally (fun s a => (s.marks a).resets) j.departure j.between

/-- What becomes of the query. -/
def settlement (j : Journey l as f) : Settlement :=
  if 2 ^ 64 ∣ j.resets then .counted f j.arrival.world.now j.result else .ignored f

/-- A query that arrives is of the current cycle if and only if the cycle has not been
left, or has come round. -/
theorem cycle_arrival (j : Journey l as f) :
    j.arrival.state.cycle = f.cycle ↔ 2 ^ 64 ∣ j.resets := by
  have hissued : j.departure.state.cycle = f.cycle := Service.cycle_issued j.issued
  have hrun : j.arrival.state.cycle = f.cycle + UInt64.ofNat j.resets := by
    rw [arrival, Service.cycle_run, hissued]
    rfl
  rw [hrun, UInt64.add_eq_left, UInt64.ofNat_eq_iff_mod_eq_toNat]
  exact Nat.dvd_iff_mod_eq_zero.symm

/-- The step that answers a query settles it by its journey. -/
theorem settlements_arrival (j : Journey l as f) :
    j.arrival.settlements j.answering = [j.settlement] := by
  have hplace : j.arrival.flights[j.place]? = some f := j.answered
  rw [answering, Service.settlements_answer hplace, settlement]
  by_cases hcycle : j.arrival.state.cycle = f.cycle
  · rw [if_pos hcycle, if_pos (j.cycle_arrival.mp hcycle)]
  · rw [if_neg hcycle, if_neg (fun h => hcycle (j.cycle_arrival.mpr h))]

theorem flight_settlement (j : Journey l as f) : j.settlement.flight = f := by
  rw [settlement]
  split <;> rfl

/-- What a run gives splits at the two steps of a journey. -/
theorem along_eq {α : Type} (j : Journey l as f) (g : Service κ → Action κ → List α) :
    l.along g as =
      Service.along g l.opened j.before ++ (g (l.opened.run j.before) j.issuing ++
        (Service.along g j.departure j.between ++ (g j.arrival j.answering ++
          Service.along g (j.arrival.step j.answering) j.after))) := by
  rw [Launch.along, j.course_eq, Service.along_append, Service.along, Service.along_append,
    Service.along]
  rfl

end Journey

namespace Launch

/-- The queries that have been settled are those that have been answered. -/
theorem settlements_flight (l : Launch) (as : List (Action κ)) :
    (l.settlements as).map (·.flight) = l.landed as := by
  rw [settlements, along, Service.along_map, landed, along]
  congr 1
  funext s a
  simp [Service.settlements, Service.marks, Function.comp_def]

/-- The queries that have been issued have numbers of their own, and so have those that
have been settled. -/
theorem nodup_settlements (l : Launch) (as : List (Action κ)) :
    ((l.settlements as).map (·.flight.number)).Nodup := by
  have hnodup := (l.ledger as).nodup
  rw [List.map_append, List.nodup_append] at hnodup
  have hlanded := hnodup.1
  rw [← settlements_flight, List.map_map] at hlanded
  exact hlanded

/-- Events are published by way of settlements. -/
theorem published_eq_flatMap (l : Launch) (as : List (Action κ)) :
    l.published as = (l.settlements as).flatMap (·.published) := by
  rw [settlements, along, Service.along_flatMap, published, along]
  congr 1
  funext s a
  exact (s.published_eq_flatMap a).1

theorem event_of_settlement (l : Launch) (as : List (Action κ)) {t : Settlement}
    (ht : t ∈ l.settlements as) {e : Event} (he : e ∈ t.published) :
    e.id = t.flight.id ∧ e.origin = t.flight.origin := by
  obtain ⟨before, a, after, -, hsettled⟩ := Service.mem_along ht
  exact Service.event_of_settlement hsettled he

theorem issued_of_settlement (l : Launch) (as : List (Action κ)) {t : Settlement}
    (ht : t ∈ l.settlements as) : t.flight ∈ l.issued as := by
  have hlanded : t.flight ∈ l.landed as := by
    rw [← settlements_flight]
    exact List.mem_map_of_mem ht
  exact (l.ledger as).split.mem_iff.mpr (List.mem_append_left _ hlanded)

/-- Where the identifiers of queries differ, the events with the identifier of a query
are those that its settlements publish. -/
theorem published_filter_id (l : Launch) (as : List (Action κ))
    (hids : ((l.issued as).map (·.id)).Nodup) {f : Flight} (hf : f ∈ l.issued as) :
    (l.published as).filter (·.id = f.id) =
      ((l.settlements as).filter (·.flight.number = f.number)).flatMap (·.published) := by
  rw [published_eq_flatMap, List.filter_flatMap]
  -- A settlement publishes all of its events under the identifier, or none.
  have hown (t : Settlement) (ht : t ∈ l.settlements as) :
      t.published.filter (·.id = f.id) =
        if t.flight.number = f.number then t.published else [] := by
    split
    · next hnumber =>
        rw [List.filter_eq_self]
        intro e he
        have hid : t.flight.id = f.id := by rw [Flight.id, hnumber, Flight.id]
        simp [(l.event_of_settlement as ht he).1, hid]
    · next hnumber =>
        rw [List.filter_eq_nil_iff]
        intro e he heq
        have hid : t.flight.id = f.id := by
          rw [← (l.event_of_settlement as ht he).1]
          exact of_decide_eq_true heq
        have hsame : t.flight = f :=
          List.inj_on_of_nodup_map hids (l.issued_of_settlement as ht) hf hid
        exact hnumber (by rw [hsame])
  rw [List.flatMap_congr hown]
  induction l.settlements as with
  | nil => rfl
  | cons t ts ih =>
      rw [List.flatMap_cons, List.filter_cons, ih]
      by_cases hnumber : t.flight.number = f.number
      · simp [hnumber]
      · simp [hnumber]

end Launch

namespace Journey

variable {l : Launch} {as : List (Action κ)} {f : Flight}

/-- The query counts: one event is published of it, with the outcome of the search. -/
structure Counts (j : Journey l as f) : Prop where
  settlements_eq : (l.settlements as).filter (·.flight.number = f.number) =
    [.counted f j.arrival.world.now j.result]
  sink_eq : (j.arrival.step j.answering).sink =
    (j.arrival.sink.publish (Engine.answerEvent f j.arrival.world.now j.result)).2
  published_eq : ((l.issued as).map (·.id)).Nodup →
    (l.published as).filter (·.id = f.id) =
      [Engine.answerEvent f j.arrival.world.now j.result]

theorem issued_mem (j : Journey l as f) : f ∈ l.issued as := by
  rw [Launch.issued, j.along_eq]
  exact List.mem_append_right _ (List.mem_append_left _ j.issued)

/-- A query is settled once, by its journey. -/
theorem settlements_filter (j : Journey l as f) :
    (l.settlements as).filter (·.flight.number = f.number) = [j.settlement] := by
  have hmem : j.settlement ∈ l.settlements as := by
    rw [Launch.settlements, j.along_eq, j.settlements_arrival]
    simp
  have hfilter := filter_key_eq_singleton (·.flight.number) (l.nodup_settlements as) hmem
  rw [j.flight_settlement] at hfilter
  exact hfilter

theorem published_arrival (j : Journey l as f) :
    j.arrival.published j.answering = j.settlement.published := by
  rw [(j.arrival.published_eq_flatMap j.answering).1, j.settlements_arrival]
  exact List.append_nil _

theorem counts (j : Journey l as f) (h : 2 ^ 64 ∣ j.resets) : j.Counts := by
  have hsettlement : j.settlement = .counted f j.arrival.world.now j.result := if_pos h
  have hfilter := j.settlements_filter
  rw [hsettlement] at hfilter
  refine ⟨hfilter, ?_, ?_⟩
  · have hpublished := j.published_arrival
    rw [hsettlement] at hpublished
    rw [answering, Service.sink_answer, ← answering, hpublished]
    rfl
  · intro hids
    rw [l.published_filter_id as hids j.issued_mem, hfilter]
    rfl

end Journey

end Polling
end SearchPolling
