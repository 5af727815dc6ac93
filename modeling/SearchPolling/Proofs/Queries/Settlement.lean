import SearchPolling.Proofs.Queries.Ledger
import SearchPolling.Proofs.Service.Routine

/-!
# What becomes of an answer

An answer is settled when it has been decided whether it counts: either its event is
published, or its query is counted as discarded.  Nothing but an answer publishes an
event or counts a query as discarded.
-/

namespace SearchPolling
namespace Polling

namespace Effect

/-- Whether an effect settles an answer. -/
def settles : Effect → Bool
  | publish _ => true
  | measure (.queryDiscarded _) => true
  | _ => false

/-- No effect among these settles an answer. -/
def Unsettling (es : List Effect) : Prop :=
  ∀ e ∈ es, e.settles = false

/-- Routine effects settle no answer. -/
theorem Routine.unsettling {interval : UInt64} {es : List Effect} (h : Routine interval es) :
    Unsettling es := by
  intro e he
  have hroutine := h e he
  cases e with
  | publish _ => cases hroutine
  | measure m =>
      cases m with
      | queryDiscarded _ => cases hroutine
      | _ => rfl
  | _ => rfl

theorem Unsettling.events {es : List Effect} (h : Unsettling es) :
    es.filterMap event? = [] := by
  rw [List.filterMap_eq_nil_iff]
  intro e he
  have hsettles := h e he
  cases e with
  | publish _ => cases hsettles
  | _ => rfl

theorem Unsettling.discards {es : List Effect} (h : Unsettling es) :
    es.filterMap discarded? = [] := by
  rw [List.filterMap_eq_nil_iff]
  intro e he
  have hsettles := h e he
  cases e with
  | measure m =>
      cases m with
      | queryDiscarded _ => cases hsettles
      | _ => rfl
  | _ => rfl

end Effect

open Effect (Unsettling)

/-! ## Settlements -/

/-- What becomes of a query that is answered. -/
structure Settlement where
  flight : Flight
  /-- The events that are published. -/
  published : List Event
  /-- The origins of the queries that are counted as discarded. -/
  discarded : List Origin

namespace Settlement

def counted (f : Flight) (now : Nat) (result : Except Search.Failure Search.Response) :
    Settlement :=
  ⟨f, [Engine.answerEvent f now result], []⟩

def ignored (f : Flight) : Settlement :=
  ⟨f, [], [f.origin]⟩

end Settlement

namespace Service

variable {κ : Type}

/-- The events that an action publishes. -/
def published (s : Service κ) (a : Action κ) : List Event :=
  (s.effects a).filterMap Effect.event?

/-- The origins of the queries that an action counts as discarded. -/
def discarded (s : Service κ) (a : Action κ) : List Origin :=
  (s.effects a).filterMap Effect.discarded?

/-- What becomes of the query that an action answers. -/
def settlements (s : Service κ) (a : Action κ) : List Settlement :=
  (s.landed a).map fun f => ⟨f, s.published a, s.discarded a⟩

/-- An action answers one query at most. -/
theorem landed_cases (s : Service κ) (a : Action κ) :
    s.landed a = [] ∨ ∃ place result f, a = .answer place result ∧
      s.flights[place]? = some f ∧ s.landed a = [f] := by
  cases a with
  | answer place result =>
      cases hplace : s.flights[place]? with
      | none => exact Or.inl (by simp [landed, hplace])
      | some f => exact Or.inr ⟨place, result, f, rfl, hplace, by simp [landed, hplace]⟩
  | _ => exact Or.inl rfl

/-- All events are published, and all queries are counted as discarded, by way of
settlements. -/
theorem published_eq_flatMap (s : Service κ) (a : Action κ) :
    s.published a = (s.settlements a).flatMap (·.published) ∧
      s.discarded a = (s.settlements a).flatMap (·.discarded) := by
  rcases s.landed_cases a with hnone | ⟨place, result, f, _, _, hlanded⟩
  · have hquiet := (routine_effects hnone).unsettling
    simp [settlements, hnone, published, discarded, hquiet.events, hquiet.discards]
  · simp [settlements, hlanded]

/-- An answer is settled by whether its query is of the current cycle. -/
theorem settlements_answer {s : Service κ} {place : Nat} {f : Flight}
    (h : s.flights[place]? = some f) (result : Except Search.Failure Search.Response) :
    s.settlements (.answer place result) =
      [if s.state.cycle = f.cycle then .counted f s.world.now result else .ignored f] := by
  have hretire := (s.state.routine_retire 0 f.cycle).unsettling
  have hlanded : s.landed (.answer place result) = [f] := by simp [landed, h]
  have heffects : s.effects (.answer place result) =
      (s.state.retire f.cycle).effects ++
        Engine.answerEffects (s.state.isCurrent f.cycle) f s.world.now result := by
    simp only [effects, h]
  rw [settlements, hlanded, List.map_singleton]
  simp only [published, discarded, heffects, List.filterMap_append, hretire.events,
    hretire.discards, List.nil_append]
  by_cases hcycle : s.state.cycle = f.cycle
  · have hcurrent : s.state.isCurrent f.cycle = true := by simpa [State.isCurrent]
    rw [hcurrent, if_pos hcycle]
    rfl
  · have hcurrent : s.state.isCurrent f.cycle = false := by simpa [State.isCurrent]
    rw [hcurrent, if_neg hcycle]
    rfl

/-- What is published of a query bears its identifier and its origin. -/
theorem event_of_settlement {s : Service κ} {a : Action κ} {t : Settlement}
    (ht : t ∈ s.settlements a) {e : Event} (he : e ∈ t.published) :
    e.id = t.flight.id ∧ e.origin = t.flight.origin := by
  rcases s.landed_cases a with hnone | ⟨place, result, f, rfl, hplace, _⟩
  · simp [settlements, hnone] at ht
  · rw [settlements_answer hplace, List.mem_singleton] at ht
    split at ht
    · rw [ht] at he ⊢
      obtain rfl := List.mem_singleton.mp he
      exact ⟨rfl, rfl⟩
    · rw [ht] at he
      cases he

/-- An answer to a query of another cycle has no effects but that it is ignored. -/
theorem effects_ignored {s : Service κ} {place : Nat} {f : Flight}
    (h : s.flights[place]? = some f) (hcycle : s.state.cycle ≠ f.cycle)
    (result : Except Search.Failure Search.Response) :
    s.effects (.answer place result) = Engine.ignoredEffects f := by
  have hcurrent : s.state.isCurrent f.cycle = false := by simpa [State.isCurrent]
  simp only [effects, h, State.retire, hcurrent, Engine.answerEffects, Bool.false_eq_true,
    if_false, List.nil_append]

variable [DecidableEq κ]

/-- The events of an answer reach the sink. -/
theorem sink_answer (s : Service κ) (place : Nat)
    (result : Except Search.Failure Search.Response) :
    (s.step (.answer place result)).sink =
      (s.published (.answer place result)).foldl (fun k e => (k.publish e).2) s.sink := by
  rw [sink, step_placed, Engine.performAll_sink]
  simp only [base]
  split <;> rfl

end Service
end Polling
end SearchPolling
