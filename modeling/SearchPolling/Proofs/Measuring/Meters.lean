import SearchPolling.Metrics.Registry

/-!
# Meters

A counter of the registry goes up by one with each measurement of one kind and stays as
it is with all others.  So what it shows after any measurements is how many of them were of
its kind, and balances between counters are balances between what was measured.
-/

namespace SearchPolling
namespace Metrics

/-- What may become of a query. -/
inductive Fate where
  | success
  | failure
  | discarded
  deriving DecidableEq, Repr

namespace Fate

def name : Fate → String
  | success => "success"
  | failure => "failure"
  | discarded => "discarded"

def ofSuccess (success : Bool) : Fate :=
  if success then .success else .failure

end Fate

namespace Measurement

/-- The query that a measurement counts: its origin and what became of it. -/
def fate? : Measurement → Option (Polling.Origin × Fate)
  | queryCompleted origin success _ => some (origin, .ofSuccess success)
  | queryDiscarded origin => some (origin, .discarded)
  | _ => none

/-- The origin of the query whose duration a measurement observes. -/
def completed? : Measurement → Option Polling.Origin
  | queryCompleted origin _ _ => some origin
  | _ => none

def tick? : Measurement → Option TickOutcome
  | tick outcome => some outcome
  | _ => none

/-- Whether a measurement sets a gauge, which counts nothing. -/
def isGauge : Measurement → Bool
  | congested _ => true
  | active _ => true
  | suppressed _ => true
  | inFlight _ => true
  | refreshInterval _ => true
  | _ => false

/-- Whether a measurement is counted among the saves that succeeded, or among those that
failed.  An operation is known by the hash of its labels alone. -/
def countsSave (success : Bool) : Measurement → Bool
  | storeOperation operation result =>
    Series.key [operation, if result then "ok" else "error"] =
      Series.key ["save", if success then "ok" else "error"]
  | _ => false

end Measurement

namespace Registry

/-- What a counter has counted, which is nothing before it is opened. -/
def shown (labels : List String) (s : Series Nat) : Nat :=
  (s.get? labels).getD 0

/-- How many observations a histogram has. -/
def observed (labels : List String) (s : Series Histogram) : Nat :=
  ((s.get? labels).map (·.count)).getD 0

def queriesOf (r : Registry) (origin : Polling.Origin) (fate : Fate) : Nat :=
  shown [origin.name, fate.name] r.queries

def ticksOf (r : Registry) (outcome : TickOutcome) : Nat :=
  shown [outcome.name] r.ticks

def durationsOf (r : Registry) (origin : Polling.Origin) : Nat :=
  observed [origin.name] r.queryDurations

def savesOf (r : Registry) (success : Bool) : Nat :=
  shown ["save", if success then "ok" else "error"] r.storeOperations

theorem shown_count (labels other : List String) (s : Series Nat) :
    shown other (count labels s) =
      shown other s + if Series.key labels = Series.key other then 1 else 0 := by
  rw [shown, count, Series.get?_update]
  by_cases hkey : Series.key labels = Series.key other
  · have hsame : s.get? labels = s.get? other := Series.get?_congr hkey s
    simp [shown, hkey, hsame]
  · simp [shown, hkey]

theorem observed_observe (labels other : List String) (bounds : List Float) (value : Float)
    (s : Series Histogram) :
    observed other (observe labels bounds value s) =
      observed other s + if Series.key labels = Series.key other then 1 else 0 := by
  rw [observed, observe, Series.get?_update]
  by_cases hkey : Series.key labels = Series.key other
  · have hsame : s.get? labels = s.get? other := Series.get?_congr hkey s
    rw [if_pos hkey, if_pos hkey, hsame, observed]
    cases s.get? other <;> rfl
  · simp [observed, hkey]

/-! ## Which labels share a series -/

theorem key_fate (o p : Polling.Origin) (a b : Fate) :
    Series.key [o.name, a.name] = Series.key [p.name, b.name] ↔ (o, a) = (p, b) := by
  cases o <;> cases p <;> cases a <;> cases b <;> decide

theorem key_origin (o p : Polling.Origin) : Series.key [o.name] = Series.key [p.name] ↔ o = p := by
  cases o <;> cases p <;> decide

theorem key_tick (a b : TickOutcome) : Series.key [a.name] = Series.key [b.name] ↔ a = b := by
  cases a <;> cases b <;> decide

theorem key_save (a b : Bool) :
    Series.key ["save", if a then "ok" else "error"] =
      Series.key ["save", if b then "ok" else "error"] ↔ a = b := by
  cases a <;> cases b <;> decide

theorem key_load_ne (a b : Bool) :
    Series.key ["load", if a then "ok" else "error"] ≠
      Series.key ["save", if b then "ok" else "error"] := by
  cases a <;> cases b <;> decide

end Registry

/-! ## Readings -/

/-- A reading that goes up by one with each measurement of a kind.  Gauges are not of that
kind, nor is the reading of the record with which a session begins. -/
structure Meter where
  read : Registry → Nat
  counts : Measurement → Bool
  read_record : ∀ r m, read (r.record m) = read r + if counts m then 1 else 0
  read_fresh : read .fresh = 0
  counts_gauge : ∀ m, m.isGauge = true → counts m = false
  counts_load : ∀ success, counts (.storeOperation "load" success) = false

namespace Meter

theorem read_recordAll (M : Meter) (r : Registry) (ms : List Measurement) :
    M.read (r.recordAll ms) = M.read r + ms.countP M.counts := by
  induction ms generalizing r with
  | nil => rfl
  | cons m ms ih =>
      have hrest : M.read (r.recordAll (m :: ms)) =
          M.read (r.record m) + ms.countP M.counts := ih (r.record m)
      rw [hrest, M.read_record, List.countP_cons]
      omega

@[simp] theorem counts_inFlight (M : Meter) (n : UInt64) : M.counts (.inFlight n) = false :=
  M.counts_gauge _ rfl

@[simp] theorem counts_congested (M : Meter) (b : Bool) : M.counts (.congested b) = false :=
  M.counts_gauge _ rfl

theorem countP_gauges (M : Meter) {ms : List Measurement} (h : ∀ m ∈ ms, m.isGauge = true) :
    ms.countP M.counts = 0 := by
  rw [List.countP_eq_zero]
  intro m hm
  simp [M.counts_gauge m (h m hm)]

def queries (origin : Polling.Origin) (fate : Fate) : Meter where
  read := (·.queriesOf origin fate)
  counts m := m.fate? = some (origin, fate)
  read_record r m := by
    cases m with
    | queryCompleted o success nanoseconds =>
        have hname : (if success then "success" else "failure") = (Fate.ofSuccess success).name := by
          cases success <;> rfl
        simp only [Registry.queriesOf, Registry.record, hname, Registry.shown_count,
          Registry.key_fate, Measurement.fate?, Option.some.injEq, decide_eq_true_eq]
    | queryDiscarded o =>
        have hname : "discarded" = Fate.discarded.name := rfl
        simp only [Registry.queriesOf, Registry.record, hname, Registry.shown_count,
          Registry.key_fate, Measurement.fate?, Option.some.injEq, decide_eq_true_eq]
    | _ => rfl
  read_fresh := rfl
  counts_gauge m h := by
    cases m <;> simp [Measurement.isGauge, Measurement.fate?] at h ⊢
  counts_load _ := rfl

def durations (origin : Polling.Origin) : Meter where
  read := (·.durationsOf origin)
  counts m := m.completed? = some origin
  read_record r m := by
    cases m with
    | queryCompleted o success nanoseconds =>
        simp only [Registry.durationsOf, Registry.record, Registry.observed_observe,
          Registry.key_origin, Measurement.completed?, Option.some.injEq, decide_eq_true_eq]
    | _ => rfl
  read_fresh := rfl
  counts_gauge m h := by
    cases m <;> simp [Measurement.isGauge, Measurement.completed?] at h ⊢
  counts_load _ := rfl

def ticks (outcome : TickOutcome) : Meter where
  read := (·.ticksOf outcome)
  counts m := m.tick? = some outcome
  read_record r m := by
    cases m with
    | tick a =>
        simp only [Registry.ticksOf, Registry.record, Registry.shown_count, Registry.key_tick,
          Measurement.tick?, Option.some.injEq, decide_eq_true_eq]
    | _ => rfl
  read_fresh := rfl
  counts_gauge m h := by
    cases m <;> simp [Measurement.isGauge, Measurement.tick?] at h ⊢
  counts_load _ := rfl

def saves (success : Bool) : Meter where
  read := (·.savesOf success)
  counts := Measurement.countsSave success
  read_record r m := by
    cases m with
    | storeOperation operation result =>
        simp only [Registry.savesOf, Registry.record, Registry.shown_count,
          Measurement.countsSave, decide_eq_true_eq]
    | _ => rfl
  read_fresh := rfl
  counts_gauge m h := by
    cases m <;> simp [Measurement.isGauge, Measurement.countsSave] at h ⊢
  counts_load result := decide_eq_false (Registry.key_load_ne result success)

theorem counts_save (success result : Bool) :
    (saves success).counts (.storeOperation "save" result) = decide (result = success) :=
  decide_eq_decide.mpr (Registry.key_save result success)

end Meter
end Metrics
end SearchPolling
