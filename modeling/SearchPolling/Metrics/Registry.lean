import SearchPolling.Polling.Event
import SearchPolling.Text.Fnv

/-!
# The metrics registry

Gauges hold the value last set.  Counters and histograms are kept per tuple of label
values.  A series is known by the hash of its values, written one after another, so
that two tuples with the same hash share one series, which keeps the values it was
opened with.

Of a counter the registry holds how often it was counted up.  The counter itself is a
binary64 number and shows this up to `2^53` (`Metrics.counted`).
-/

namespace SearchPolling
namespace Metrics

/-- What became of a tick. -/
inductive TickOutcome where
  | issued
  | congested
  | suppressed
  deriving DecidableEq, Repr

namespace TickOutcome

def name : TickOutcome → String
  | issued => "issued"
  | congested => "congested"
  | suppressed => "suppressed"

def all : List TickOutcome := [issued, congested, suppressed]

end TickOutcome

/-- One fact that is measured. -/
inductive Measurement where
  | tick (outcome : TickOutcome)
  | congested (value : Bool)
  | active (value : Bool)
  | suppressed (value : Bool)
  | inFlight (count : UInt64)
  | refreshInterval (seconds : UInt64)
  | queryCompleted (origin : Polling.Origin) (success : Bool) (nanoseconds : Nat)
  | queryDiscarded (origin : Polling.Origin)
  | storeOperation (operation : String) (success : Bool)
  | request (method endpoint status : String)
  | requestDuration (method endpoint : String) (seconds : Float)

/-- Observations sorted into buckets. -/
structure Histogram where
  /-- The upper bound of each bucket, ascending, and the number of observations in it
  and in no bucket before it. -/
  buckets : List (Float × Nat)
  sum : Float
  count : Nat

namespace Histogram

/-- A histogram without observations. -/
def withBounds (bounds : List Float) : Histogram :=
  ⟨bounds.map fun b => (b, 0), 0, 0⟩

/-- Counts a value in the first bucket whose bound it does not exceed. -/
def countIn (value : Float) : List (Float × Nat) → List (Float × Nat)
  | [] => []
  | (bound, n) :: rest =>
    if value ≤ bound then (bound, n + 1) :: rest else (bound, n) :: countIn value rest

/-- Adds an observation. -/
def observe (h : Histogram) (value : Float) : Histogram :=
  ⟨countIn value h.buckets, h.sum + value, h.count + 1⟩

/-- The number of observations up to each bound, starting from `before`. -/
def cumulativeFrom (before : Nat) : List (Float × Nat) → List (Float × Nat)
  | [] => []
  | (bound, n) :: rest => (bound, before + n) :: cumulativeFrom (before + n) rest

/-- The number of observations up to each bound. -/
def cumulative (h : Histogram) : List (Float × Nat) :=
  cumulativeFrom 0 h.buckets

end Histogram

/-- Values by tuples of label values, in the order in which they were opened. -/
abbrev Series (β : Type) := List (List String × β)

namespace Series

variable {β : Type}

/-- The hash by which a series is known. -/
def key (labels : List String) : UInt64 :=
  Text.Fnv.hash labels

/-- Changes the value of a series, which is opened if there is none. -/
def update (labels : List String) (opened : β) (f : β → β) : Series β → Series β
  | [] => [(labels, f opened)]
  | (own, value) :: rest =>
    if key own = key labels then (own, f value) :: rest
    else (own, value) :: update labels opened f rest

/-- The value of a series. -/
def get? (labels : List String) : Series β → Option β
  | [] => none
  | (own, value) :: rest => if key own = key labels then some value else get? labels rest

theorem get?_congr {labels other : List String} (h : key labels = key other) (s : Series β) :
    get? labels s = get? other s := by
  induction s with
  | nil => rfl
  | cons entry rest ih =>
      obtain ⟨own, value⟩ := entry
      simp [get?, h, ih]

/-- A series that is changed has the value that follows on its own, and all others have
theirs. -/
theorem get?_update (labels other : List String) (opened : β) (f : β → β) (s : Series β) :
    get? other (update labels opened f s) =
      if key labels = key other then some (f ((get? labels s).getD opened)) else get? other s := by
  induction s with
  | nil => rfl
  | cons entry rest ih =>
      obtain ⟨own, value⟩ := entry
      by_cases hown : key own = key labels
      · by_cases hother : key labels = key other
        · simp [update, get?, hown, hother]
        · simp [update, get?, hown, hother]
      · by_cases hother : key own = key other
        · have hne : ¬key other = key labels := fun h => hown (hother.trans h)
          simp [update, get?, hother, hne, Ne.symm hne]
        · simp [update, get?, hown, hother, ih]

end Series

/-- Everything that is measured. -/
structure Registry where
  requests : Series Nat
  requestDurations : Series Histogram
  ticks : Series Nat
  queries : Series Nat
  queryDurations : Series Histogram
  storeOperations : Series Nat
  inFlight : UInt64
  active : Bool
  congested : Bool
  suppressed : Bool
  refreshInterval : UInt64

namespace Registry

/-- The bounds of request durations, in seconds. -/
def requestBounds : List Float :=
  [0.001, 0.005, 0.01, 0.025, 0.05, 0.1, 0.25, 0.5, 1.0]

/-- The bounds of query durations, in seconds. -/
def queryBounds : List Float :=
  [0.05, 0.1, 0.25, 0.5, 1.0, 2.5, 5.0, 10.0, 30.0, 60.0]

/-- A registry in which nothing has been measured. -/
def fresh : Registry where
  requests := []
  requestDurations := []
  ticks := []
  queries := []
  queryDurations := []
  storeOperations := []
  inFlight := 0
  active := false
  congested := false
  suppressed := false
  refreshInterval := 0

instance : Inhabited Registry := ⟨fresh⟩

/-- Counts once more in a series. -/
def count (labels : List String) (s : Series Nat) : Series Nat :=
  s.update labels 0 (· + 1)

/-- Observes once more in a series. -/
def observe (labels : List String) (bounds : List Float) (value : Float)
    (s : Series Histogram) : Series Histogram :=
  s.update labels (.withBounds bounds) (·.observe value)

/-- A duration in seconds. -/
def seconds (nanoseconds : Nat) : Float :=
  (nanoseconds / 1000000000).toUInt64.toFloat +
    (nanoseconds % 1000000000).toUInt64.toFloat / 1000000000

/-- The registry after one more measurement. -/
def record (r : Registry) : Measurement → Registry
  | .tick outcome => { r with ticks := count [outcome.name] r.ticks }
  | .congested value => { r with congested := value }
  | .active value => { r with active := value }
  | .suppressed value => { r with suppressed := value }
  | .inFlight n => { r with inFlight := n }
  | .refreshInterval n => { r with refreshInterval := n }
  | .queryCompleted origin success nanoseconds =>
    { r with
      queries := count [origin.name, if success then "success" else "failure"] r.queries
      queryDurations :=
        observe [origin.name] queryBounds (seconds nanoseconds) r.queryDurations }
  | .queryDiscarded origin => { r with queries := count [origin.name, "discarded"] r.queries }
  | .storeOperation operation success =>
    { r with
      storeOperations :=
        count [operation, if success then "ok" else "error"] r.storeOperations }
  | .request method endpoint status =>
    { r with requests := count [method, endpoint, status] r.requests }
  | .requestDuration method endpoint duration =>
    { r with
      requestDurations := observe [method, endpoint] requestBounds duration r.requestDurations }

/-- The registry after measurements, in their order. -/
def recordAll (r : Registry) (ms : List Measurement) : Registry :=
  ms.foldl record r

theorem recordAll_append (r : Registry) (ms ns : List Measurement) :
    r.recordAll (ms ++ ns) = (r.recordAll ms).recordAll ns :=
  List.foldl_append

end Registry
end Metrics
end SearchPolling
