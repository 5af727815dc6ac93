import SearchPolling.Proofs.Exporting.Buckets
import SearchPolling.Proofs.Exporting.Counts
import SearchPolling.Proofs.Exporting.Rows

/-!
# Families in an export

Each family of the registry is kept of certain measurements, and has certain rows in the
exported text.

* Of a family of counters there is one row for each hash that label values have had, with the
  first values that had it and the number of all that did (`Counter.filter_rows`).  So label
  values whose hash no others have had have a row of their own, which shows how often they were
  used (`Counter.filter_rows_of_alone`).
* Of a family of histograms there are, in the same way, the rows of one histogram for each
  hash, and each bucket shows how many of the observed values do not exceed its bound
  (`Timing.filter_rows`).

Counters stay at `2^53` once they are there.
-/

namespace SearchPolling
namespace Metrics

open Exposition (Line Row)
open Series (alike alike_of_alone grow key)

variable {α β : Type}

/-- A series that is kept of measurements has grown with those that concern it. -/
theorem series_recordAll {series : Registry → Series β} {use : Measurement → Option α}
    {labelsOf : α → List String} {opened : β} {after : β → α → β}
    (hfresh : series .fresh = [])
    (hrecord : ∀ r m, series (r.record m) = (use m).elim (series r) fun u =>
      Series.update (labelsOf u) opened (after · u) (series r))
    (ms : List Measurement) :
    series (Registry.fresh.recordAll ms) = grow labelsOf opened after (ms.filterMap use) := by
  induction ms using List.reverseRecOn with
  | nil => exact hfresh
  | append_singleton ms m ih =>
      have hlast : Registry.fresh.recordAll (ms ++ [m]) = (Registry.fresh.recordAll ms).record m :=
        Registry.recordAll_append _ ms [m]
      rw [hlast, hrecord, ih, List.filterMap_append]
      cases hm : use m with
      | none => simp [hm]
      | some u => simp [hm, grow, List.foldl_append]

/-- Rows of which it is known how they were grouped can be picked by group. -/
theorem filter_flatMap_of_forall {l : List α} {rowsOf : α → List β} {p : α → Bool} {q : β → Bool}
    (h : ∀ a, ∀ b ∈ rowsOf a, q b = p a) :
    (l.flatMap rowsOf).filter q = (l.filter p).flatMap rowsOf := by
  induction l with
  | nil => rfl
  | cons a l ih =>
      rw [List.flatMap_cons, List.filter_append, ih, List.filter_cons]
      cases hp : p a with
      | true =>
          have hall : (rowsOf a).filter q = rowsOf a :=
            List.filter_eq_self.mpr fun b hb => (h a b hb).trans hp
          simp [hall]
      | false =>
          have hnone : (rowsOf a).filter q = [] :=
            List.filter_eq_nil_iff.mpr fun b hb hq => by
              rw [h a b hb, hp] at hq
              cases hq
          simp [hnone]

theorem filter_and (rows : List Row) (p q : Row → Prop) [DecidablePred p] [DecidablePred q] :
    rows.filter (fun row => p row ∧ q row) =
      (rows.filter fun row => p row).filter fun row => q row := by
  rw [List.filter_filter]
  apply List.filter_congr
  intro row _
  rw [Bool.decide_and, Bool.and_comm]

/-- Of the rows whose labels have one hash, those with given labels. -/
theorem filter_of_values (rows : List Row) (p : Row → Prop) [DecidablePred p]
    (valuesIn : Row → List String) (x : List String) :
    rows.filter (fun row => p row ∧ valuesIn row = x) =
      (rows.filter fun row => p row ∧ key (valuesIn row) = key x).filter
        fun row => valuesIn row = x := by
  rw [← filter_and]
  apply List.filter_congr
  intro row _
  rw [decide_eq_decide]
  constructor
  · rintro ⟨hp, rfl⟩
    exact ⟨⟨hp, rfl⟩, rfl⟩
  · rintro ⟨⟨hp, -⟩, hvalues⟩
    exact ⟨hp, hvalues⟩

/-- The rows of a family that has one name for all. -/
theorem filter_name_written {r : Registry} {f : Family} (h : f ∈ r.allFamilies)
    (hkind : f.kind.suffixes = [""]) :
    (Exposition.rows r.written).filter (fun row => row.name = f.name) = f.rows := by
  have hfamily := Registry.filter_rows_written h
  simpa only [Family.rowNames, hkind, List.map_cons, List.map_nil, String.append_empty,
    List.mem_singleton] using hfamily

/-! ## Gauges -/

/-- A family of one gauge, and what it shows. -/
structure Gauge where
  name : String
  help : String
  value : Registry → UInt64
  mem : ∀ r : Registry, ⟨name, help, .gauge, gaugeSample (value r)⟩ ∈ r.allFamilies

namespace Gauge

def active : Gauge where
  name := "alert_poller_poll_active"
  help := "Polling state (0=stopped, 1=active)"
  value r := flag r.active
  mem r := by
    simp [Registry.allFamilies]

def congested : Gauge where
  name := "alert_poller_poll_congested"
  help := "Congestion detected on the last tick"
  value r := flag r.congested
  mem r := by
    simp [Registry.allFamilies]

def inFlight : Gauge where
  name := "alert_poller_poll_queries_in_flight"
  help := "Search queries currently outstanding"
  value r := r.inFlight
  mem r := by
    simp [Registry.allFamilies]

def refreshInterval : Gauge where
  name := "alert_poller_poll_refresh_interval_seconds"
  help := "Configured refresh interval"
  value r := r.refreshInterval
  mem r := by
    simp [Registry.allFamilies]

def suppressed : Gauge where
  name := "alert_poller_poll_suppressed"
  help := "Issuance suppressed by the operator"
  value r := flag r.suppressed
  mem r := by
    simp [Registry.allFamilies]

def all : List Gauge :=
  [active, congested, inFlight, refreshInterval, suppressed]

/-- The sample of a gauge that shows a value. -/
def row (g : Gauge) (value : UInt64) : Row :=
  ⟨g.name, [], String.ofList (numberChars value.toFloat)⟩

theorem filter_name (g : Gauge) (r : Registry) :
    (Exposition.rows r.written).filter (fun row => row.name = g.name) = [g.row (g.value r)] := by
  rw [filter_name_written (g.mem r) rfl]
  simp [Family.rows, gaugeSample, Sample.row, row]

end Gauge

/-! ## Counters -/

/-- A family of counters, and what it counts. -/
structure Counter where
  name : String
  help : String
  labels : List String
  series : Registry → Series Nat
  /-- The label values under which a measurement is counted, if it is. -/
  use : Measurement → Option (List String)
  nodup : labels.Nodup
  length_use : ∀ m x, use m = some x → x.length = labels.length
  series_fresh : series .fresh = []
  series_record : ∀ r m, series (r.record m) =
    (use m).elim (series r) fun x => Registry.count x (series r)
  mem : ∀ r : Registry,
    ⟨name, help, .counter, counterSamples labels (series r)⟩ ∈ r.allFamilies

namespace Counter

def requests : Counter where
  name := "alert_poller_http_requests_total"
  help := "Total HTTP requests"
  labels := ["method", "endpoint", "status"]
  series := Registry.requests
  use
    | .request method endpoint status => some [method, endpoint, status]
    | _ => none
  nodup := by decide
  length_use m x h := by
    cases m <;> cases h
    rfl
  series_fresh := rfl
  series_record r m := by
    cases m <;> rfl
  mem r := by
    simp [Registry.allFamilies]

def ticks : Counter where
  name := "alert_poller_poll_ticks_total"
  help := "Timer ticks by outcome (issued, congested, suppressed)"
  labels := ["outcome"]
  series := Registry.ticks
  use
    | .tick outcome => some [outcome.name]
    | _ => none
  nodup := by decide
  length_use m x h := by
    cases m <;> cases h
    rfl
  series_fresh := rfl
  series_record r m := by
    cases m <;> rfl
  mem r := by
    simp [Registry.allFamilies]

def queries : Counter where
  name := "alert_poller_poll_queries_total"
  help := "Completed search queries"
  labels := ["origin", "status"]
  series := Registry.queries
  use
    | .queryCompleted origin success _ =>
      some [origin.name, if success then "success" else "failure"]
    | .queryDiscarded origin => some [origin.name, "discarded"]
    | _ => none
  nodup := by decide
  length_use m x h := by
    cases m <;> cases h <;> rfl
  series_fresh := rfl
  series_record r m := by
    cases m <;> rfl
  mem r := by
    simp [Registry.allFamilies]

def storeOperations : Counter where
  name := "alert_poller_state_store_operations_total"
  help := "State store operations"
  labels := ["operation", "result"]
  series := Registry.storeOperations
  use
    | .storeOperation operation success => some [operation, if success then "ok" else "error"]
    | _ => none
  nodup := by decide
  length_use m x h := by
    cases m <;> cases h
    rfl
  series_fresh := rfl
  series_record r m := by
    cases m <;> rfl
  mem r := by
    simp [Registry.allFamilies]

def all : List Counter :=
  [requests, ticks, queries, storeOperations]

variable (c : Counter)

/-- The label values under which something was counted, one call after another. -/
def uses (ms : List Measurement) : List (List String) :=
  ms.filterMap c.use

/-- The sample of label values that were used so many times. -/
def row (x : List String) (n : Nat) : Row :=
  ⟨c.name, namedLabels c.labels x, toString (min n (2 ^ 53))⟩

/-- The values of the labels of a row. -/
def valuesIn (row : Row) : List String :=
  valuesOf c.labels row.labels

variable {c}

theorem valuesIn_row {x : List String} (h : x.length = c.labels.length) (n : Nat) :
    c.valuesIn (c.row x n) = x :=
  valuesOf_namedLabels c.nodup h

theorem length_of_mem_uses {ms : List Measurement} {x : List String} (h : x ∈ c.uses ms) :
    x.length = c.labels.length := by
  obtain ⟨m, -, hm⟩ := List.mem_filterMap.mp h
  exact c.length_use m x hm

theorem series_eq (ms : List Measurement) :
    c.series (Registry.fresh.recordAll ms) = grow id 0 (fun n _ => n + 1) (c.uses ms) :=
  series_recordAll c.series_fresh c.series_record ms

/-- All samples of a family of counters. -/
theorem filter_name (r : Registry) :
    (Exposition.rows r.written).filter (fun row => row.name = c.name) =
      (sortedSeries c.labels (c.series r)).map fun entry =>
        ⟨c.name, entry.1, toString (min entry.2 (2 ^ 53))⟩ := by
  rw [filter_name_written (c.mem r) rfl, Family.rows, counterSamples, List.map_map]
  apply List.map_congr_left
  intro entry _
  simp [Sample.row, numberChars_counted]

/-- Of each hash that labels have had there is one sample. -/
theorem filter_rows (ms : List Measurement) (x : List String) :
    (Exposition.rows (Registry.fresh.recordAll ms).written).filter
        (fun row => row.name = c.name ∧ key (c.valuesIn row) = key x) =
      (alike id x (c.uses ms)).head?.toList.map fun first =>
        c.row first (alike id x (c.uses ms)).length := by
  have hentries : alike (fun entry => valuesOf c.labels entry.1) x
        (sortedSeries c.labels (grow id 0 (fun n _ => n + 1) (c.uses ms))) =
      (alike id x (c.uses ms)).head?.toList.map fun first =>
        (namedLabels c.labels first, (alike id x (c.uses ms)).foldl (fun n _ => n + 1) 0) :=
    Series.alike_sortedSeries c.nodup (fun _ hx => length_of_mem_uses hx) x
  calc
    _ = (alike (fun entry => valuesOf c.labels entry.1) x (sortedSeries c.labels
          (grow id 0 (fun n _ => n + 1) (c.uses ms)))).map fun entry =>
            ⟨c.name, entry.1, toString (min entry.2 (2 ^ 53))⟩ := by
      rw [filter_and, filter_name, series_eq, List.filter_map]
      rfl
    _ = _ := by
      rw [hentries, List.map_map, Series.foldl_succ]
      rfl

/-- Label values whose hash no others have had have a sample of their own, if they were used. -/
theorem filter_rows_of_alone {ms : List Measurement} {x : List String}
    (halone : ∀ y ∈ c.uses ms, key y = key x → y = x) :
    (Exposition.rows (Registry.fresh.recordAll ms).written).filter
        (fun row => row.name = c.name ∧ c.valuesIn row = x) =
      if x ∈ c.uses ms then [c.row x ((c.uses ms).count x)] else [] := by
  rw [filter_of_values _ (fun row => row.name = c.name), filter_rows,
    Series.alike_id_of_alone halone, List.length_replicate]
  split
  · next hx =>
      obtain ⟨n, hn⟩ := Nat.exists_eq_succ_of_ne_zero (List.count_pos_iff.mpr hx).ne'
      simp [hn, List.replicate_succ, valuesIn_row (length_of_mem_uses hx)]
  · next hx =>
      rw [List.count_eq_zero_of_not_mem hx]
      rfl

end Counter

/-! ## Histograms -/

/-- A family of histograms, and what it observes. -/
structure Timing where
  name : String
  help : String
  labels : List String
  bounds : List Float
  series : Registry → Series Histogram
  /-- The label values under which a measurement is observed, if it is, and its value. -/
  use : Measurement → Option (List String × Float)
  nodup : labels.Nodup
  le_notMem : "le" ∉ labels
  ascending : bounds.Pairwise (· ≤ ·)
  length_use : ∀ m u, use m = some u → u.1.length = labels.length
  series_fresh : series .fresh = []
  series_record : ∀ r m, series (r.record m) =
    (use m).elim (series r) fun u => Registry.observe u.1 bounds u.2 (series r)
  mem : ∀ r : Registry,
    ⟨name, help, .histogram, histogramsSamples labels (series r)⟩ ∈ r.allFamilies

namespace Timing

def requestDurations : Timing where
  name := "alert_poller_http_request_duration_seconds"
  help := "HTTP request duration"
  labels := ["method", "endpoint"]
  bounds := Registry.requestBounds
  series := Registry.requestDurations
  use
    | .requestDuration method endpoint seconds => some ([method, endpoint], seconds)
    | _ => none
  nodup := by decide
  le_notMem := by decide
  ascending := pairwise_requestBounds
  length_use m u h := by
    cases m <;> cases h
    rfl
  series_fresh := rfl
  series_record r m := by
    cases m <;> rfl
  mem r := by
    simp [Registry.allFamilies]

def queryDurations : Timing where
  name := "alert_poller_poll_query_duration_seconds"
  help := "Search query duration"
  labels := ["origin"]
  bounds := Registry.queryBounds
  series := Registry.queryDurations
  use
    | .queryCompleted origin _ nanoseconds => some ([origin.name], Registry.seconds nanoseconds)
    | _ => none
  nodup := by decide
  le_notMem := by decide
  ascending := pairwise_queryBounds
  length_use m u h := by
    cases m <;> cases h
    rfl
  series_fresh := rfl
  series_record r m := by
    cases m <;> rfl
  mem r := by
    simp [Registry.allFamilies]

def all : List Timing :=
  [requestDurations, queryDurations]

variable (t : Timing)

/-- The values that were observed, with their labels, one after another. -/
def uses (ms : List Measurement) : List (List String × Float) :=
  ms.filterMap t.use

/-- A histogram after one more value. -/
def after (h : Histogram) (use : List String × Float) : Histogram :=
  h.observe use.2

def rowNames : List String :=
  [t.name ++ "_bucket", t.name ++ "_sum", t.name ++ "_count"]

def valuesIn (row : Row) : List String :=
  valuesOf t.labels row.labels

/-- The text of a number of observations. -/
def number (n : Nat) : String :=
  String.ofList (numberChars (observations n))

/-- A bucket, with the number of values that do not exceed its bound. -/
def bucket (x : List String) (values : List Float) (bound : Float) : Row :=
  ⟨t.name ++ "_bucket", namedLabels t.labels x ++ [("le", String.ofList (numberChars bound))],
    number (values.countP fun value => value ≤ bound)⟩

/-- The samples of values that were observed under the same labels: the buckets, a last bucket
for all, the sum, and the number. -/
def rows (x : List String) (values : List Float) : List Row :=
  t.bounds.map (t.bucket x values) ++
    [⟨t.name ++ "_bucket", namedLabels t.labels x ++ [("le", "+Inf")], number values.length⟩,
      ⟨t.name ++ "_sum", namedLabels t.labels x,
        String.ofList (numberChars (values.foldl (· + ·) 0))⟩,
      ⟨t.name ++ "_count", namedLabels t.labels x, number values.length⟩]

variable {t}

theorem length_of_mem_uses {ms : List Measurement} {u : List String × Float} (h : u ∈ t.uses ms) :
    u.1.length = t.labels.length := by
  obtain ⟨m, -, hm⟩ := List.mem_filterMap.mp h
  exact t.length_use m u hm

theorem series_eq (ms : List Measurement) :
    t.series (Registry.fresh.recordAll ms) =
      grow Prod.fst (.withBounds t.bounds) after (t.uses ms) :=
  series_recordAll t.series_fresh t.series_record ms

/-- All samples of a family of histograms. -/
theorem filter_name (r : Registry) :
    (Exposition.rows r.written).filter (fun row => row.name ∈ t.rowNames) =
      (sortedSeries t.labels (t.series r)).flatMap fun entry =>
        (histogramSamples entry.1 entry.2).map (Sample.row t.name) := by
  have hfamily := Registry.filter_rows_written (t.mem r)
  have hnames : Family.rowNames ⟨t.name, t.help, .histogram,
      histogramsSamples t.labels (t.series r)⟩ = t.rowNames := rfl
  rw [hnames] at hfamily
  rw [hfamily, Family.rows, histogramsSamples, List.map_flatMap]

/-- All samples of one histogram have its labels. -/
theorem valuesIn_histogramSamples {labels : List (String × String)} {h : Histogram} :
    ∀ row ∈ (histogramSamples labels h).map (Sample.row t.name),
      t.valuesIn row = valuesOf t.labels labels := by
  intro row hrow
  obtain ⟨sample, hsample, rfl⟩ := List.mem_map.mp hrow
  rcases List.mem_append.mp hsample with hbucket | hlast
  · obtain ⟨bucket, -, rfl⟩ := List.mem_map.mp hbucket
    exact valuesOf_concat t.le_notMem labels _
  · simp only [List.mem_cons, List.not_mem_nil, or_false] at hlast
    rcases hlast with rfl | rfl | rfl
    · exact valuesOf_concat t.le_notMem labels _
    · rfl
    · rfl

theorem map_row_histogramSamples (x : List String) (values : List Float) :
    (histogramSamples (namedLabels t.labels x) (.ofValues t.bounds values)).map
      (Sample.row t.name) = t.rows x values := by
  rw [histogramSamples, Histogram.cumulative_ofValues t.ascending, Histogram.sum_ofValues,
    Histogram.count_ofValues]
  simp [rows, bucket, number, Sample.row]

/-- Of each hash that labels have had there is one set of samples. -/
theorem filter_rows (ms : List Measurement) (x : List String) :
    (Exposition.rows (Registry.fresh.recordAll ms).written).filter
        (fun row => row.name ∈ t.rowNames ∧ key (t.valuesIn row) = key x) =
      (alike Prod.fst x (t.uses ms)).head?.toList.flatMap fun first =>
        t.rows first.1 ((alike Prod.fst x (t.uses ms)).map Prod.snd) := by
  have hentries : alike (fun entry => valuesOf t.labels entry.1) x
        (sortedSeries t.labels (grow Prod.fst (.withBounds t.bounds) after (t.uses ms))) =
      (alike Prod.fst x (t.uses ms)).head?.toList.map fun first =>
        (namedLabels t.labels first.1,
          (alike Prod.fst x (t.uses ms)).foldl after (.withBounds t.bounds)) :=
    Series.alike_sortedSeries t.nodup (fun _ hu => length_of_mem_uses hu) x
  have hvalues : (alike Prod.fst x (t.uses ms)).foldl after (.withBounds t.bounds) =
      .ofValues t.bounds ((alike Prod.fst x (t.uses ms)).map Prod.snd) := by
    rw [Histogram.ofValues, List.foldl_map]
    rfl
  calc
    _ = (alike (fun entry => valuesOf t.labels entry.1) x (sortedSeries t.labels
          (grow Prod.fst (.withBounds t.bounds) after (t.uses ms)))).flatMap
          fun entry => (histogramSamples entry.1 entry.2).map (Sample.row t.name) := by
      rw [filter_and, filter_name, series_eq, filter_flatMap_of_forall]
      · rfl
      · intro entry row hrow
        rw [valuesIn_histogramSamples row hrow]
    _ = _ := by
      rw [hentries, hvalues, List.flatMap_map]
      simp only [map_row_histogramSamples]

theorem valuesIn_rows {x : List String} (h : x.length = t.labels.length) (values : List Float) :
    ∀ row ∈ t.rows x values, t.valuesIn row = x := by
  intro row hrow
  rw [← map_row_histogramSamples] at hrow
  rw [valuesIn_histogramSamples row hrow, valuesOf_namedLabels t.nodup h]

/-- Label values whose hash no others have had have samples of their own, if they were used. -/
theorem filter_rows_of_alone {ms : List Measurement} {x : List String}
    (halone : ∀ u ∈ t.uses ms, key u.1 = key x → u.1 = x) :
    (Exposition.rows (Registry.fresh.recordAll ms).written).filter
        (fun row => row.name ∈ t.rowNames ∧ t.valuesIn row = x) =
      if x ∈ (t.uses ms).map Prod.fst
      then t.rows x (((t.uses ms).filter fun u => u.1 = x).map Prod.snd) else [] := by
  rw [filter_of_values _ (fun row => row.name ∈ t.rowNames), filter_rows, alike_of_alone halone]
  cases hsame : (t.uses ms).filter fun u => u.1 = x with
  | nil =>
      have hnone : x ∉ (t.uses ms).map Prod.fst := by
        intro hx
        obtain ⟨u, hu, rfl⟩ := List.mem_map.mp hx
        exact List.filter_eq_nil_iff.mp hsame u hu (decide_eq_true rfl)
      rw [if_neg hnone]
      rfl
  | cons first rest =>
      have hfirst : first ∈ (t.uses ms).filter fun u => u.1 = x := by
        rw [hsame]
        exact List.mem_cons_self
      obtain ⟨hmem, hlabels⟩ := List.mem_filter.mp hfirst
      obtain rfl := of_decide_eq_true hlabels
      rw [if_pos (List.mem_map_of_mem hmem), List.head?_cons, Option.toList_some,
        List.flatMap_singleton, List.filter_eq_self]
      intro row hrow
      exact decide_eq_true (valuesIn_rows (length_of_mem_uses hmem) _ row hrow)

end Timing

end Metrics
end SearchPolling
