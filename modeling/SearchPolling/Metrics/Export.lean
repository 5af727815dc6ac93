import SearchPolling.Decimal.Layout
import SearchPolling.Metrics.Registry

/-!
# The exported metrics

The text in which metrics are exported: families in the order of their names, each
with a line of help, a line with its type, and its samples.  A family without samples
is left out.  Labels are sorted by name and the samples of a family by the values of
their labels in that order; a histogram has a sample for each bound, the number of
observations that do not exceed it, and then the number of all, their sum, and their
number again.

All values are shown in binary64, which has every natural number up to `2^53`.

In label values the backslash, the quote and the line feed are escaped, so that a
sample is always one line.
-/

namespace SearchPolling
namespace Metrics

/-- Numbers have the fewest digits that read back, of two such the greater, and never
an exponent. -/
def numberLayout : Decimal.Layout :=
  { tie := .up, positional := none, showPoint := false }

/-- The text of a number. -/
def numberChars (x : Float) : List Char :=
  if x.isNaN then "NaN".toList
  else if x.isFinite then numberLayout.finite x
  else if x < 0 then "-inf".toList
  else "inf".toList

/-- What a counter shows that was counted up so many times.  It adds one after another in
binary64, where `2^53` and one are `2^53`. -/
def counted (n : Nat) : Float :=
  (min n (1 <<< 53)).toUInt64.toFloat

/-- What a histogram shows for a number of observations, which it has in 64 bits. -/
def observations (n : Nat) : Float :=
  n.toUInt64.toFloat

/-- The kinds of families. -/
inductive Kind where
  | counter
  | gauge
  | histogram
  deriving DecidableEq, Repr

namespace Kind

def name : Kind → String
  | counter => "counter"
  | gauge => "gauge"
  | histogram => "histogram"

end Kind

/-- One exported value. -/
structure Sample where
  /-- What follows the name of the family. -/
  suffix : String
  labels : List (String × String)
  value : List Char
  deriving DecidableEq, Repr

/-- The samples of one metric. -/
structure Family where
  name : String
  help : String
  kind : Kind
  samples : List Sample
  deriving Repr

namespace Sample

/-- A character of a label value. -/
def escapeChar (c : Char) : List Char :=
  if c = '\\' then ['\\', '\\']
  else if c = '"' then ['\\', '"']
  else if c = '\n' then ['\\', 'n']
  else [c]

/-- A label with its value. -/
def labelChars (label : String × String) : List Char :=
  label.1.toList ++ '=' :: '"' :: (label.2.toList.flatMap escapeChar ++ ['"'])

/-- Labels in braces, if there are any. -/
def labelsChars : List (String × String) → List Char
  | [] => []
  | label :: rest =>
    '\x7b' :: (labelChars label ++ rest.flatMap (fun l => ',' :: labelChars l) ++ ['\x7d'])

/-- The line of a sample. -/
def chars (name : String) (s : Sample) : List Char :=
  name.toList ++ s.suffix.toList ++ labelsChars s.labels ++ ' ' :: s.value

end Sample

namespace Family

/-- The lines of a family. -/
def lines (f : Family) : List String :=
  ("# HELP " ++ f.name ++ " " ++ f.help) :: ("# TYPE " ++ f.name ++ " " ++ f.kind.name) ::
    f.samples.map fun s => String.ofList (s.chars f.name)

end Family

/-! ## Samples of a registry -/

/-- Whether label values come before others, or are the same. -/
def labelsLe (a b : List (String × String)) : Bool :=
  decide (¬ b.map (·.2) < a.map (·.2))

/-- Label values with their names, sorted by name. -/
def namedLabels (names values : List String) : List (String × String) :=
  (names.zip values).mergeSort fun a b => decide (a.1 ≤ b.1)

/-- Values with their labels, sorted by label values. -/
def sortedSeries {β : Type} (names : List String) (s : Series β) :
    List (List (String × String) × β) :=
  (s.map fun (values, b) => (namedLabels names values, b)).mergeSort fun a b =>
    labelsLe a.1 b.1

/-- The samples of a counter. -/
def counterSamples (names : List String) (s : Series Nat) : List Sample :=
  (sortedSeries names s).map fun (labels, n) => ⟨"", labels, numberChars (counted n)⟩

/-- The samples of one histogram. -/
def histogramSamples (labels : List (String × String)) (h : Histogram) : List Sample :=
  h.cumulative.map (fun (bound, n) =>
    ⟨"_bucket", labels ++ [("le", String.ofList (numberChars bound))],
      numberChars (observations n)⟩) ++
  [⟨"_bucket", labels ++ [("le", "+Inf")], numberChars (observations h.count)⟩,
   ⟨"_sum", labels, numberChars h.sum⟩,
   ⟨"_count", labels, numberChars (observations h.count)⟩]

/-- The samples of histograms. -/
def histogramsSamples (names : List String) (s : Series Histogram) : List Sample :=
  (sortedSeries names s).flatMap fun (labels, h) => histogramSamples labels h

/-- The sample of a gauge. -/
def gaugeSample (value : UInt64) : List Sample :=
  [⟨"", [], numberChars value.toFloat⟩]

/-- A truth value as a gauge. -/
def flag (b : Bool) : UInt64 :=
  if b then 1 else 0

namespace Registry

/-- All families, in the order of their names. -/
def allFamilies (r : Registry) : List Family := [
  ⟨"alert_poller_http_request_duration_seconds", "HTTP request duration", .histogram,
    histogramsSamples ["method", "endpoint"] r.requestDurations⟩,
  ⟨"alert_poller_http_requests_total", "Total HTTP requests", .counter,
    counterSamples ["method", "endpoint", "status"] r.requests⟩,
  ⟨"alert_poller_poll_active", "Polling state (0=stopped, 1=active)", .gauge,
    gaugeSample (flag r.active)⟩,
  ⟨"alert_poller_poll_congested", "Congestion detected on the last tick", .gauge,
    gaugeSample (flag r.congested)⟩,
  ⟨"alert_poller_poll_queries_in_flight", "Search queries currently outstanding", .gauge,
    gaugeSample r.inFlight⟩,
  ⟨"alert_poller_poll_queries_total", "Completed search queries", .counter,
    counterSamples ["origin", "status"] r.queries⟩,
  ⟨"alert_poller_poll_query_duration_seconds", "Search query duration", .histogram,
    histogramsSamples ["origin"] r.queryDurations⟩,
  ⟨"alert_poller_poll_refresh_interval_seconds", "Configured refresh interval", .gauge,
    gaugeSample r.refreshInterval⟩,
  ⟨"alert_poller_poll_suppressed", "Issuance suppressed by the operator", .gauge,
    gaugeSample (flag r.suppressed)⟩,
  ⟨"alert_poller_poll_ticks_total",
    "Timer ticks by outcome (issued, congested, suppressed)", .counter,
    counterSamples ["outcome"] r.ticks⟩,
  ⟨"alert_poller_state_store_operations_total", "State store operations", .counter,
    counterSamples ["operation", "result"] r.storeOperations⟩]

/-- The families that have samples. -/
def families (r : Registry) : List Family :=
  r.allFamilies.filter fun f => !f.samples.isEmpty

/-- The lines of the exported text; each ends with a line feed. -/
def exportLines (r : Registry) : List String :=
  r.families.flatMap Family.lines

/-- The exported text. -/
def exportText (r : Registry) : String :=
  String.join (r.exportLines.map fun l => l.push '\n')

end Registry
end Metrics
end SearchPolling
