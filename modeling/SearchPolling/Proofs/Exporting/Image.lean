import SearchPolling.Proofs.Exporting.Families

/-!
# What an export shows

The exported text can be read, and what is read is an image of what was measured: all lines
are headers or rows of the families, and the rows show what was counted and observed under
which label values, whatever characters these have.

Label values share a row if they have the same hash, even if they are different.  Numbers are
shown in binary64, which has every natural number up to `2^53`; there a counter stays.
-/

namespace SearchPolling
namespace Metrics

open Exposition (Line Row)
open Series (alike key)

/-- Lines that show what was measured. -/
structure Image (ms : List Measurement) (lines : List Line) : Prop where
  /-- A comment is a header of one of the families. -/
  comments : ∀ text, .comment text ∈ lines →
    ∃ f ∈ Registry.fresh.allFamilies, text ∈ f.headers
  /-- A sample is one of a gauge, of a counter or of a histogram. -/
  names : ∀ row, .sample row ∈ lines →
    (∃ g ∈ Gauge.all, row.name = g.name) ∨ (∃ c ∈ Counter.all, row.name = c.name) ∨
      ∃ t ∈ Timing.all, row.name ∈ t.rowNames
  gauges : ∀ g ∈ Gauge.all, (Exposition.rows lines).filter (fun row => row.name = g.name) =
    [g.row (g.value (Registry.fresh.recordAll ms))]
  /-- Of the label values with one hash, the first have a sample, with the number of all uses. -/
  counted : ∀ c ∈ Counter.all, ∀ x,
    (Exposition.rows lines).filter
        (fun row => row.name = c.name ∧ key (c.valuesIn row) = key x) =
      (alike id x (c.uses ms)).head?.toList.map fun first =>
        c.row first (alike id x (c.uses ms)).length
  /-- Label values whose hash no others have had have a sample just if they were used, with the
  number of their uses. -/
  counted_alone : ∀ c ∈ Counter.all, ∀ x, (∀ y ∈ c.uses ms, key y = key x → y = x) →
    (Exposition.rows lines).filter (fun row => row.name = c.name ∧ c.valuesIn row = x) =
      if x ∈ c.uses ms then [c.row x ((c.uses ms).count x)] else []
  /-- Of the label values with one hash, the first have a histogram, of all the values that were
  observed. -/
  observed : ∀ t ∈ Timing.all, ∀ x,
    (Exposition.rows lines).filter
        (fun row => row.name ∈ t.rowNames ∧ key (t.valuesIn row) = key x) =
      (alike Prod.fst x (t.uses ms)).head?.toList.flatMap fun first =>
        t.rows first.1 ((alike Prod.fst x (t.uses ms)).map Prod.snd)
  /-- Label values whose hash no others have had have a histogram just if they were used, of the
  values that were observed under them. -/
  observed_alone : ∀ t ∈ Timing.all, ∀ x, (∀ u ∈ t.uses ms, key u.1 = key x → u.1 = x) →
    (Exposition.rows lines).filter (fun row => row.name ∈ t.rowNames ∧ t.valuesIn row = x) =
      if x ∈ (t.uses ms).map Prod.fst
      then t.rows x (((t.uses ms).filter fun u => u.1 = x).map Prod.snd) else []
  /-- Label values are read back as they were used. -/
  counted_legible : ∀ c ∈ Counter.all, ∀ x ∈ c.uses ms, ∀ n, c.valuesIn (c.row x n) = x
  observed_legible : ∀ t ∈ Timing.all, ∀ u ∈ t.uses ms, ∀ values, ∀ row ∈ t.rows u.1 values,
    t.valuesIn row = u.1
  /-- The buckets ascend with their bounds, up to the number of all values. -/
  ascending : ∀ t ∈ Timing.all, t.bounds.Pairwise (· ≤ ·) ∧ ∀ values : List Float,
    ((t.bounds.map fun bound => values.countP fun value => value ≤ bound) ++
      [values.length]).Pairwise (· ≤ ·)
  /-- The numbers of observations are shown with their digits. -/
  numbers : ∀ n ≤ 2 ^ 53, Timing.number n = toString n

namespace Registry

variable {r : Registry}

theorem headers_of_mem_written {text : String} (h : .comment text ∈ r.written) :
    ∃ f ∈ fresh.allFamilies, text ∈ f.headers := by
  obtain ⟨f, hf, hline⟩ := List.mem_flatMap.mp h
  have htext : text ∈ f.headers := by
    rcases List.mem_append.mp hline with hheader | hrow
    · obtain ⟨_, hmem, hsame⟩ := List.mem_map.mp hheader
      rwa [← Line.comment.inj hsame]
    · obtain ⟨_, -, hsame⟩ := List.mem_map.mp hrow
      cases hsame
  have hall : text ∈ r.allFamilies.flatMap Family.headers :=
    List.mem_flatMap.mpr ⟨f, (List.mem_filter.mp hf).1, htext⟩
  exact List.mem_flatMap.mp hall

theorem name_of_mem_written {row : Row} (h : .sample row ∈ r.written) :
    (∃ g ∈ Gauge.all, row.name = g.name) ∨ (∃ c ∈ Counter.all, row.name = c.name) ∨
      ∃ t ∈ Timing.all, row.name ∈ t.rowNames := by
  have hnames : ∀ name ∈ fresh.allFamilies.flatMap Family.rowNames,
      (∃ g ∈ Gauge.all, name = g.name) ∨ (∃ c ∈ Counter.all, name = c.name) ∨
        ∃ t ∈ Timing.all, name ∈ t.rowNames := by
    decide
  have hrow : row ∈ Exposition.rows r.written := List.mem_filterMap.mpr ⟨_, h, rfl⟩
  rw [rows_written] at hrow
  obtain ⟨f, hf, hmem⟩ := List.mem_flatMap.mp hrow
  apply hnames
  rw [← r.flatMap_rowNames_allFamilies]
  exact List.mem_flatMap.mpr ⟨f, hf, name_mem_rowNames hf row hmem⟩

end Registry

namespace Timing

/-- The counts of values up to ascending bounds ascend, up to the number of all values. -/
theorem ascending_counts (t : Timing) (values : List Float) :
    ((t.bounds.map fun bound => values.countP fun value => value ≤ bound) ++
      [values.length]).Pairwise (· ≤ ·) := by
  rw [List.pairwise_append]
  refine ⟨?_, List.pairwise_singleton _ _, ?_⟩
  · apply t.ascending.map
    intro low high h
    exact Histogram.countP_le_countP h values
  · intro n hn all hall
    obtain ⟨bound, -, rfl⟩ := List.mem_map.mp hn
    rw [List.mem_singleton.mp hall]
    exact List.countP_le_length

end Timing

/-- Whatever was measured, the exported text is read as an image of it. -/
theorem exported_image (ms : List Measurement) :
    ∃ lines, Exposition.lines? (Registry.fresh.recordAll ms).exportText = some lines ∧
      Image ms lines := by
  refine ⟨(Registry.fresh.recordAll ms).written, Registry.lines?_exportText _, ?_⟩
  constructor
  case comments =>
    intro text htext
    exact Registry.headers_of_mem_written htext
  case names =>
    intro row hrow
    exact Registry.name_of_mem_written hrow
  case gauges =>
    intro g _
    exact g.filter_name _
  case counted =>
    intro c _ x
    exact c.filter_rows ms x
  case counted_alone =>
    intro c _ x halone
    exact c.filter_rows_of_alone halone
  case observed =>
    intro t _ x
    exact t.filter_rows ms x
  case observed_alone =>
    intro t _ x halone
    exact t.filter_rows_of_alone halone
  case counted_legible =>
    intro c _ x hx n
    exact Counter.valuesIn_row (Counter.length_of_mem_uses hx) n
  case observed_legible =>
    intro t _ u hu values
    exact Timing.valuesIn_rows (Timing.length_of_mem_uses hu) values
  case ascending =>
    intro t _
    exact ⟨t.ascending, t.ascending_counts⟩
  case numbers =>
    intro n hn
    exact numberChars_observations hn

/-- Two requests whose labels are the same text when they are written one after another. -/
def joined : List Measurement :=
  [.request "a" "bc" "d", .request "ab" "c" "d"]

/-- Both are counted in one sample, that of the first. -/
theorem joined_labels_share_a_sample :
    ∃ lines, Exposition.lines? (Registry.fresh.recordAll joined).exportText = some lines ∧
      (Exposition.rows lines).filter (fun row => row.name = Counter.requests.name) =
        [Counter.requests.row ["a", "bc", "d"] 2] := by
  refine ⟨_, Registry.lines?_exportText _, ?_⟩
  have hseries : Counter.requests.series (Registry.fresh.recordAll joined) =
      [(["a", "bc", "d"], 2)] := by
    decide
  rw [Counter.filter_name, hseries, sortedSeries, List.map_singleton, List.mergeSort_singleton]
  rfl

/-- Labels may have one hash though they are different texts when they are joined. -/
example : key ["77kepQFQ8Kl", "/", "405"] = key ["77kepQFQ8Kl\x00", "/", "405"] := by
  decide

end Metrics
end SearchPolling
