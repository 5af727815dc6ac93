import SearchPolling.Proofs.Exporting.Written
import SearchPolling.Proofs.Measuring.Tallies

/-!
# Finding rows

Rows are found by the name of their metric and by the values of their labels.  A name belongs
to one family, and a row of that family is that of one entry of a series, whose labels it has
in the order of their names.
-/

namespace SearchPolling
namespace Metrics

open Exposition (Line Row)

/-! ## The labels of a row -/

/-- Values of labels by their names; a label that is not there has an empty value. -/
def valuesOf (names : List String) (labels : List (String × String)) : List String :=
  names.map fun name => (labels.lookup name).getD ""

theorem lookup_of_mem {labels : List (String × String)} (h : (labels.map Prod.fst).Nodup)
    {name value : String} (hmem : (name, value) ∈ labels) : labels.lookup name = some value := by
  induction labels with
  | nil => cases hmem
  | cons label labels ih =>
      rw [List.map_cons, List.nodup_cons] at h
      rcases List.mem_cons.mp hmem with rfl | hrest
      · exact List.lookup_cons_self
      · have hne : name ≠ label.1 := by
          rintro rfl
          exact h.1 (List.mem_map.mpr ⟨_, hrest, rfl⟩)
        rw [List.lookup_cons, beq_false_of_ne hne]
        exact ih h.2 hrest

/-- Values are read back by their names, however these were sorted. -/
theorem valuesOf_namedLabels {names values : List String} (h : names.Nodup)
    (hlength : values.length = names.length) :
    valuesOf names (namedLabels names values) = values := by
  have hperm := namedLabels_perm names values
  have hnames : ((namedLabels names values).map Prod.fst).Nodup := by
    rw [(hperm.map Prod.fst).nodup_iff, List.map_fst_zip (Nat.le_of_eq hlength.symm)]
    exact h
  apply List.ext_getElem
  · rw [valuesOf, List.length_map, hlength]
  · intro i hi hvalue
    have hname : i < names.length := by
      rwa [hlength] at hvalue
    have hmem : (names[i], values[i]) ∈ namedLabels names values := by
      rw [hperm.mem_iff, List.mem_iff_getElem]
      refine ⟨i, ?_, List.getElem_zip⟩
      rw [List.length_zip, hlength, Nat.min_self]
      exact hname
    simp [valuesOf, lookup_of_mem hnames hmem]

/-- A label of another name does not matter. -/
theorem valuesOf_concat {names : List String} {name : String} (h : name ∉ names)
    (labels : List (String × String)) (value : String) :
    valuesOf names (labels ++ [(name, value)]) = valuesOf names labels := by
  apply List.map_congr_left
  intro other hother
  have hne : other ≠ name := by
    rintro rfl
    exact h hother
  simp [List.lookup_append, List.lookup_cons, beq_false_of_ne hne]

/-! ## Series -/

namespace Series

variable {α β : Type} {opened : β} {after : β → α → β} {labelsOf : α → List String}

/-- The entries of a hash, as they are sorted for the export. -/
theorem alike_sortedSeries {names : List String} (h : names.Nodup) {uses : List α}
    (hlength : ∀ use ∈ uses, (labelsOf use).length = names.length) (x : List String) :
    alike (fun entry => valuesOf names entry.1) x
        (sortedSeries names (grow labelsOf opened after uses)) =
      (alike labelsOf x uses).head?.toList.map fun first =>
        (namedLabels names (labelsOf first), (alike labelsOf x uses).foldl after opened) := by
  have hperm := (sortedSeries_perm names (grow labelsOf opened after uses)).filter
    fun entry => key (valuesOf names entry.1) = key x
  rw [List.filter_map] at hperm
  have hrows : (grow labelsOf opened after uses).filter
      ((fun entry => decide (key (valuesOf names entry.1) = key x)) ∘
        fun row => (namedLabels names row.1, row.2)) =
      alike Prod.fst x (grow labelsOf opened after uses) := by
    apply List.filter_congr
    intro row hrow
    obtain ⟨use, huse, hlabels⟩ := labels_subset_grow uses row hrow
    rw [Function.comp_apply, hlabels, valuesOf_namedLabels h (hlength use huse)]
  rw [hrows, alike_grow, List.map_map] at hperm
  cases hfirst : (alike labelsOf x uses).head? with
  | none =>
      rw [hfirst] at hperm
      exact hperm.eq_nil
  | some first =>
      rw [hfirst] at hperm
      exact hperm.eq_singleton

end Series

/-! ## Families -/

namespace Kind

/-- What may follow the name of a family in the name of a row. -/
def suffixes : Kind → List String
  | counter => [""]
  | gauge => [""]
  | histogram => ["_bucket", "_sum", "_count"]

end Kind

theorem suffix_counterSamples (names : List String) (s : Series Nat) :
    ∀ sample ∈ counterSamples names s, sample.suffix ∈ Kind.counter.suffixes := by
  intro sample hsample
  obtain ⟨row, -, rfl⟩ := List.mem_map.mp hsample
  exact List.mem_singleton_self _

theorem suffix_histogramsSamples (names : List String) (s : Series Histogram) :
    ∀ sample ∈ histogramsSamples names s, sample.suffix ∈ Kind.histogram.suffixes := by
  intro sample hsample
  obtain ⟨row, -, hmem⟩ := List.mem_flatMap.mp hsample
  rcases List.mem_append.mp hmem with hbucket | hlast
  · obtain ⟨bucket, -, rfl⟩ := List.mem_map.mp hbucket
    exact List.mem_cons_self
  · simp only [List.mem_cons, List.not_mem_nil, or_false] at hlast
    rcases hlast with rfl | rfl | rfl <;> simp [Kind.suffixes]

theorem suffix_gaugeSample (value : UInt64) :
    ∀ sample ∈ gaugeSample value, sample.suffix ∈ Kind.gauge.suffixes := by
  intro sample hsample
  obtain rfl := List.mem_singleton.mp hsample
  exact List.mem_singleton_self _

namespace Family

/-- The names of the rows of a family. -/
def rowNames (f : Family) : List String :=
  f.kind.suffixes.map (f.name ++ ·)

/-- The rows that bear names of a family are its own. -/
theorem filter_rows {fs : List Family} (hnodup : (fs.flatMap rowNames).Nodup)
    (hnames : ∀ f ∈ fs, ∀ row ∈ f.rows, row.name ∈ f.rowNames) {f : Family} (hf : f ∈ fs) :
    (fs.flatMap rows).filter (fun row => row.name ∈ f.rowNames) = f.rows := by
  induction fs with
  | nil => cases hf
  | cons first fs ih =>
      rw [List.flatMap_cons, List.nodup_append] at hnodup
      rw [List.forall_mem_cons] at hnames
      obtain ⟨-, hrest, hdisjoint⟩ := hnodup
      rw [List.flatMap_cons, List.filter_append]
      rcases List.mem_cons.mp hf with rfl | hmem
      · have hown : f.rows.filter (fun row => row.name ∈ f.rowNames) = f.rows := by
          rw [List.filter_eq_self]
          intro row hrow
          exact decide_eq_true (hnames.1 row hrow)
        have hothers : (fs.flatMap rows).filter (fun row => row.name ∈ f.rowNames) = [] := by
          rw [List.filter_eq_nil_iff]
          intro row hrow hname
          obtain ⟨g, hg, hrow⟩ := List.mem_flatMap.mp hrow
          exact hdisjoint _ (of_decide_eq_true hname) _
            (List.mem_flatMap.mpr ⟨g, hg, hnames.2 g hg row hrow⟩) rfl
        rw [hown, hothers, List.append_nil]
      · have hother : first.rows.filter (fun row => row.name ∈ f.rowNames) = [] := by
          rw [List.filter_eq_nil_iff]
          intro row hrow hname
          exact hdisjoint _ (hnames.1 row hrow) _
            (List.mem_flatMap.mpr ⟨f, hmem, of_decide_eq_true hname⟩) rfl
        rw [hother, List.nil_append, ih hrest hnames.2 hmem]

theorem rows_written (f : Family) : Exposition.rows f.written = f.rows := by
  rw [Exposition.rows, written, List.filterMap_append, List.filterMap_map, List.filterMap_map]
  have hheaders : f.headers.filterMap (Line.row? ∘ Line.comment) = [] := rfl
  have hrows : f.rows.filterMap (Line.row? ∘ Line.sample) = f.rows := List.filterMap_some
  rw [hheaders, hrows, List.nil_append]

end Family

namespace Registry

/-- A family that is left out has no rows. -/
theorem rows_written (r : Registry) :
    Exposition.rows r.written = r.allFamilies.flatMap Family.rows := by
  rw [Exposition.rows, written, families, List.filterMap_flatMap]
  induction r.allFamilies with
  | nil => rfl
  | cons f fs ih =>
      rw [List.filter_cons, List.flatMap_cons]
      split
      · rw [List.flatMap_cons, ih]
        congr 1
        exact f.rows_written
      · next hsamples =>
          have hnone : f.rows = [] := by
            simpa [Family.rows] using hsamples
          rw [ih, hnone, List.nil_append]

theorem flatMap_rowNames_allFamilies (r : Registry) :
    r.allFamilies.flatMap Family.rowNames = fresh.allFamilies.flatMap Family.rowNames :=
  rfl

theorem name_mem_rowNames {r : Registry} {f : Family} (h : f ∈ r.allFamilies) :
    ∀ row ∈ f.rows, row.name ∈ f.rowNames := by
  have hsuffix : ∀ s ∈ f.samples, s.suffix ∈ f.kind.suffixes := by
    simp only [allFamilies, List.mem_cons, List.not_mem_nil, or_false] at h
    rcases h with rfl | rfl | rfl | rfl | rfl | rfl | rfl | rfl | rfl | rfl | rfl
    all_goals
      first
      | exact suffix_gaugeSample _
      | exact suffix_counterSamples _ _
      | exact suffix_histogramsSamples _ _
  intro row hrow
  obtain ⟨s, hs, rfl⟩ := List.mem_map.mp hrow
  exact List.mem_map_of_mem (hsuffix s hs)

/-- The rows that bear names of a family are its own. -/
theorem filter_rows_written {r : Registry} {f : Family} (h : f ∈ r.allFamilies) :
    (Exposition.rows r.written).filter (fun row => row.name ∈ f.rowNames) = f.rows := by
  have hnodup : (fresh.allFamilies.flatMap Family.rowNames).Nodup := by
    decide
  rw [← r.flatMap_rowNames_allFamilies] at hnodup
  rw [rows_written]
  exact Family.filter_rows hnodup (fun f hf => name_mem_rowNames hf) h

end Registry
end Metrics
end SearchPolling
