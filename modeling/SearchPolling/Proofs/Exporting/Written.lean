import SearchPolling.Proofs.Exporting.Exposition

/-!
# What is written of a registry

The exported text of a registry is read, line by line, as the headers and samples of its
families (`Registry.lines?_exportText`): the names of families and labels are fixed, and
nothing that is measured gets into a line but as the value of a label or as a number.
-/

namespace SearchPolling
namespace Metrics

open Exposition (Legends Line Plain Row)

namespace Sample

/-- A sample, as it is written in a family. -/
def row (name : String) (s : Sample) : Row :=
  ⟨name ++ s.suffix, s.labels, String.ofList s.value⟩

theorem chars_row (name : String) (s : Sample) : (s.row name).chars = s.chars name := by
  simp [row, Row.chars, chars]

structure Regular (s : Sample) : Prop where
  suffix : Plain s.suffix
  labels : Legends (s.labels.map Prod.fst)
  value : '\n' ∉ s.value

theorem Regular.row {s : Sample} (h : s.Regular) {name : String} (hname : Plain name) :
    (s.row name).Regular where
  name := hname.append h.suffix
  labels := h.labels
  value := by
    rw [Sample.row, String.toList_ofList]
    exact h.value

end Sample

namespace Family

/-- The comments at the head of a family. -/
def headers (f : Family) : List String :=
  [" HELP " ++ f.name ++ " " ++ f.help, " TYPE " ++ f.name ++ " " ++ f.kind.name]

def rows (f : Family) : List Row :=
  f.samples.map (Sample.row f.name)

/-- What is written of a family. -/
def written (f : Family) : List Line :=
  f.headers.map .comment ++ f.rows.map .sample

theorem map_text_written (f : Family) : f.written.map Line.text = f.lines := by
  have hsample : ∀ s : Sample, (Line.sample (s.row f.name)).text = String.ofList (s.chars f.name) :=
    fun s => congrArg String.ofList (s.chars_row f.name)
  have hcomment : ∀ text, (Line.comment text).text = "#" ++ text := by
    intro text
    rw [← String.toList_inj]
    simp [Line.text, Line.chars]
  simp [written, headers, rows, lines, hsample, hcomment, ← String.append_assoc, Function.comp_def]

structure Regular (f : Family) : Prop where
  name : Plain f.name
  help : '\n' ∉ f.help.toList
  samples : ∀ s ∈ f.samples, s.Regular

theorem Regular.written {f : Family} (h : f.Regular) : ∀ line ∈ f.written, line.Regular := by
  have hname : '\n' ∉ f.name.toList := fun hmem => h.name _ hmem (by simp)
  have hkind : '\n' ∉ f.kind.name.toList := by
    cases f.kind <;> decide
  intro line hline
  rcases List.mem_append.mp hline with hheader | hrow
  · obtain ⟨text, htext, rfl⟩ := List.mem_map.mp hheader
    rw [headers, List.mem_cons, List.mem_singleton] at htext
    rcases htext with rfl | rfl
    · simp [Line.Regular, hname, h.help]
    · simp [Line.Regular, hname, hkind]
  · obtain ⟨_, hmem, rfl⟩ := List.mem_map.mp hrow
    obtain ⟨s, hs, rfl⟩ := List.mem_map.mp hmem
    exact (h.samples s hs).row h.name

end Family

/-! ## The samples of a registry -/

theorem break_notMem_natDigits (n : Nat) : '\n' ∉ Decimal.natDigits n := by
  intro hmem
  have hdigit := Decimal.isDigit_of_mem_natDigits hmem
  revert hdigit
  decide

theorem break_notMem_positionalDigits {digits : List Char} (h : '\n' ∉ digits)
    (showPoint : Bool) (point : Int) :
    '\n' ∉ Decimal.positionalDigits showPoint digits point := by
  rw [Decimal.positionalDigits]
  split
  · simp [h]
  · split
    · split <;> simp [h]
    · have htake : '\n' ∉ digits.take point.toNat := fun hmem => h (List.mem_of_mem_take hmem)
      have hdrop : '\n' ∉ digits.drop point.toNat := fun hmem => h (List.mem_of_mem_drop hmem)
      simp [htake, hdrop]

theorem break_notMem_finite (x : Float) : '\n' ∉ numberLayout.finite x := by
  have hmagnitude : ∀ d, '\n' ∉ numberLayout.magnitude d := fun d =>
    break_notMem_positionalDigits (break_notMem_natDigits d.coefficient) _ _
  have hdigits : ∀ m d, '\n' ∉ (if m = 0 then
      (if numberLayout.showPoint then ['0', '.', '0'] else ['0'])
      else numberLayout.magnitude d) := by
    intro m d
    split
    · decide
    · exact hmagnitude d
  rw [Decimal.Layout.finite]
  split
  · exact List.not_mem_cons_of_ne_of_not_mem (by decide) (hdigits _ _)
  · exact hdigits _ _

theorem break_notMem_numberChars (x : Float) : '\n' ∉ numberChars x := by
  rw [numberChars]
  split
  · decide
  · split
    · exact break_notMem_finite x
    · split <;> decide

theorem namedLabels_perm (names values : List String) :
    (namedLabels names values).Perm (names.zip values) :=
  List.mergeSort_perm _ _

theorem sortedSeries_perm {β : Type} (names : List String) (s : Series β) :
    (sortedSeries names s).Perm (s.map fun row => (namedLabels names row.1, row.2)) :=
  List.mergeSort_perm _ _

section Legends

variable {names : List String}

theorem legends_namedLabels (h : Legends names) (values : List String) :
    Legends ((namedLabels names values).map Prod.fst) := by
  intro name hname
  obtain ⟨l, hl, rfl⟩ := List.mem_map.mp hname
  have hzip := (namedLabels_perm names values).mem_iff.mp hl
  exact h l.1 (List.of_mem_zip hzip).1

theorem legends_sortedSeries {β : Type} (h : Legends names) (s : Series β) :
    ∀ row ∈ sortedSeries names s, Legends (row.1.map Prod.fst) := by
  intro row hrow
  obtain ⟨own, -, rfl⟩ := List.mem_map.mp ((sortedSeries_perm names s).mem_iff.mp hrow)
  exact legends_namedLabels h own.1

theorem regular_counterSamples (h : Legends names) (s : Series Nat) :
    ∀ sample ∈ counterSamples names s, sample.Regular := by
  intro sample hsample
  obtain ⟨row, hrow, rfl⟩ := List.mem_map.mp hsample
  exact ⟨(by decide : Plain ""), legends_sortedSeries h s row hrow, break_notMem_numberChars _⟩

theorem regular_histogramSamples {labels : List (String × String)}
    (h : Legends (labels.map Prod.fst)) (histogram : Histogram) :
    ∀ sample ∈ histogramSamples labels histogram, sample.Regular := by
  have hbound : Legends ["le"] := by decide
  have hbucket : ∀ text n, (Sample.mk "_bucket" (labels ++ [("le", text)])
      (numberChars (observations n))).Regular := by
    intro text n
    refine ⟨(by decide : Plain "_bucket"), ?_, break_notMem_numberChars _⟩
    rw [List.map_append]
    exact List.forall_mem_append.mpr ⟨h, hbound⟩
  intro sample hsample
  rcases List.mem_append.mp hsample with hmem | hmem
  · obtain ⟨bucket, -, rfl⟩ := List.mem_map.mp hmem
    exact hbucket _ _
  · simp only [List.mem_cons, List.not_mem_nil, or_false] at hmem
    rcases hmem with rfl | rfl | rfl
    · exact hbucket _ _
    · exact ⟨(by decide : Plain "_sum"), h, break_notMem_numberChars _⟩
    · exact ⟨(by decide : Plain "_count"), h, break_notMem_numberChars _⟩

theorem regular_histogramsSamples (h : Legends names) (s : Series Histogram) :
    ∀ sample ∈ histogramsSamples names s, sample.Regular := by
  intro sample hsample
  obtain ⟨row, hrow, hmem⟩ := List.mem_flatMap.mp hsample
  exact regular_histogramSamples (legends_sortedSeries h s row hrow) row.2 sample hmem

end Legends

theorem regular_gaugeSample (value : UInt64) :
    ∀ sample ∈ gaugeSample value, sample.Regular := by
  intro sample hsample
  obtain rfl := List.mem_singleton.mp hsample
  exact ⟨(by decide : Plain ""), nofun, break_notMem_numberChars value.toFloat⟩

namespace Registry

/-- The names and help texts of families do not depend on what is measured. -/
theorem map_head_allFamilies (r : Registry) :
    r.allFamilies.map (fun f => (f.name, f.help)) =
      fresh.allFamilies.map fun f => (f.name, f.help) :=
  rfl

theorem regular_of_mem_allFamilies {r : Registry} {f : Family} (h : f ∈ r.allFamilies) :
    f.Regular := by
  have hheads : ∀ head ∈ fresh.allFamilies.map (fun f => (f.name, f.help)),
      Plain head.1 ∧ '\n' ∉ head.2.toList := by
    decide +kernel
  rw [← r.map_head_allFamilies] at hheads
  obtain ⟨hname, hhelp⟩ := hheads (f.name, f.help) (List.mem_map_of_mem h)
  refine ⟨hname, hhelp, ?_⟩
  simp only [allFamilies, List.mem_cons, List.not_mem_nil, or_false] at h
  rcases h with rfl | rfl | rfl | rfl | rfl | rfl | rfl | rfl | rfl | rfl | rfl
  all_goals
    first
    | exact regular_gaugeSample _
    | exact regular_counterSamples (by decide) _
    | exact regular_histogramsSamples (by decide) _

/-- What is written of a registry. -/
def written (r : Registry) : List Line :=
  r.families.flatMap Family.written

theorem map_text_written (r : Registry) : r.written.map Line.text = r.exportLines := by
  rw [written, exportLines, List.map_flatMap]
  simp only [Family.map_text_written]

/-- The exported text is read as what was written. -/
theorem lines?_exportText (r : Registry) : Exposition.lines? r.exportText = some r.written := by
  have hregular : ∀ line ∈ r.written, line.Regular := by
    intro line hline
    obtain ⟨f, hf, hmem⟩ := List.mem_flatMap.mp hline
    exact (regular_of_mem_allFamilies (List.mem_filter.mp hf).1).written line hmem
  rw [exportText, ← map_text_written, List.map_map]
  exact Exposition.lines?_join hregular

end Registry
end Metrics
end SearchPolling
