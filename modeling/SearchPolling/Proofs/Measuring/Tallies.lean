import Mathlib.Algebra.BigOperators.Group.List.Lemmas
import Mathlib.Algebra.GroupWithZero.Nat
import Mathlib.Data.List.Induction
import Mathlib.Data.List.Nodup
import SearchPolling.Metrics.Registry

/-!
# Tallies

A series grows with its uses: a use changes the row of its labels, or opens one.  Rows are told
apart by the hash of their labels alone.  So all uses of one hash are in one row, and it has the
labels of the first of them (`Series.alike_grow`).

A family of counters has a row with the number of uses for each hash, and so for each tuple of
labels whose hash no other tuple has (`Series.tallied_tally`).  A family of histograms counts
its observations in the same way.
-/

namespace SearchPolling
namespace Metrics
namespace Series

variable {α β : Type}

/-- The tuples of labels that have a row, in the order in which the rows were opened. -/
def labels (s : Series β) : List (List String) :=
  s.map Prod.fst

/-- The sum over the rows whose labels are of a kind. -/
def sumWhere (p : List String → Bool) (s : Series Nat) : Nat :=
  ((s.filter fun row => p row.1).map Prod.snd).sum

def total (s : Series Nat) : Nat :=
  (s.map Prod.snd).sum

@[simp] theorem labels_cons (row : List String × β) (rest : Series β) :
    labels (row :: rest) = row.1 :: labels rest := rfl

theorem labels_update (x : List String) (opened : β) (f : β → β) (s : Series β) :
    labels (update x opened f s) =
      if key x ∈ (labels s).map key then labels s else labels s ++ [x] := by
  induction s with
  | nil => rfl
  | cons row rest ih =>
      by_cases hown : key row.1 = key x
      · simp [update, hown]
      · have hother : ¬key x = key row.1 := fun h => hown h.symm
        rw [update, if_neg hown, labels_cons, labels_cons, ih]
        by_cases hrest : key x ∈ (labels rest).map key
        · simp [hrest]
        · simp [hrest, hother]

/-- No two rows have one hash. -/
theorem nodup_keys_update {x : List String} {opened : β} {f : β → β} {s : Series β}
    (h : ((labels s).map key).Nodup) : ((labels (update x opened f s)).map key).Nodup := by
  rw [labels_update]
  by_cases hx : key x ∈ (labels s).map key
  · rwa [if_pos hx]
  · rw [if_neg hx, List.map_append, List.nodup_append]
    refine ⟨h, List.nodup_singleton _, ?_⟩
    intro a ha b hb hab
    apply hx
    rwa [← List.mem_singleton.mp hb, ← hab]

/-! ## Growth -/

section Growth

variable {opened : β} {after : β → α → β} {labelsOf : α → List String}

/-- The values that follow one another in the series of their labels. -/
def grow (labelsOf : α → List String) (opened : β) (after : β → α → β) (uses : List α) :
    Series β :=
  uses.foldl (fun s use => update (labelsOf use) opened (after · use) s) []

/-- Those whose labels have the hash of `x`. -/
def alike (labelsOf : α → List String) (x : List String) (uses : List α) : List α :=
  uses.filter fun use => key (labelsOf use) = key x

/-- A change of one series is a change of the first row of its hash, if there is one. -/
theorem alike_update (x y : List String) (f : β → β) (s : Series β) :
    alike Prod.fst x (update y opened f s) =
      if key y = key x then
        match alike Prod.fst x s with
        | [] => [(y, f opened)]
        | (own, value) :: rest => (own, f value) :: rest
      else alike Prod.fst x s := by
  induction s with
  | nil => by_cases hxy : key y = key x <;> simp [alike, update, hxy]
  | cons row rest ih =>
      obtain ⟨own, value⟩ := row
      simp only [alike] at ih
      by_cases hown : key own = key y
      · by_cases hxy : key y = key x
        · simp [alike, update, hown, hxy]
        · simp [alike, update, hown, hxy]
      · by_cases hxy : key y = key x
        · have hother : ¬key own = key x := fun h => hown (h.trans hxy.symm)
          simp [alike, update, hother, ih, hxy]
        · have hyx : ¬key x = key y := fun h => hxy h.symm
          by_cases hother : key own = key x <;> simp [alike, update, hown, hother, ih, hxy, hyx]

/-- All uses of a hash are in one series, that of the first. -/
theorem alike_grow (x : List String) (uses : List α) :
    alike Prod.fst x (grow labelsOf opened after uses) =
      (alike labelsOf x uses).head?.toList.map fun first =>
        (labelsOf first, (alike labelsOf x uses).foldl after opened) := by
  induction uses using List.reverseRecOn with
  | nil => rfl
  | append_singleton uses use ih =>
      have hgrow : grow labelsOf opened after (uses ++ [use]) =
          update (labelsOf use) opened (after · use) (grow labelsOf opened after uses) := by
        rw [grow, List.foldl_append]
        rfl
      rw [hgrow, alike_update, ih]
      by_cases hkey : key (labelsOf use) = key x
      · have hnow : alike labelsOf x (uses ++ [use]) = alike labelsOf x uses ++ [use] := by
          simp [alike, hkey]
        rw [if_pos hkey, hnow]
        cases alike labelsOf x uses with
        | nil => rfl
        | cons first rest => simp [List.foldl_append]
      · have hnow : alike labelsOf x (uses ++ [use]) = alike labelsOf x uses := by
          simp [alike, hkey]
        rw [if_neg hkey, hnow]

theorem labels_subset_grow (uses : List α) :
    ∀ row ∈ grow labelsOf opened after uses, ∃ use ∈ uses, row.1 = labelsOf use := by
  intro row hrow
  have hmem : row ∈ alike Prod.fst row.1 (grow labelsOf opened after uses) :=
    List.mem_filter.mpr ⟨hrow, decide_eq_true rfl⟩
  rw [alike_grow, List.mem_map] at hmem
  obtain ⟨first, hfirst, hrow⟩ := hmem
  have huse := List.mem_of_mem_head? (Option.mem_toList.mp hfirst)
  exact ⟨first, (List.mem_filter.mp huse).1, (congrArg Prod.fst hrow).symm⟩

/-- Where nothing else has the hash of `x`, what is like it has its very labels. -/
theorem alike_of_alone {x : List String} {uses : List α}
    (halone : ∀ use ∈ uses, key (labelsOf use) = key x → labelsOf use = x) :
    alike labelsOf x uses = uses.filter fun use => labelsOf use = x := by
  apply List.filter_congr
  intro use huse
  rw [decide_eq_decide]
  constructor
  · exact halone use huse
  · rintro rfl
    rfl

end Growth

/-! ## Counters -/

/-- The rows of a family of counters that counted under these labels, one after another. -/
def tally (xs : List (List String)) : Series Nat :=
  xs.foldl (fun s x => Registry.count x s) []

variable {xs : List (List String)}

theorem tally_concat (xs : List (List String)) (x : List String) :
    tally (xs ++ [x]) = Registry.count x (tally xs) := by
  simp [tally]

theorem foldl_succ (uses : List α) : uses.foldl (fun n _ => n + 1) 0 = uses.length := by
  induction uses using List.reverseRecOn with
  | nil => rfl
  | append_singleton uses use ih => simp [List.foldl_append, ih]

/-- Counting is growing by one. -/
theorem tally_eq_grow (xs : List (List String)) :
    tally xs = grow id 0 (fun n _ => n + 1) xs := rfl

theorem alike_tally (x : List String) (xs : List (List String)) :
    alike Prod.fst x (tally xs) =
      (alike id x xs).head?.toList.map fun first => (first, (alike id x xs).length) := by
  rw [tally_eq_grow, alike_grow, foldl_succ]
  rfl

theorem nodup_keys_tally (xs : List (List String)) : ((labels (tally xs)).map key).Nodup := by
  induction xs using List.reverseRecOn with
  | nil => exact List.nodup_nil
  | append_singleton xs x ih =>
      rw [tally_concat]
      exact nodup_keys_update ih

theorem nodup_labels_tally (xs : List (List String)) : (labels (tally xs)).Nodup :=
  (nodup_keys_tally xs).of_map key

theorem labels_tally_subset (xs : List (List String)) : labels (tally xs) ⊆ xs := by
  intro x hx
  obtain ⟨row, hrow, rfl⟩ := List.mem_map.mp hx
  obtain ⟨use, huse, hlabels⟩ := labels_subset_grow xs row hrow
  rwa [hlabels]

theorem total_count (x : List String) (s : Series Nat) :
    total (Registry.count x s) = total s + 1 := by
  rw [Registry.count]
  induction s with
  | nil => rfl
  | cons row rest ih =>
      obtain ⟨own, n⟩ := row
      simp only [total] at ih
      by_cases hown : key own = key x
      · simp only [update, if_pos hown, total, List.map_cons, List.sum_cons]
        omega
      · simp only [update, if_neg hown, total, List.map_cons, List.sum_cons, ih]
        omega

/-- Whichever rows the uses share, each is counted once. -/
theorem total_tally (xs : List (List String)) : total (tally xs) = xs.length := by
  induction xs using List.reverseRecOn with
  | nil => rfl
  | append_singleton xs x ih =>
      rw [tally_concat, total_count, ih, List.length_append, List.length_singleton]

theorem alike_id_of_alone {x : List String} (halone : ∀ y ∈ xs, key y = key x → y = x) :
    alike id x xs = List.replicate (xs.count x) x :=
  (alike_of_alone halone).trans (List.filter_eq x)

theorem alike_tally_of_alone {x : List String} (hx : x ∈ xs)
    (halone : ∀ y ∈ xs, key y = key x → y = x) :
    alike Prod.fst x (tally xs) = [(x, xs.count x)] := by
  have hpos : 0 < xs.count x := List.count_pos_iff.mpr hx
  rw [alike_tally, alike_id_of_alone halone, List.length_replicate, List.head?_replicate,
    if_neg (Nat.ne_of_gt hpos)]
  rfl

/-- Different tuples of labels have different hashes. -/
def ToldApart (xs : List (List String)) : Prop :=
  ∀ x ∈ xs, ∀ y ∈ xs, key x = key y → x = y

namespace ToldApart

theorem alike_tally (h : ToldApart xs) {x : List String} (hx : x ∈ xs) :
    alike Prod.fst x (tally xs) = [(x, xs.count x)] :=
  alike_tally_of_alone hx fun y hy hkey => h y hy x hx hkey

/-- A row shows how often its labels were used. -/
theorem count_of_mem (h : ToldApart xs) {row : List String × Nat} (hrow : row ∈ tally xs) :
    row.2 = xs.count row.1 := by
  have hx : row.1 ∈ xs := labels_tally_subset xs (List.mem_map_of_mem hrow)
  have hown : row ∈ alike Prod.fst row.1 (tally xs) :=
    List.mem_filter.mpr ⟨hrow, decide_eq_true rfl⟩
  rw [h.alike_tally hx] at hown
  exact congrArg Prod.snd (List.mem_singleton.mp hown)

/-- The rows are the labels that were used, each with the number of its uses. -/
theorem tally_perm (h : ToldApart xs) :
    (tally xs).Perm (xs.dedup.map fun x => (x, xs.count x)) := by
  have hrows : (tally xs).Nodup := (nodup_labels_tally xs).of_map Prod.fst
  have hused : (xs.dedup.map fun x => (x, xs.count x)).Nodup := by
    apply xs.nodup_dedup.map
    intro x y hxy
    exact congrArg Prod.fst hxy
  rw [List.perm_ext_iff_of_nodup hrows hused]
  intro row
  rw [List.mem_map]
  constructor
  · intro hrow
    have hx : row.1 ∈ xs := labels_tally_subset xs (List.mem_map_of_mem hrow)
    exact ⟨row.1, List.mem_dedup.mpr hx, Prod.ext rfl (h.count_of_mem hrow).symm⟩
  · rintro ⟨x, hx, rfl⟩
    have hown : (x, xs.count x) ∈ alike Prod.fst x (tally xs) := by
      rw [h.alike_tally (List.mem_dedup.mp hx)]
      exact List.mem_singleton_self _
    exact (List.mem_filter.mp hown).1

/-- Over rows of one kind the counters add up to the uses of that kind. -/
theorem sumWhere_tally (h : ToldApart xs) (p : List String → Bool) :
    sumWhere p (tally xs) = xs.countP p := by
  have hrows := (h.tally_perm.filter fun row => p row.1).map Prod.snd
  have hsum := List.sum_map_count_dedup_filter_eq_countP p xs
  rw [sumWhere, hrows.sum_nat, List.filter_map, List.map_map, ← hsum]
  simp only [Function.comp_def, List.count_eq_countP, beq_eq_decide]

end ToldApart

/-- A family of counters with the rows of these uses. -/
structure Tallied (xs : List (List String)) (s : Series Nat) : Prop where
  /-- All rows together show the number of all uses. -/
  total_eq : total s = xs.length
  /-- All uses of a hash share one row, with the labels of the first. -/
  shared : ∀ x, alike Prod.fst x s =
    (alike id x xs).head?.toList.map fun first => (first, (alike id x xs).length)
  /-- Labels whose hash no others have are in a row of their own. -/
  alone : ∀ x ∈ xs, (∀ y ∈ xs, key y = key x → y = x) →
    alike Prod.fst x s = [(x, xs.count x)]
  /-- If no two tuples have one hash, the rows are the tuples that were used. -/
  perm : ToldApart xs → s.Perm (xs.dedup.map fun x => (x, xs.count x))

theorem tallied_tally (xs : List (List String)) : Tallied xs (tally xs) where
  total_eq := total_tally xs
  shared x := alike_tally x xs
  alone _ hx halone := alike_tally_of_alone hx halone
  perm h := h.tally_perm

/-! ## Observations -/

/-- A family of histograms, seen as the counters of its observations. -/
def counts (s : Series Histogram) : Series Nat :=
  s.map fun row => (row.1, row.2.count)

theorem labels_counts (s : Series Histogram) : labels (counts s) = labels s := by
  rw [labels, counts, List.map_map]
  rfl

theorem counts_observe (x : List String) (bounds : List Float) (value : Float)
    (s : Series Histogram) :
    counts (Registry.observe x bounds value s) = Registry.count x (counts s) := by
  rw [Registry.observe, Registry.count]
  induction s with
  | nil => rfl
  | cons row rest ih =>
      obtain ⟨own, histogram⟩ := row
      simp only [counts] at ih
      by_cases hown : key own = key x
      · simp [update, counts, hown, Histogram.observe]
      · simp [update, counts, hown, ih]

end Series
end Metrics
end SearchPolling
