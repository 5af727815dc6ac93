import Mathlib
import SearchPolling.Metrics.Registry

/-!
# Buckets

A value is counted in the first bucket whose bound it does not exceed.  As the order of
numbers is transitive, what is counted up to a bound are the values that do not exceed that
bound, and the counts ascend with the bounds.
-/

namespace SearchPolling
namespace Metrics

open Float.Model (UnpackedFloat)

/-! ## The order of numbers -/

/-- The place of a number among the others: by its sign, then by exponent and mantissa. -/
def rank : UnpackedFloat → Int ×ₗ Int ×ₗ Int
  | .infinity .positive => toLex (2, toLex (0, 0))
  | .finite .positive m e _ => toLex (1, toLex (e, m))
  | .zero _ => toLex (0, toLex (0, 0))
  | .notANumber => toLex (0, toLex (0, 0))
  | .finite .negative m e _ => toLex (-1, toLex (-e, -m))
  | .infinity .negative => toLex (-2, toLex (0, 0))

theorem isLE_compare_then (e f : Int) (m n : Nat) :
    ((compare e f).then (compare m n)).isLE = true ↔ e < f ∨ e = f ∧ m ≤ n := by
  rcases lt_trichotomy e f with h | rfl | h
  · simp [compare_lt_iff_lt.mpr h, h]
  · simp [Nat.isLE_compare]
  · simp [compare_gt_iff_gt.mpr h, h.not_gt, h.ne']

theorem isGE_compare_then (e f : Int) (m n : Nat) :
    ((compare e f).then (compare m n)).isGE = true ↔ f < e ∨ e = f ∧ n ≤ m := by
  rcases lt_trichotomy e f with h | rfl | h
  · simp [compare_lt_iff_lt.mpr h, h.not_gt, h.ne]
  · simp [Nat.isGE_compare]
  · simp [compare_gt_iff_gt.mpr h, h]

theorem le_iff_rank_le (a b : UnpackedFloat) :
    a.le b = true ↔ a ≠ .notANumber ∧ b ≠ .notANumber ∧ rank a ≤ rank b := by
  rcases a with (_ | _) | _ | _ | ⟨_ | _, m, e, hm⟩ <;>
    rcases b with (_ | _) | _ | _ | ⟨_ | _, n, f, hn⟩ <;>
      simp [UnpackedFloat.le, UnpackedFloat.compare, rank, Prod.Lex.le_iff, isLE_compare_then,
        isGE_compare_then]
  all_goals decide

theorem float_le_iff (x y : Float) : x ≤ y ↔ x.toModel.unpack.le y.toModel.unpack = true :=
  decide_eq_true_iff

theorem float_le_trans {x y z : Float} (hxy : x ≤ y) (hyz : y ≤ z) : x ≤ z := by
  rw [float_le_iff, le_iff_rank_le] at hxy hyz ⊢
  exact ⟨hxy.1, hyz.2.1, le_trans hxy.2.2 hyz.2.2⟩

/-! ## Observations -/

namespace Histogram

/-- The histogram of values that are observed one after another. -/
def ofValues (bounds values : List Float) : Histogram :=
  values.foldl observe (withBounds bounds)

theorem ofValues_concat (bounds values : List Float) (value : Float) :
    ofValues bounds (values ++ [value]) = (ofValues bounds values).observe value := by
  rw [ofValues, List.foldl_append]
  rfl

theorem map_fst_countIn (value : Float) (buckets : List (Float × Nat)) :
    (countIn value buckets).map Prod.fst = buckets.map Prod.fst := by
  induction buckets with
  | nil => rfl
  | cons bucket rest ih =>
      rw [countIn]
      split
      · rfl
      · rw [List.map_cons, ih, List.map_cons]

theorem map_fst_cumulativeFrom (before : Nat) (buckets : List (Float × Nat)) :
    (cumulativeFrom before buckets).map Prod.fst = buckets.map Prod.fst := by
  induction buckets generalizing before with
  | nil => rfl
  | cons bucket rest ih => rw [cumulativeFrom, List.map_cons, ih, List.map_cons]

theorem cumulativeFrom_succ (before : Nat) (buckets : List (Float × Nat)) :
    cumulativeFrom (before + 1) buckets =
      (cumulativeFrom before buckets).map fun bucket => (bucket.1, bucket.2 + 1) := by
  induction buckets generalizing before with
  | nil => rfl
  | cons bucket rest ih =>
      simp only [cumulativeFrom, List.map_cons, Nat.add_right_comm before 1, ih]

/-- A value is counted up to each bound that it does not exceed. -/
theorem cumulativeFrom_countIn {buckets : List (Float × Nat)}
    (h : (buckets.map Prod.fst).Pairwise (· ≤ ·)) (value : Float) (before : Nat) :
    cumulativeFrom before (countIn value buckets) =
      (cumulativeFrom before buckets).map fun bucket =>
        (bucket.1, if value ≤ bucket.1 then bucket.2 + 1 else bucket.2) := by
  induction buckets generalizing before with
  | nil => rfl
  | cons bucket rest ih =>
      obtain ⟨bound, n⟩ := bucket
      rw [List.map_cons, List.pairwise_cons] at h
      by_cases hvalue : value ≤ bound
      · have habove : ∀ later ∈ cumulativeFrom (before + n) rest, value ≤ later.1 := by
          intro later hlater
          have hmem := List.mem_map_of_mem (f := Prod.fst) hlater
          rw [map_fst_cumulativeFrom] at hmem
          exact float_le_trans hvalue (h.1 later.1 hmem)
        rw [countIn, if_pos hvalue, cumulativeFrom, ← Nat.add_assoc, cumulativeFrom_succ,
          cumulativeFrom, List.map_cons, if_pos hvalue]
        congr 1
        apply List.map_congr_left
        intro later hlater
        rw [if_pos (habove later hlater)]
      · rw [countIn, if_neg hvalue, cumulativeFrom, ih h.2, cumulativeFrom, List.map_cons,
          if_neg hvalue]

variable {bounds : List Float}

theorem map_fst_ofValues (bounds values : List Float) :
    (ofValues bounds values).buckets.map Prod.fst = bounds := by
  induction values using List.reverseRecOn with
  | nil => simp [ofValues, withBounds, Function.comp_def]
  | append_singleton values value ih =>
      rw [ofValues_concat, observe, map_fst_countIn, ih]

theorem cumulativeFrom_empty (bounds : List Float) (before : Nat) :
    cumulativeFrom before (bounds.map fun bound => (bound, 0)) =
      bounds.map fun bound => (bound, before) := by
  induction bounds with
  | nil => rfl
  | cons bound bounds ih => simp only [List.map_cons, cumulativeFrom, Nat.add_zero, ih]

/-- Up to each bound the values are counted that do not exceed it. -/
theorem cumulative_ofValues (h : bounds.Pairwise (· ≤ ·)) (values : List Float) :
    (ofValues bounds values).cumulative =
      bounds.map fun bound => (bound, values.countP fun value => value ≤ bound) := by
  induction values using List.reverseRecOn with
  | nil => exact cumulativeFrom_empty bounds 0
  | append_singleton values value ih =>
      have hbounds : ((ofValues bounds values).buckets.map Prod.fst).Pairwise (· ≤ ·) := by
        rwa [map_fst_ofValues]
      rw [ofValues_concat, cumulative, observe, cumulativeFrom_countIn hbounds]
      rw [cumulative] at ih
      rw [ih, List.map_map]
      apply List.map_congr_left
      intro bound _
      simp only [Function.comp_apply, List.countP_append, List.countP_singleton, decide_eq_true_eq]
      split <;> rfl

theorem sum_ofValues (bounds values : List Float) :
    (ofValues bounds values).sum = values.foldl (· + ·) 0 := by
  induction values using List.reverseRecOn with
  | nil => rfl
  | append_singleton values value ih =>
      rw [ofValues_concat, observe, ih, List.foldl_append]
      rfl

theorem count_ofValues (bounds values : List Float) :
    (ofValues bounds values).count = values.length := by
  induction values using List.reverseRecOn with
  | nil => rfl
  | append_singleton values value ih =>
      rw [ofValues_concat, observe, ih, List.length_append, List.length_singleton]

/-- More values do not exceed a greater bound. -/
theorem countP_le_countP {low high : Float} (h : low ≤ high) (values : List Float) :
    values.countP (fun value => value ≤ low) ≤ values.countP fun value => value ≤ high := by
  apply List.countP_mono_left
  intro value _ hvalue
  exact decide_eq_true (float_le_trans (of_decide_eq_true hvalue) h)

end Histogram

theorem pairwise_requestBounds : Registry.requestBounds.Pairwise (· ≤ ·) := by
  decide

theorem pairwise_queryBounds : Registry.queryBounds.Pairwise (· ≤ ·) := by
  decide

end Metrics
end SearchPolling
