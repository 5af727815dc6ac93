/-!
# Blank characters

The characters that count as blank when the edges of a text are trimmed: the
members of the Unicode property White_Space.
-/

namespace SearchPolling
namespace Text

/-- The ranges of code points with the property White_Space, in ascending order. -/
def blankRanges : List (Nat × Nat) :=
  [(0x0009, 0x000D), (0x0020, 0x0020), (0x0085, 0x0085), (0x00A0, 0x00A0),
   (0x1680, 0x1680), (0x2000, 0x200A), (0x2028, 0x2029), (0x202F, 0x202F),
   (0x205F, 0x205F), (0x3000, 0x3000)]

/-- A character is blank when its code point lies in one of the blank ranges. -/
def isBlank (c : Char) : Bool :=
  blankRanges.any fun (lo, hi) => lo ≤ c.toNat && c.toNat ≤ hi

theorem toNat_of_isDigit {c : Char} (h : c.isDigit = true) : 48 ≤ c.toNat ∧ c.toNat ≤ 57 := by
  rw [Char.isDigit, Bool.and_eq_true, decide_eq_true_eq, decide_eq_true_eq] at h
  exact ⟨UInt32.le_iff_toNat_le.mp h.1, UInt32.le_iff_toNat_le.mp h.2⟩

theorem isBlank_of_isDigit {c : Char} (h : c.isDigit = true) : isBlank c = false := by
  obtain ⟨hlow, hhigh⟩ := toNat_of_isDigit h
  simp only [isBlank, blankRanges, List.any_cons, List.any_nil, Bool.or_eq_false_iff,
    Bool.and_eq_false_iff, decide_eq_false_iff_not, and_true]
  omega

/-- The characters without the blank ones at the front. -/
def trimFront (cs : List Char) : List Char :=
  cs.dropWhile isBlank

/-- The characters without the blank ones at either end. -/
def trim (cs : List Char) : List Char :=
  (trimFront (trimFront cs).reverse).reverse

/-- Blanks at either end are trimmed off characters of which none is blank. -/
theorem trim_surrounded {before cs after : List Char} (hbefore : ∀ c ∈ before, isBlank c = true)
    (hcs : ∀ c ∈ cs, isBlank c = false) (hafter : ∀ c ∈ after, isBlank c = true) :
    trim (before ++ cs ++ after) = cs := by
  have hkept {ds : List Char} (hds : ∀ c ∈ ds, isBlank c = false) : trimFront ds = ds := by
    cases ds with
    | nil => rfl
    | cons d ds => rw [trimFront, List.dropWhile_cons_of_neg (by simp [hds d])]
  have hdropped {es ds : List Char} (hes : ∀ c ∈ es, isBlank c = true) :
      trimFront (es ++ ds) = trimFront ds := List.dropWhile_append_of_pos hes
  have hreversed : trimFront (cs ++ after).reverse = trimFront cs.reverse := by
    rw [List.reverse_append]
    exact hdropped fun c hc => hafter c (List.mem_reverse.mp hc)
  have hback : trimFront cs.reverse = cs.reverse :=
    hkept fun c hc => hcs c (List.mem_reverse.mp hc)
  rw [trim, List.append_assoc, hdropped hbefore]
  cases cs with
  | nil =>
      have hnone : trimFront (after ++ []) = trimFront [] := hdropped hafter
      rw [List.append_nil] at hnone
      rw [List.nil_append, hnone]
      rfl
  | cons c cs =>
      have hfront : trimFront (c :: cs ++ after) = c :: cs ++ after := by
        rw [List.cons_append, trimFront, List.dropWhile_cons_of_neg (by simp [hcs c])]
      rw [hfront, hreversed, hback, List.reverse_reverse]

/-- What is trimmed off is blank. -/
theorem exists_surrounding (cs : List Char) : ∃ before after,
    cs = before ++ trim cs ++ after ∧ (∀ c ∈ before, isBlank c = true) ∧
      ∀ c ∈ after, isBlank c = true := by
  have hblank (ds : List Char) : ∀ c ∈ ds.takeWhile isBlank, isBlank c = true := fun c hc =>
    List.all_eq_true.mp List.all_takeWhile c hc
  refine ⟨cs.takeWhile isBlank, ((trimFront cs).reverse.takeWhile isBlank).reverse, ?_,
    hblank cs, fun c hc => hblank _ c (List.mem_reverse.mp hc)⟩
  rw [trim, List.append_assoc, ← List.reverse_append]
  rw [trimFront, trimFront, List.takeWhile_append_dropWhile, List.reverse_reverse,
    List.takeWhile_append_dropWhile]

end Text
end SearchPolling
