import Mathlib.Algebra.GroupWithZero.Nat
import SearchPolling.Polling.QueryId
import SearchPolling.Proofs.Reading.Values

/-!
# Identifiers that are read back

The 32 digits of an identifier, in their hyphenated groups, are read as the identifier.
-/

namespace SearchPolling
namespace Polling
namespace QueryId

/-! ## Digits -/

/-- The number that the values of hexadecimal digits spell. -/
abbrev ofValues (values : List Nat) : Nat :=
  values.foldl (fun n d => n * 16 + d) 0

theorem hexValue?_digitChar {n : Nat} (h : n < 16) :
    Json.hexValue? n.digitChar = some n := by
  have hall : ∀ m < 16, Json.hexValue? m.digitChar = some m := by decide
  exact hall n h

/-- The digits of a number spell the number. -/
theorem exists_values_toDigits (n : Nat) :
    ∃ values, (Nat.toDigits 16 n).mapM Json.hexValue? = some values ∧ ofValues values = n := by
  induction n using Nat.strongRecOn with
  | ind n ih =>
      by_cases hsmall : n < 16
      · refine ⟨[n], ?_, Nat.zero_add n⟩
        rw [Nat.toDigits_of_lt_base hsmall, List.mapM_cons, hexValue?_digitChar hsmall]
        rfl
      · obtain ⟨values, hvalues, hspell⟩ := ih (n / 16) (by omega)
        refine ⟨values ++ [n % 16], ?_, ?_⟩
        · rw [Nat.toDigits_of_base_le (by decide) (by omega), List.mapM_append, hvalues,
            List.mapM_cons, hexValue?_digitChar (Nat.mod_lt n (by decide))]
          rfl
        · have hlast : ofValues (values ++ [n % 16]) = ofValues values * 16 + n % 16 :=
            List.foldl_append
          rw [hlast, hspell]
          omega

/-- Zeros in front of digits change nothing. -/
theorem exists_values_padded (k n : Nat) :
    ∃ values, (List.replicate k '0' ++ Nat.toDigits 16 n).mapM Json.hexValue? = some values ∧
      ofValues values = n := by
  induction k with
  | zero => exact exists_values_toDigits n
  | succ k ih =>
      obtain ⟨values, hvalues, hspell⟩ := ih
      refine ⟨0 :: values, ?_, hspell⟩
      rw [List.replicate_succ, List.cons_append, List.mapM_cons, hvalues]
      rfl

theorem length_digits (q : QueryId) : q.digits.length = 32 := by
  have hlength : (Nat.toDigits 16 q.value.toNat).length ≤ 32 :=
    (Nat.length_toDigits_le_iff (by decide) (by decide)).mpr q.value.isLt
  rw [digits, List.length_append, List.length_replicate]
  omega

/-- An identifier is read from its digits. -/
theorem ofDigits?_digits (q : QueryId) : ofDigits? q.digits = some q := by
  obtain ⟨values, hvalues, hspell⟩ :=
    exists_values_padded (32 - (Nat.toDigits 16 q.value.toNat).length) q.value.toNat
  have hread : q.digits.mapM Json.hexValue? = some values := hvalues
  rw [ofDigits?, if_pos q.length_digits, hread]
  have hvalue : BitVec.ofNat 128 (ofValues values) = q.value := by
    rw [hspell, BitVec.ofNat_toNat, BitVec.setWidth_eq]
  exact congrArg (some ∘ mk) hvalue

/-! ## Groups -/

theorem length_hyphenate {sizes : List Nat} {cs : List Char} (h : sizes.sum ≤ cs.length) :
    (hyphenate sizes cs).length = cs.length + sizes.length := by
  induction sizes generalizing cs with
  | nil => rfl
  | cons n sizes ih =>
      rw [List.sum_cons] at h
      have hrest := @ih (cs.drop n) (by rw [List.length_drop]; omega)
      rw [hyphenate, List.length_append, List.length_cons, hrest, List.length_take,
        List.length_drop, List.length_cons]
      omega

/-- Joining the groups undoes the hyphens. -/
theorem joinGroups?_hyphenate {sizes : List Nat} {cs : List Char} (h : sizes.sum ≤ cs.length) :
    joinGroups? sizes (hyphenate sizes cs) = some cs := by
  induction sizes generalizing cs with
  | nil => rfl
  | cons n sizes ih =>
      rw [List.sum_cons] at h
      have hlength : (cs.take n).length = n := List.length_take_of_le (by omega)
      have hdrop : (hyphenate (n :: sizes) cs).drop n = '-' :: hyphenate sizes (cs.drop n) :=
        List.drop_left' hlength
      have htake : (hyphenate (n :: sizes) cs).take n = cs.take n := List.take_left' hlength
      have hrest := @ih (cs.drop n) (by rw [List.length_drop]; omega)
      rw [joinGroups?, hdrop]
      simp only [htake, hrest, Option.map_some, List.take_append_drop]

theorem ofHyphenated?_hyphenate (q : QueryId) :
    ofHyphenated? (hyphenate groups q.digits) = some q := by
  have hsizes : groups.sum ≤ q.digits.length := by
    rw [q.length_digits]
    decide
  have hlength : (hyphenate groups q.digits).length = 36 := by
    rw [length_hyphenate hsizes, q.length_digits]
    rfl
  rw [ofHyphenated?, if_pos hlength, joinGroups?_hyphenate hsizes]
  exact q.ofDigits?_digits

/-- A text with hyphens is no row of digits. -/
theorem ofDigits?_hyphenate (q : QueryId) : ofDigits? (hyphenate groups q.digits) = none := by
  have hsizes : groups.sum ≤ q.digits.length := by
    rw [q.length_digits]
    decide
  refine if_neg fun hlength => ?_
  rw [length_hyphenate hsizes, q.length_digits] at hlength
  exact absurd hlength (by decide)

/-- The first character of a written identifier is a digit, and so neither a brace nor the first
letter of a name. -/
theorem exists_first (q : QueryId) : ∃ c rest, hyphenate groups q.digits = c :: rest ∧
    (Json.hexValue? c).isSome := by
  obtain ⟨c, rest, hdigits⟩ : ∃ c rest, q.digits = c :: rest :=
    List.exists_cons_of_length_pos (by rw [q.length_digits]; decide)
  obtain ⟨values, hvalues, -⟩ :=
    exists_values_padded (32 - (Nat.toDigits 16 q.value.toNat).length) q.value.toNat
  have hread : (c :: rest).mapM Json.hexValue? = some values := hdigits ▸ hvalues
  refine ⟨c, _, by rw [hdigits]; rfl, ?_⟩
  rw [List.mapM_cons] at hread
  cases hc : Json.hexValue? c with
  | none => rw [hc] at hread; cases hread
  | some v => rfl

/-- An identifier is read back from its own text. -/
theorem ofChars?_render (q : QueryId) : ofChars? q.render.toList = some q := by
  obtain ⟨c, rest, hfirst, hdigit⟩ := q.exists_first
  have hforms : ofChars? (c :: rest) =
      (ofDigits? (c :: rest)).orElse fun _ => ofHyphenated? (c :: rest) := by
    rw [ofChars?.eq_def]
    split
    · next h =>
        obtain ⟨rfl, -⟩ := List.cons.inj h
        cases hdigit
    · next h =>
        obtain ⟨rfl, -⟩ := List.cons.inj h
        cases hdigit
    · rfl
  rw [render, String.toList_ofList, hfirst, hforms, ← hfirst, q.ofDigits?_hyphenate,
    q.ofHyphenated?_hyphenate]
  rfl

end QueryId
end Polling
end SearchPolling
