import SearchPolling.Proofs.Reading.Binary64
import SearchPolling.Proofs.Reading.Values

/-!
# Whole numbers that are read back

The shortest decimal of a natural number below `2^53` is the number itself: a decimal without a
fraction lies within half a unit of the number only if it is the number.  It is written with one
zero behind the point, and so read as ten times the number, divided by ten.  This is exact as
long as ten times the number stays below `2^53`.
-/

namespace SearchPolling
namespace Decimal

open Float.Model.UnpackedFloat (Sign)

variable {n : Nat}

/-- The first bit of the word of a number is its sign. -/
theorem toBits_shiftRight_integer (s : Sign) (h : 0 < n) (hn : n < 2 ^ 53) :
    (Float.Model.pack (integer s n h)).toBits >>> 63 = 1 ↔ s.toBitVec.toNat = 1 := by
  have hle := log2_le h hn
  obtain ⟨hlow, hhigh⟩ := significand_bounds h hn
  have hshift : (63 : UInt64).toNat % 64 = 63 := rfl
  have hunit : (1 : UInt64).toNat = 1 := rfl
  rw [← UInt64.toNat_inj, UInt64.toNat_shiftRight, toNat_pack_integer s h hn,
    Nat.shiftRight_eq_div_pow, hshift, hunit]
  omega

namespace Binary

/-- The magnitude of a natural number. -/
def whole (n : Nat) : Binary :=
  ⟨significand n, (n.log2 : Int) - 52⟩

theorem ofBits_integer (s : Sign) (h : 0 < n) (hn : n < 2 ^ 53) :
    ofBits (Float.Model.pack (integer s n h)).toBits = whole n := by
  have hle := log2_le h hn
  obtain ⟨hlow, hhigh⟩ := significand_bounds h hn
  have hbit : hiddenBit = 2 ^ 52 := rfl
  have hfraction : ((s.toBitVec.toNat * 2 ^ 11 + (n.log2 + 1023)) * 2 ^ 52 +
      (significand n - 2 ^ 52)) % 2 ^ 52 = significand n - 2 ^ 52 := by omega
  have hbiased : ((s.toBitVec.toNat * 2 ^ 11 + (n.log2 + 1023)) * 2 ^ 52 +
      (significand n - 2 ^ 52)) / 2 ^ 52 % 2048 = n.log2 + 1023 := by omega
  have hnormal : n.log2 + 1023 ≠ 0 := by omega
  rw [ofBits, toNat_pack_integer s h hn, hbit]
  simp only [hfraction, hbiased, if_neg hnormal, whole, Binary.mk.injEq]
  omega

/-! ## Grids -/

/-- A number and its interval on a grid of whole numbers, whose unit is `4 · 10^k` of the
number's own. -/
theorem scaled_whole (h : 0 < n) (hn : n < 2 ^ 53) (k : Nat) :
    ∃ below, 1 ≤ below ∧ below ≤ 2 ∧ (whole n).scaled k =
      ⟨4 * (n * 2 ^ (52 - n.log2)) - below, 4 * (n * 2 ^ (52 - n.log2)),
        4 * (n * 2 ^ (52 - n.log2)) + 2, 4 * (10 ^ k * 2 ^ (52 - n.log2))⟩ := by
  have hle := log2_le h hn
  have hnone : (-(k : Int)).toNat = 0 := by omega
  have hup : ((n.log2 : Int) - 52).toNat = 0 := by omega
  have hdown : (-((n.log2 : Int) - 52)).toNat = 52 - n.log2 := by omega
  have hnum : Nat.pow 10 0 <<< 0 = 1 := rfl
  have hden : (4 * Nat.pow 10 k) <<< (52 - n.log2) = 4 * (10 ^ k * 2 ^ (52 - n.log2)) := by
    rw [Nat.shiftLeft_eq, Nat.mul_assoc]
    rfl
  refine ⟨if (whole n).isNarrowBelow then 1 else 2, by split <;> decide, by split <;> decide, ?_⟩
  simp only [scaled, whole, hnone, hup, hdown, hnum, hden, Int.toNat_natCast, Nat.mul_one,
    significand]

/-- Decimals without a fraction are among the reals that round to a number only if they are
the number. -/
theorem admits_iff (h : 0 < n) (hn : n < 2 ^ 53) (k : Nat) (even : Bool) (d : Nat) :
    ((whole n).scaled k).admits even d = true ↔ d * 10 ^ k = n := by
  obtain ⟨below, hleast, hmost, hscaled⟩ := scaled_whole h hn k
  rw [hscaled, Scaled.admits]
  have hdecimal :
      d * (4 * (10 ^ k * 2 ^ (52 - n.log2))) = 4 * (d * 10 ^ k * 2 ^ (52 - n.log2)) := by
    ring
  rw [hdecimal]
  have hunit : 0 < 2 ^ (52 - n.log2) := Nat.two_pow_pos _
  generalize 2 ^ (52 - n.log2) = unit at hunit
  generalize d * 10 ^ k = decimal
  have hspan : 0 < n * unit := Nat.mul_pos h hunit
  constructor
  · intro hadmitted
    have hnear : 4 * (n * unit) ≤ 4 * (decimal * unit) + 2 ∧
        4 * (decimal * unit) ≤ 4 * (n * unit) + 2 := by
      split at hadmitted <;> simp only [Bool.and_eq_true, decide_eq_true_eq] at hadmitted <;> omega
    have hsame : decimal * unit = n * unit := by omega
    exact Nat.eq_of_mul_eq_mul_right hunit hsame
  · rintro rfl
    split <;> simp only [Bool.and_eq_true, decide_eq_true_eq] <;> omega

/-- A number lies on the grids of those powers of ten that divide it. -/
theorem onGrid_whole (h : 0 < n) (hn : n < 2 ^ 53) (tie : Tie) (k : Nat) :
    (whole n).onGrid tie k = if 10 ^ k ∣ n then some (n / 10 ^ k) else none := by
  have hlow : ((whole n).scaled k).value / ((whole n).scaled k).unit = n / 10 ^ k := by
    obtain ⟨below, -, -, hscaled⟩ := scaled_whole h hn k
    rw [hscaled]
    exact (Nat.mul_div_mul_left _ _ (by decide)).trans
      (Nat.mul_div_mul_right _ _ (Nat.two_pow_pos _))
  have hadmitted (even : Bool) : ((whole n).scaled k).admits even (n / 10 ^ k) =
      decide (10 ^ k ∣ n) := by
    rw [Bool.eq_iff_iff, admits_iff h hn, decide_eq_true_iff]
    exact ⟨Dvd.intro_left _, Nat.div_mul_cancel⟩
  have hrefused (even : Bool) : ((whole n).scaled k).admits even (n / 10 ^ k + 1) = false := by
    rw [Bool.eq_false_iff, ne_eq, admits_iff h hn]
    exact Nat.ne_of_gt (Nat.lt_mul_of_div_lt (Nat.lt_succ_self _) (Nat.pow_pos (by decide)))
  simp only [onGrid, hlow, hadmitted, hrefused]
  by_cases hdvd : 10 ^ k ∣ n <;> simp [hdvd]

/-- The search ends with the number, if it has not yet passed its last digit. -/
theorem search_whole (h : 0 < n) (hn : n < 2 ^ 53) (tie : Tie) {point : Int} {j count digits : Nat}
    (hj : point - digits = j) (hcount : j < count) :
    ∃ c k : Nat, (whole n).search tie point count digits = ⟨c, k⟩ ∧ c * 10 ^ k = n := by
  induction j generalizing count digits with
  | zero =>
      obtain ⟨count, rfl⟩ := Nat.exists_eq_succ_of_ne_zero (Nat.ne_of_gt hcount)
      refine ⟨n / 10 ^ 0, 0, ?_, by omega⟩
      rw [search, hj, onGrid_whole h hn, if_pos (show 10 ^ 0 ∣ n from Nat.one_dvd n)]
  | succ j ih =>
      obtain ⟨count, rfl⟩ := Nat.exists_eq_succ_of_ne_zero (Nat.ne_of_gt (Nat.zero_lt_of_lt hcount))
      by_cases hdvd : 10 ^ (j + 1) ∣ n
      · refine ⟨n / 10 ^ (j + 1), j + 1, ?_, Nat.div_mul_cancel hdvd⟩
        rw [search, hj, onGrid_whole h hn, if_pos hdvd]
      · rw [search, hj, onGrid_whole h hn, if_neg hdvd]
        exact ih (by omega) (by omega)

theorem decimalPoint_bounds (h : 0 < n) (hn : n < 2 ^ 53) :
    1 ≤ (whole n).decimalPoint ∧ (whole n).decimalPoint ≤ 17 := by
  have hle := log2_le h hn
  have hbits : (whole n).mantissa.log2 = 52 := log2_significand h hn
  obtain ⟨estimate, hestimate, hmost⟩ : ∃ estimate : Nat,
      (((whole n).mantissa.log2 : Int) + (whole n).exponent) * 30103 / 100000 = estimate ∧
        estimate ≤ 15 := by
    refine ⟨n.log2 * 30103 / 100000, ?_, by omega⟩
    rw [hbits, whole]
    simp only
    omega
  have hreaches : ((whole n).scaled (0 : Nat)).unit ≤ ((whole n).scaled (0 : Nat)).value := by
    obtain ⟨below, -, -, hscaled⟩ := scaled_whole h hn 0
    rw [hscaled]
    exact Nat.mul_le_mul_left 4 (Nat.mul_le_mul_right _ h)
  simp only [decimalPoint, hestimate]
  split
  · omega
  · split
    · omega
    · next hunreached =>
        -- A number that is no less than one reaches the power of zero.
        have hpositive : estimate ≠ 0 := by
          rintro rfl
          exact hunreached (decide_eq_true hreaches)
        omega

theorem shortest_whole (h : 0 < n) (hn : n < 2 ^ 53) (tie : Tie) :
    ∃ c k : Nat, (whole n).shortest tie = ⟨c, k⟩ ∧ c * 10 ^ k = n := by
  obtain ⟨hleast, hmost⟩ := decimalPoint_bounds h hn
  obtain ⟨j, hj⟩ : ∃ j : Nat, (whole n).decimalPoint - (1 : Nat) = j :=
    ⟨((whole n).decimalPoint - 1).toNat, by omega⟩
  exact search_whole h hn tie hj (by omega)

end Binary

namespace Scientific

/-- Taking zeros off a number changes its digits but not the number. -/
theorem normalize_whole {c k : Nat} (h : c * 10 ^ k = n) :
    ∃ c' k' : Nat, normalize ⟨c, k⟩ = ⟨c', k'⟩ ∧ c' * 10 ^ k' = n := by
  have hdrop (count c k : Nat) (h : c * 10 ^ k = n) :
      ∃ c' k' : Nat, dropZeros count ⟨c, k⟩ = ⟨c', k'⟩ ∧ c' * 10 ^ k' = n := by
    induction count generalizing c k with
    | zero => exact ⟨c, k, rfl, h⟩
    | succ count ih =>
        rw [dropZeros]
        split
        · next hzero =>
            simp only [Bool.and_eq_true, decide_eq_true_eq] at hzero
            refine ih (c / 10) (k + 1) ?_
            rw [Nat.pow_succ, Nat.mul_comm (10 ^ k), ← Nat.mul_assoc,
              Nat.div_mul_cancel (Nat.dvd_of_mod_eq_zero hzero.1), h]
        · exact ⟨c, k, rfl, h⟩
  exact hdrop _ c k h

/-- A number of at most sixteen digits is written with all its digits, and a zero behind the
point. -/
theorem literal_whole {c k : Nat} (h : 0 < n) (hn : n < 10 ^ 16) (hvalue : c * 10 ^ k = n) :
    literal ⟨c, k⟩ = ⟨false, natDigits c ++ List.replicate k '0', ['0'], none⟩ := by
  have hc : 0 < c := Nat.pos_of_ne_zero fun hzero => by
    rw [hzero, Nat.zero_mul] at hvalue
    omega
  have hk : k < 16 := by
    refine (Nat.pow_lt_pow_iff_right (by decide : 1 < 10)).mp (Nat.lt_of_le_of_lt ?_ hn)
    exact hvalue ▸ Nat.le_mul_of_pos_left _ hc
  have hlength : (natDigits c).length ≤ 16 - k := by
    refine (Nat.length_toDigits_le_iff (by decide) (by omega)).mpr ?_
    refine (Nat.mul_lt_mul_right (Nat.pow_pos (n := k) (by decide : 0 < 10))).mp ?_
    rwa [hvalue, ← Nat.pow_add, Nat.sub_add_cancel (Nat.le_of_lt hk)]
  have hsome : 0 < (natDigits c).length := Nat.length_toDigits_pos
  have hpositional :
      Json.realLayout.isPositional ((k : Int) + (natDigits c).length - 1) = true := by
    simp only [Layout.isPositional, Json.realLayout, Bool.and_eq_true, decide_eq_true_eq]
    omega
  have hpoint : ¬((k : Int) + (natDigits c).length - 1 + 1 ≤ 0) := by omega
  have hdigits : ((k : Int) + (natDigits c).length - 1 + 1).toNat = (natDigits c).length + k := by
    omega
  simp only [literal, hpositional, if_true, if_neg hpoint, hdigits, Nat.le_add_right,
    Nat.add_sub_cancel_left]

theorem digitsValue_whole (c k : Nat) :
    Json.digitsValue (natDigits c ++ List.replicate k '0') = c * 10 ^ k := by
  rw [Json.digitsValue_eq_ofDigitChars, Nat.ofDigitChars_append,
    ← Json.digitsValue_eq_ofDigitChars, Json.digitsValue_natDigits,
    Nat.ofDigitChars_replicate_zero, Nat.mul_comm]

end Scientific
end Decimal

namespace Json

open Decimal (integer)
open Float.Model.UnpackedFloat (Sign)

/-! ## Reading -/

/-- More digits never make a number smaller. -/
theorem le_ofDigitChars (ds : List Char) (n : Nat) : n ≤ Nat.ofDigitChars 10 ds n := by
  induction ds generalizing n with
  | nil => exact Nat.le_refl n
  | cons d ds ih =>
      have hfirst : n ≤ 10 * n + (d.toNat - '0'.toNat) := by omega
      rw [Nat.ofDigitChars_cons]
      exact Nat.le_trans hfirst (ih _)

namespace Scaled

theorem appendWhole_cons {s t : UInt64} {e : Int} {d : Char} (h : appendDigit? s d = some t)
    (ds : List Char) : (⟨s, e⟩ : Scaled).appendWhole (d :: ds) = appendWhole ⟨t, e⟩ ds := by
  conv_lhs => whnf
  rw [h]

theorem appendFraction_cons {s t : UInt64} {e : Int} {d : Char} (h : appendDigit? s d = some t)
    (ds : List Char) :
    (⟨s, e⟩ : Scaled).appendFraction (d :: ds) = appendFraction ⟨t, e - 1⟩ ds := by
  conv_lhs => whnf
  rw [h]

theorem exists_appendDigit {s : UInt64} {d : Char}
    (h : 10 * s.toNat + (d.toNat - '0'.toNat) < UInt64.size) :
    ∃ t, appendDigit? s d = some t ∧ t.toNat = 10 * s.toNat + (d.toNat - '0'.toNat) := by
  rw [Nat.mul_comm] at h ⊢
  exact ⟨_, if_pos h, UInt64.toNat_ofNat_of_lt h⟩

/-- The digits of a number of 64 bits are collected into the number. -/
theorem exists_appendWhole {s : UInt64} {e : Int} {ds : List Char}
    (h : Nat.ofDigitChars 10 ds s.toNat < UInt64.size) :
    ∃ t, (⟨s, e⟩ : Scaled).appendWhole ds = ⟨t, e⟩ ∧
      t.toNat = Nat.ofDigitChars 10 ds s.toNat := by
  induction ds generalizing s with
  | nil => exact ⟨s, rfl, rfl⟩
  | cons d ds ih =>
      rw [Nat.ofDigitChars_cons] at h
      have hfits : 10 * s.toNat + (d.toNat - '0'.toNat) < UInt64.size :=
        Nat.lt_of_le_of_lt (le_ofDigitChars ds _) h
      obtain ⟨next, hnext, hvalue⟩ := exists_appendDigit hfits
      rw [← hvalue] at h
      obtain ⟨t, ht, hrest⟩ := ih h
      exact ⟨t, (appendWhole_cons hnext ds).trans ht,
        by rw [hrest, hvalue, Nat.ofDigitChars_cons]⟩

end Scaled

/-- Digits with one zero behind the point are read as ten times the number, divided by ten. -/
theorem value_whole (negative : Bool) {ds : List Char} {u : UInt64} (h : 0 < u.toNat)
    (hds : digitsValue ds = u.toNat) (hu : 10 * u.toNat < 2 ^ 53) :
    NumberLiteral.value ⟨negative, ds, ['0'], none⟩ =
      .ok (.real (if negative then -u.toFloat else u.toFloat)) := by
  have hsize : 2 ^ 53 < UInt64.size := by decide
  have hspelt : Nat.ofDigitChars 10 ds (0 : UInt64).toNat = u.toNat := by
    rw [UInt64.toNat_zero, ← digitsValue_eq_ofDigitChars, hds]
  obtain ⟨t, hwhole, ht⟩ := @Scaled.exists_appendWhole 0 0 ds (by omega)
  have hzero : '0'.toNat - '0'.toNat = 0 := rfl
  obtain ⟨v, hfraction, hv⟩ : ∃ v, Scaled.appendDigit? t '0' = some v ∧
      v.toNat = 10 * t.toNat + ('0'.toNat - '0'.toNat) :=
    Scaled.exists_appendDigit (by omega)
  have htimes : v.toNat = 10 * u.toNat := by omega
  have hscaled : NumberLiteral.scaled ⟨negative, ds, ['0'], none⟩ = ⟨v, -1⟩ := by
    rw [NumberLiteral.scaled, hwhole]
    exact Scaled.appendFraction_cons hfraction []
  have hmagnitude : NumberLiteral.magnitude? ⟨negative, ds, ['0'], none⟩ = some u.toFloat := by
    rw [NumberLiteral.magnitude?, hscaled]
    exact congrArg some (Decimal.divide_ten h htimes (htimes ▸ hu))
  have hinteger : NumberLiteral.integer? ⟨negative, ds, ['0'], none⟩ = none := rfl
  rw [NumberLiteral.value, hinteger, hmagnitude]

/-- An integer in binary64 has the digits of its size, and a zero behind the point. -/
theorem exists_realLiteral {x : Float} {s : Sign} {n : Nat} (h : 0 < n) (hn : n < 2 ^ 53)
    (hx : x.toModel = Float.Model.pack (integer s n h)) :
    ∃ ds, digitsValue ds = n ∧ realLiteral x = ⟨s.toBitVec.toNat = 1, ds, ['0'], none⟩ := by
  have hbits : x.toBits = (Float.Model.pack (integer s n h)).toBits :=
    congrArg Float.Model.toBits hx
  have hsign : x.toBits >>> 63 = 1 ↔ s.toBitVec.toNat = 1 := by
    rw [hbits]
    exact Decimal.toBits_shiftRight_integer s h hn
  obtain ⟨c, k, hshortest, hvalue⟩ := Decimal.Binary.shortest_whole h hn realLayout.tie
  obtain ⟨c', k', hnormal, hvalue'⟩ := Decimal.Scientific.normalize_whole hvalue
  have hnonzero : (Decimal.Binary.whole n).mantissa ≠ 0 :=
    Nat.ne_of_gt (Decimal.significand_pos h)
  have hsixteen : n < 10 ^ 16 := Nat.lt_trans hn (by decide)
  refine ⟨_, (Decimal.Scientific.digitsValue_whole c' k').trans hvalue', ?_⟩
  rw [realLiteral, decide_eq_decide.mpr hsign, hbits, Decimal.Binary.ofBits_integer s h hn,
    Decimal.Binary.literal, if_neg hnonzero, hshortest, hnormal,
    Decimal.Scientific.literal_whole h hsixteen hvalue']

theorem readsBack_of_toModel {x : Float} {s : Sign} {u : UInt64} (h : 0 < u.toNat)
    (hu : 10 * u.toNat < 2 ^ 53) (hmodel : x.toModel = Float.Model.pack (integer s u.toNat h))
    (hx : x = if s.toBitVec.toNat = 1 then -u.toFloat else u.toFloat) : ReadsBack x := by
  have hsmall : u.toNat < 2 ^ 53 := by omega
  obtain ⟨ds, hds, hliteral⟩ := exists_realLiteral h hsmall hmodel
  have hfinite : x.isFinite = true := by
    change x.toModel.unpack.isFinite = true
    rw [hmodel, Decimal.unpack_pack_integer s h hsmall]
    rfl
  have hnode : (Json.real x).node =
      .leaf (.number ⟨s.toBitVec.toNat = 1, ds, ['0'], none⟩) := by
    rw [← hliteral]
    exact congrArg Node.leaf (if_pos hfinite)
  have hdecode : NumberLiteral.decode ⟨s.toBitVec.toNat = 1, ds, ['0'], none⟩ = .ok (.real x) := by
    rw [NumberLiteral.decode, value_whole _ h hds hu, hx]
    simp only [decide_eq_true_eq]
    rfl
  rw [ReadsBack, Decoder.ofString_render, hnode]
  exact map_eq_ok.mpr ⟨_, hdecode, rfl⟩

/-- An integer in binary64 whose size has at most fifteen digits, or little more: ten times the
size is below `2^53`. -/
def IsWhole (x : Float) : Prop :=
  ∃ u : UInt64, 10 * u.toNat < 2 ^ 53 ∧ (x = u.toFloat ∨ x = -u.toFloat)

/-- An integer is read back from its text in binary64, unless it is large. -/
theorem IsWhole.readsBack {x : Float} (h : IsWhole x) : ReadsBack x := by
  obtain ⟨u, hu, hx⟩ := h
  have hsmall : u.toNat < 2 ^ 53 := by omega
  rcases Nat.eq_zero_or_pos u.toNat with hzero | hpos
  · obtain rfl : u = 0 := UInt64.toNat_inj.mp hzero
    rcases hx with rfl | rfl <;> decide +kernel
  · rcases hx with rfl | rfl
    · exact readsBack_of_toModel hpos hu (Decimal.toModel_toFloat hpos hsmall) rfl
    · exact readsBack_of_toModel hpos hu (Decimal.toModel_neg_toFloat hpos hsmall) rfl

end Json
end SearchPolling
