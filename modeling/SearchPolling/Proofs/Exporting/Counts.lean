import SearchPolling.Metrics.Export
import SearchPolling.Proofs.Reading.WholeNumbers

/-!
# Counts in binary64

What a counter shows goes up by one, in binary64, whenever it is counted up
(`counted_succ`).  Up to `2^53` it has the digits of the number that was counted, and there it
stays (`numberChars_counted`).  The numbers of observations have their digits up to there, too
(`numberChars_observations`).
-/

namespace SearchPolling

namespace Decimal

/-- Zeros that are appended to the digits of a number multiply it by ten. -/
theorem natDigits_mul_pow {c : Nat} (h : 0 < c) (k : Nat) :
    natDigits (c * 10 ^ k) = natDigits c ++ List.replicate k '0' := by
  induction k with
  | zero => rw [Nat.pow_zero, Nat.mul_one, List.replicate_zero, List.append_nil]
  | succ k ih =>
      have hpos : 0 < c * 10 ^ k := Nat.mul_pos h (Nat.pow_pos (by decide))
      have htimes : c * 10 ^ (k + 1) = 10 * (c * 10 ^ k) + 0 := by
        rw [Nat.pow_succ, ← Nat.mul_assoc, Nat.mul_comm _ 10, Nat.add_zero]
      rw [natDigits, htimes, ← Nat.toDigits_append_toDigits (by decide) hpos (by decide),
        List.replicate_succ', ← List.append_assoc, ← ih]
      rfl

end Decimal

namespace Metrics

open Decimal (natDigits integer)

/-- A positive integer is written with its digits and the zeros that follow them. -/
theorem magnitude_whole {c k : Nat} (h : 0 < c) :
    numberLayout.magnitude ⟨c, k⟩ = natDigits (c * 10 ^ k) := by
  have hsome : 0 < (natDigits c).length := Nat.length_toDigits_pos
  have hpoint : ¬((k : Int) + (natDigits c).length - 1 + 1 ≤ 0) := by omega
  have hdigits : ((k : Int) + (natDigits c).length - 1 + 1).toNat = (natDigits c).length + k := by
    omega
  have hpositional : numberLayout.isPositional ((k : Int) + (natDigits c).length - 1) = true := rfl
  rw [Decimal.natDigits_mul_pow h, Decimal.Layout.magnitude]
  simp only [hpositional, if_true, Decimal.positionalDigits, if_neg hpoint, hdigits,
    Nat.le_add_right, Nat.add_sub_cancel_left]
  rfl

theorem numberChars_of_toModel {x : Float} {n : Nat} (h : 0 < n) (hn : n < 2 ^ 53)
    (hx : x.toModel = Float.Model.pack (integer .positive n h)) : numberChars x = natDigits n := by
  have hunpack : x.toModel.unpack = integer .positive n h := by
    rw [hx, Decimal.unpack_pack_integer .positive h hn]
  have hnumber : x.isNaN = false := by
    change x.toModel.unpack.isNaN = false
    rw [hunpack]
    rfl
  have hfinite : x.isFinite = true := by
    change x.toModel.unpack.isFinite = true
    rw [hunpack]
    rfl
  have hbits : x.toBits = (Float.Model.pack (integer .positive n h)).toBits :=
    congrArg Float.Model.toBits hx
  have hsign : ¬x.toBits >>> 63 = 1 := by
    rw [hbits, Decimal.toBits_shiftRight_integer .positive h hn]
    decide
  obtain ⟨c, k, hshortest, hvalue⟩ := Decimal.Binary.shortest_whole h hn numberLayout.tie
  obtain ⟨c', k', hnormal, hvalue'⟩ := Decimal.Scientific.normalize_whole hvalue
  have hc : 0 < c' := Nat.pos_of_mul_pos_right (hvalue' ▸ h)
  have hnonzero : (Decimal.Binary.whole n).mantissa ≠ 0 := Nat.ne_of_gt (Decimal.significand_pos h)
  rw [numberChars, hnumber, hfinite, Decimal.Layout.finite, if_neg hsign, hbits,
    Decimal.Binary.ofBits_integer .positive h hn]
  simp only [Bool.false_eq_true, if_false, if_true, if_neg hnonzero, hshortest, hnormal]
  rw [magnitude_whole hc, hvalue']

/-- A natural number of at most `2^53` is shown with its digits. -/
theorem numberChars_toFloat {u : UInt64} (h : u.toNat ≤ 2 ^ 53) :
    numberChars u.toFloat = natDigits u.toNat := by
  rcases Nat.eq_zero_or_pos u.toNat with hzero | hpos
  · obtain rfl : u = 0 := UInt64.toNat_inj.mp hzero
    decide +kernel
  · rcases Nat.lt_or_eq_of_le h with hsmall | hlast
    · apply numberChars_of_toModel hpos hsmall
      exact Decimal.toModel_toFloat hpos hsmall
    · obtain rfl : u = 9007199254740992 := UInt64.toNat_inj.mp hlast
      decide +kernel

theorem counted_zero : counted 0 = 0 := by
  decide +kernel

theorem counted_of_le {n : Nat} (h : n ≤ 2 ^ 53) : counted n = n.toUInt64.toFloat :=
  congrArg (fun m : Nat => m.toUInt64.toFloat) (Nat.min_eq_left h)

theorem counted_of_ge {n : Nat} (h : 2 ^ 53 ≤ n) : counted n = (2 ^ 53 : Nat).toUInt64.toFloat :=
  congrArg (fun m : Nat => m.toUInt64.toFloat) (Nat.min_eq_right h)

/-- A counter is counted up by adding one. -/
theorem counted_succ (n : Nat) : counted (n + 1) = counted n + 1 := by
  rcases Nat.lt_or_ge n (2 ^ 53) with hbelow | hstays
  · have hshown : counted (n + 1) = (n + 1).toUInt64.toFloat := counted_of_le hbelow
    rw [hshown, counted_of_le (Nat.le_of_lt hbelow)]
    rcases Nat.eq_zero_or_pos n with rfl | hpos
    · decide +kernel
    · rcases Nat.lt_or_eq_of_le (Nat.succ_le_of_lt hbelow) with hsmall | hlast
      · have hsize : 2 ^ 53 < UInt64.size := by decide
        have hvalue : n.toUInt64.toNat = n := UInt64.toNat_ofNat_of_lt (by omega)
        have hnext : (n + 1).toUInt64.toNat = n + 1 := UInt64.toNat_ofNat_of_lt (by omega)
        exact (Decimal.toFloat_add_one (by omega) (by omega) (by omega)).symm
      · obtain rfl : n = 2 ^ 53 - 1 := by omega
        decide +kernel
  · rw [counted_of_ge hstays, counted_of_ge (Nat.le_succ_of_le hstays)]
    decide +kernel

theorem ofList_numberChars_toFloat {n : Nat} (h : n ≤ 2 ^ 53) :
    String.ofList (numberChars n.toUInt64.toFloat) = toString n := by
  have hsize : 2 ^ 53 < UInt64.size := by decide
  have hvalue : n.toUInt64.toNat = n := UInt64.toNat_ofNat_of_lt (by omega)
  rw [numberChars_toFloat (hvalue.symm ▸ h), hvalue]
  exact Nat.toString_eq_ofList_toDigits.symm

/-- A counter shows how often it was counted up, as far as binary64 goes. -/
theorem numberChars_counted (n : Nat) :
    String.ofList (numberChars (counted n)) = toString (min n (2 ^ 53)) :=
  ofList_numberChars_toFloat (Nat.min_le_right n (2 ^ 53))

theorem numberChars_observations {n : Nat} (h : n ≤ 2 ^ 53) :
    String.ofList (numberChars (observations n)) = toString n :=
  ofList_numberChars_toFloat h

end Metrics
end SearchPolling
