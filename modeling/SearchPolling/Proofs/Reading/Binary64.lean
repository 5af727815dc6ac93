import Mathlib
import SearchPolling.Json.Literal

/-!
# Whole numbers in binary64

A natural number below `2^53` is a binary64 number, with a mantissa that is the number shifted
to 53 bits.  Nothing is rounded when it is converted, when one is added to it, or when ten times
the number is divided by ten.
-/

namespace SearchPolling
namespace Decimal

open Float.Model (Format UnpackedFloat totalExponent)
open Float.Model.UnpackedFloat

variable {n : Nat}

/-! ## Mantissas -/

theorem log2_mul_two_pow (h : n ≠ 0) (k : Nat) : (n * 2 ^ k).log2 = n.log2 + k := by
  induction k with
  | zero => rw [Nat.pow_zero, Nat.mul_one, Nat.add_zero]
  | succ k ih =>
      have hpos : n * 2 ^ k ≠ 0 := Nat.mul_ne_zero h (Nat.ne_of_gt (Nat.two_pow_pos k))
      rw [Nat.pow_succ, ← Nat.mul_assoc, Nat.mul_comm _ 2, Nat.log2_two_mul hpos, ih,
        Nat.add_assoc]

/-- The mantissa of a number, shifted to 53 bits. -/
def significand (n : Nat) : Nat :=
  n * 2 ^ (52 - n.log2)

theorem significand_pos (h : 0 < n) : 0 < significand n :=
  Nat.mul_pos h (Nat.two_pow_pos _)

theorem log2_le (h : 0 < n) (hn : n < 2 ^ 53) : n.log2 ≤ 52 :=
  Nat.le_of_lt_succ ((Nat.log2_lt (Nat.ne_of_gt h)).mpr hn)

theorem log2_significand (h : 0 < n) (hn : n < 2 ^ 53) : (significand n).log2 = 52 := by
  have hle := log2_le h hn
  rw [significand, log2_mul_two_pow (Nat.ne_of_gt h)]
  omega

theorem significand_bounds (h : 0 < n) (hn : n < 2 ^ 53) :
    2 ^ 52 ≤ significand n ∧ significand n < 2 ^ 53 :=
  (Nat.log2_eq_iff (Nat.ne_of_gt (significand_pos h))).mp (log2_significand h hn)

/-- An integer as a binary64 number, by its sign and its size. -/
def integer (s : Sign) (n : Nat) (h : 0 < n) : UnpackedFloat :=
  .finite s (significand n) ((n.log2 : Int) - 52) (significand_pos h)

/-! ## Rounding -/

/-- Zeros are shifted out without a trace. -/
theorem shiftRight_zeros (m k : Nat) :
    (⟨m * 2 ^ k, false, false⟩ : ExtendedMantissa) >>> k = ⟨m, false, false⟩ := by
  induction k generalizing m with
  | zero =>
      rw [Nat.pow_zero, Nat.mul_one]
      rfl
  | succ k ih =>
      have hlast : (⟨m * 2 ^ (k + 1), false, false⟩ : ExtendedMantissa) >>> (k + 1) =
          ((⟨m * 2 ^ (k + 1), false, false⟩ : ExtendedMantissa) >>> k).shiftRightOne := rfl
      rw [hlast, Nat.pow_succ, Nat.mul_comm (2 ^ k), ← Nat.mul_assoc, ih]
      simp [ExtendedMantissa.shiftRightOne]

/-- A mantissa with zeros behind its 53 bits loses the zeros. -/
theorem shiftToTargetExponent_zeros {m : Nat} (hm : m.log2 = 52) {e : Int} (he : -1074 ≤ e)
    (k : Nat) :
    shiftToTargetExponent Format.binary64 (m * 2 ^ k) (e - k) .exact =
      (⟨m, false, false⟩, e) := by
  have hpos : m ≠ 0 := by
    rintro rfl
    cases hm
  have htarget : Format.binary64.targetExponent (totalExponent (m * 2 ^ k) (e - k)) = e := by
    simp only [Format.targetExponent, totalExponent, log2_mul_two_pow hpos, hm,
      Format.mantissaBits, Format.minExponent]
    omega
  have hshift : (e - (e - (k : Int))).toNat = k := by omega
  have hexponent : e - (k : Int) + k = e := by omega
  simp only [shiftToTargetExponent, htarget, shiftToExponent, hshift, hexponent,
    ExtendedMantissa.ofMantissaAndAccuracy, shiftRight_zeros]

/-- A number with zeros behind it is the number when it is rounded. -/
theorem roundWithAccuracy_integer (s : Sign) (h : 0 < n) (hn : n < 2 ^ 53) {k : Nat}
    (hk : 52 - n.log2 ≤ k) :
    roundWithAccuracy Format.binary64 s (n * 2 ^ k) (-k) .exact = integer s n h := by
  have hle := log2_le h hn
  obtain ⟨zeros, rfl⟩ := Nat.exists_eq_add_of_le hk
  have hsignificand : n * 2 ^ (52 - n.log2 + zeros) = significand n * 2 ^ zeros := by
    rw [Nat.pow_add, ← Nat.mul_assoc, significand]
  have hexponent : -((52 - n.log2 + zeros : Nat) : Int) = (n.log2 : Int) - 52 - zeros := by omega
  have hfirst := shiftToTargetExponent_zeros (log2_significand h hn)
    (e := (n.log2 : Int) - 52) (by omega) zeros
  have hagain := shiftToTargetExponent_zeros (log2_significand h hn)
    (e := (n.log2 : Int) - 52) (by omega) 0
  rw [Nat.pow_zero, Nat.mul_one] at hagain
  have hexact : (⟨significand n, false, false⟩ : ExtendedMantissa).roundedMantissa =
      significand n := rfl
  have hcast : (n.log2 : Int) - 52 - ((0 : Nat) : Int) = (n.log2 : Int) - 52 := by omega
  rw [hcast] at hagain
  rw [roundWithAccuracy, hsignificand, hexponent, hfirst]
  simp only [hexact, hagain, Nat.ne_of_gt (significand_pos h), dif_neg, not_false_eq_true, integer]

/-! ## Words -/

/-- The word of a number: its sign, its exponent, and all but the first bit of its mantissa. -/
theorem pack_integer (s : Sign) (h : 0 < n) (hn : n < 2 ^ 53) :
    pack Format.binary64 (integer s n h) = packComponents Format.binary64 s
      (BitVec.ofNat 11 (n.log2 + 1023)) (BitVec.ofNat 52 (significand n)) := by
  have hle := log2_le h hn
  have hbiased : ((n.log2 : Int) - 52 + Format.binary64.exponentBias +
      Format.binary64.mantissaBitsWithoutImplicit).toNat = n.log2 + 1023 := by
    simp only [Format.exponentBias]
    omega
  have hsize : ¬2 ^ Format.binary64.exponentBits ≤ n.log2 + 1023 + 1 := by
    simp only
    omega
  have hnormal : (significand n).log2 + 1 = Format.binary64.mantissaBits := by
    rw [log2_significand h hn]
    rfl
  simp only [integer, pack, hbiased, if_neg hsize, if_pos hnormal]

theorem toNat_pack_integer (s : Sign) (h : 0 < n) (hn : n < 2 ^ 53) :
    (Float.Model.pack (integer s n h)).toBits.toNat =
      (s.toBitVec.toNat * 2 ^ 11 + (n.log2 + 1023)) * 2 ^ 52 + (significand n - 2 ^ 52) := by
  have hle := log2_le h hn
  obtain ⟨hlow, hhigh⟩ := significand_bounds h hn
  have hexponent : (n.log2 + 1023) % 2 ^ 11 = n.log2 + 1023 := Nat.mod_eq_of_lt (by omega)
  have hfraction : significand n % 2 ^ 52 = significand n - 2 ^ 52 := by omega
  have hshort : n.log2 + 1023 < 2 ^ 11 := by omega
  have hsmall : significand n - 2 ^ 52 < 2 ^ 52 := by omega
  change (pack Format.binary64 (integer s n h)).toNat = _
  rw [pack_integer s h hn, packComponents]
  simp only [BitVec.toNat_append, BitVec.toNat_ofNat, hexponent, hfraction]
  rw [← Nat.shiftLeft_add_eq_or_of_lt hshort, ← Nat.shiftLeft_add_eq_or_of_lt hsmall,
    Nat.shiftLeft_eq, Nat.shiftLeft_eq]

/-- Packing a number and unpacking it again gives the number. -/
theorem unpack_pack_integer (s : Sign) (h : 0 < n) (hn : n < 2 ^ 53) :
    (Float.Model.pack (integer s n h)).unpack = integer s n h := by
  have hle := log2_le h hn
  obtain ⟨hlow, hhigh⟩ := significand_bounds h hn
  have hbiased : (BitVec.ofNat 11 (n.log2 + 1023)).toNat = n.log2 + 1023 := by
    rw [BitVec.toNat_ofNat]
    omega
  have hnormal : BitVec.ofNat 11 (n.log2 + 1023) ≠ 0#11 := by
    intro hzero
    rw [hzero] at hbiased
    simp at hbiased
  have hfinite : BitVec.ofNat 11 (n.log2 + 1023) ≠ -1#11 := by
    intro hones
    rw [hones] at hbiased
    have hvalue : (-1#11).toNat = 2047 := rfl
    omega
  have hmantissa : (1#1 ++ BitVec.ofNat 52 (significand n)).toNat = significand n := by
    have hsmall : significand n % 2 ^ 52 < 2 ^ 52 := Nat.mod_lt _ (Nat.two_pow_pos 52)
    rw [BitVec.toNat_append, BitVec.toNat_ofNat, BitVec.toNat_ofNat,
      ← Nat.shiftLeft_add_eq_or_of_lt hsmall, Nat.shiftLeft_eq]
    omega
  have hplaces : ((n.log2 + 1023 : Nat) : Int) -
      ((Format.binary64.exponentBias : Int) + Format.binary64.mantissaBitsWithoutImplicit) =
        (n.log2 : Int) - 52 := by
    simp only [Format.exponentBias]
    omega
  change unpack Format.binary64 (pack Format.binary64 (integer s n h)) = _
  rw [pack_integer s h hn, unpack]
  simp only [unpackExponent_packComponents, unpackMantissa_packComponents,
    unpackSign_packComponents, Sign.ofBitVec_toBitVec, if_neg hfinite, if_neg hnormal, hbiased,
    hmantissa, hplaces]
  rfl

/-! ## Conversion and division -/

/-- A number with zeros behind it is the number when it is brought to 53 bits. -/
theorem normalize_integer (h : 0 < n) (hn : n < 2 ^ 53) (k : Nat) :
    UnpackedFloat.normalize Format.binary64 ((n * 2 ^ k : Nat) : Int) (-k) .positive =
      integer .positive n h := by
  have hle := log2_le h hn
  have hpos : 0 < n * 2 ^ k := Nat.mul_pos h (Nat.two_pow_pos k)
  have hcompare : compare ((n * 2 ^ k : Nat) : Int) 0 = .gt := Int.compare_eq_gt.mpr (by omega)
  have htarget : Format.binary64.targetExponent (totalExponent (n * 2 ^ k) (-k)) =
      (n.log2 : Int) - 52 := by
    simp only [Format.targetExponent, totalExponent, log2_mul_two_pow (Nat.ne_of_gt h),
      Format.mantissaBits, Format.minExponent]
    omega
  have hshift : (-(k : Int) - ((n.log2 : Int) - 52)).toNat = 52 - n.log2 - k := by omega
  have hmantissa : (n * 2 ^ k) <<< (52 - n.log2 - k) = n * 2 ^ (k + (52 - n.log2 - k)) := by
    rw [Nat.shiftLeft_eq, Nat.mul_assoc, ← Nat.pow_add]
  have hexponent : -(k : Int) - ((52 - n.log2 - k : Nat) : Int) =
      -((k + (52 - n.log2 - k) : Nat) : Int) := by omega
  rw [UnpackedFloat.normalize, hcompare]
  simp only [UnpackedFloat.round, Int.toNat_natCast, htarget, decreaseExponent, hshift, hmantissa,
    hexponent]
  exact roundWithAccuracy_integer .positive h hn (by omega)

/-- A number of 64 bits below `2^53` is converted as it is. -/
theorem toModel_toFloat {u : UInt64} (h : 0 < u.toNat) (hu : u.toNat < 2 ^ 53) :
    u.toFloat.toModel = Float.Model.pack (integer .positive u.toNat h) := by
  have hnormal := normalize_integer h hu 0
  rw [Nat.pow_zero, Nat.mul_one] at hnormal
  exact congrArg Float.Model.pack hnormal

/-- One more than a number is the next number. -/
theorem toFloat_add_one {u v : UInt64} (h : 0 < u.toNat) (hv : v.toNat = u.toNat + 1)
    (hsmall : v.toNat < 2 ^ 53) : u.toFloat + 1 = v.toFloat := by
  have hpos : 0 < v.toNat := by omega
  have hu : u.toNat < 2 ^ 53 := by omega
  have hle := log2_le h hu
  have hone : (1 : Float).toModel.unpack = .finite .positive (2 ^ 52) (-52) (by decide) := by
    rfl
  have hleast : min ((u.toNat.log2 : Int) - 52) (-52) = -((52 : Nat) : Int) := by omega
  have hup : ((u.toNat.log2 : Int) - 52 - -((52 : Nat) : Int)).toNat = u.toNat.log2 := by omega
  have hlong : significand u.toNat <<< u.toNat.log2 = u.toNat * 2 ^ 52 := by
    rw [Nat.shiftLeft_eq, significand, Nat.mul_assoc, ← Nat.pow_add, Nat.sub_add_cancel hle]
  have hsum : ((u.toNat * 2 ^ 52 : Nat) : Int) + ((2 ^ 52 : Nat) : Int) =
      ((v.toNat * 2 ^ 52 : Nat) : Int) := by omega
  have hadd : UnpackedFloat.add Format.binary64 (integer .positive u.toNat h)
      (.finite .positive (2 ^ 52) (-52) (by decide)) = integer .positive v.toNat hpos := by
    rw [integer, UnpackedFloat.add]
    simp only [hleast, decreaseExponent, hup, hlong, Sign.apply]
    rw [← normalize_integer hpos hsmall 52, ← hsum]
    rfl
  have hmodel : (u.toFloat + 1).toModel = v.toFloat.toModel := by
    change Float.Model.add u.toFloat.toModel (1 : Float).toModel = _
    rw [Float.Model.add, toModel_toFloat h hu, unpack_pack_integer .positive h hu, hone, hadd,
      toModel_toFloat hpos hsmall]
  exact congrArg Float.ofModel hmodel

theorem unpack_ten : (Json.Scaled.powerOfTen 1).toModel.unpack =
    .finite .positive (5 * 2 ^ 50) (-49) (by decide) := by
  rfl

/-- The negative of a number below `2^53` has the number's size. -/
theorem toModel_neg_toFloat {u : UInt64} (h : 0 < u.toNat) (hu : u.toNat < 2 ^ 53) :
    (-u.toFloat).toModel = Float.Model.pack (integer .negative u.toNat h) := by
  change Float.Model.pack u.toFloat.toModel.unpack.neg = _
  rw [toModel_toFloat h hu, unpack_pack_integer .positive h hu]
  rfl

/-- Ten times a number is divided by ten with nothing left. -/
theorem divCore_ten (h : 0 < n) (hn : 10 * n < 2 ^ 53) :
    divCore Format.binary64 (significand (10 * n)) (((10 * n).log2 : Int) - 52) (5 * 2 ^ 50) (-49) =
      (n * 2 ^ (56 - (10 * n).log2), -((56 - (10 * n).log2 : Nat) : Int), .exact) := by
  have hpos : 0 < 10 * n := by omega
  have hle := log2_le hpos hn
  have hten : (5 * 2 ^ 50 : Nat).log2 = 52 := by decide
  have htarget : min (((10 * n).log2 : Int) - 52 - -49) (Format.binary64.targetExponent
      (totalExponent (significand (10 * n)) (((10 * n).log2 : Int) - 52) -
        totalExponent (5 * 2 ^ 50) (-49))) = -((56 - (10 * n).log2 : Nat) : Int) := by
    simp only [Format.targetExponent, totalExponent, log2_significand hpos hn, hten,
      Format.mantissaBits, Format.minExponent]
    omega
  have hshift : (((10 * n).log2 : Int) - 52 - -49 - -((56 - (10 * n).log2 : Nat) : Int)).toNat =
      53 := by
    omega
  have hproduct : significand (10 * n) <<< 53 = n * 2 ^ (56 - (10 * n).log2) * (5 * 2 ^ 50) := by
    have hfour : 56 - (10 * n).log2 = 52 - (10 * n).log2 + 4 := by omega
    rw [Nat.shiftLeft_eq, significand, hfour, Nat.pow_add]
    ring
  rw [divCore, htarget, hshift, hproduct, Nat.mul_div_cancel _ (by decide), Nat.mul_mod_left]
  rfl

/-- Ten times a number divided by ten is the number. -/
theorem divide_ten {u v : UInt64} (h : 0 < u.toNat) (hv : v.toNat = 10 * u.toNat)
    (hsmall : v.toNat < 2 ^ 53) : Json.Scaled.divide v.toFloat 1 = u.toFloat := by
  have hpos : 0 < 10 * u.toNat := by omega
  rw [hv] at hsmall
  have hu : u.toNat < 2 ^ 53 := by omega
  have hconvert : v.toFloat.toModel.unpack = integer .positive (10 * u.toNat) hpos := by
    have hmodel : v.toFloat.toModel = Float.Model.pack (integer .positive (10 * u.toNat) hpos) := by
      simp only [← hv] at hpos hsmall ⊢
      exact toModel_toFloat hpos hsmall
    rw [hmodel, unpack_pack_integer .positive hpos hsmall]
  have hdigits : 52 - u.toNat.log2 ≤ 56 - (10 * u.toNat).log2 := by
    have hgrows : (10 * u.toNat).log2 < u.toNat.log2 + 5 :=
      (Nat.log2_lt (Nat.ne_of_gt hpos)).mpr (by
        have hself := @Nat.lt_log2_self u.toNat
        rw [Nat.pow_add] at hself ⊢
        omega)
    omega
  have hquotient : div Format.binary64 (integer .positive (10 * u.toNat) hpos)
      (.finite .positive (5 * 2 ^ 50) (-49) (by decide)) = integer .positive u.toNat h := by
    rw [integer, div]
    simp only [divCore_ten h hsmall]
    exact roundWithAccuracy_integer .positive h hu hdigits
  have hdivide : Json.Scaled.divide v.toFloat 1 = v.toFloat / Json.Scaled.powerOfTen 1 := by
    rw [Json.Scaled.divide, if_pos (by decide)]
  have hmodel : (v.toFloat / Json.Scaled.powerOfTen 1).toModel = u.toFloat.toModel := by
    change Float.Model.div v.toFloat.toModel (Json.Scaled.powerOfTen 1).toModel = _
    rw [Float.Model.div, hconvert, unpack_ten, hquotient, toModel_toFloat h hu]
  rw [hdivide]
  exact congrArg Float.ofModel hmodel

end Decimal
end SearchPolling
