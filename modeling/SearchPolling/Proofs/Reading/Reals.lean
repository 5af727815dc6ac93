import SearchPolling.Proofs.Reading.Numbers

/-!
# The literal of a number

A binary64 number is written with the fewest digits that tell it from its neighbours, always
with a fraction or an exponent.  The first of these digits is no zero, unless it stands for
the number zero or before the point.  So what is written is a literal that is read as it was
written, and that is no integer.
-/

namespace SearchPolling
namespace Decimal

open Json (NumberLiteral)

namespace Binary

/-- What lies on the grid and rounds to a value that is not zero is not zero. -/
theorem ne_zero_of_onGrid {b : Binary} (hb : b.mantissa ≠ 0) {tie : Tie} {k : Int} {d : Nat}
    (h : b.onGrid tie k = some d) : d ≠ 0 := by
  have hpow : 0 < Nat.pow 10 (-k).toNat <<< b.exponent.toNat := by
    rw [Nat.shiftLeft_eq]
    exact Nat.mul_pos (Nat.pow_pos (by decide)) (Nat.two_pow_pos _)
  have hlower : 0 < (b.scaled k).lower := by
    rw [scaled]
    refine Nat.mul_pos ?_ hpow
    split <;> omega
  have hlow {even : Bool} {d : Nat} (hd : (b.scaled k).admits even d = true) : d ≠ 0 := by
    rintro rfl
    rw [Scaled.admits] at hd
    simp only [Nat.zero_mul, Bool.and_eq_true, decide_eq_true_eq, apply_ite (· = true)] at hd
    split at hd <;> omega
  simp only [onGrid] at h
  split at h
  · next hadmitted _ =>
      -- Of the two neighbours one is admitted and the other is above it.
      have hlow' := hlow hadmitted
      split at h
      · exact Option.some.inj h ▸ hlow'
      · split at h
        · exact Option.some.inj h ▸ Nat.succ_ne_zero _
        · cases tie with
          | toEven =>
              obtain rfl := Option.some.inj h
              split
              · exact hlow'
              · exact Nat.succ_ne_zero _
          | up => exact Option.some.inj h ▸ Nat.succ_ne_zero _
  · next hadmitted _ => exact Option.some.inj h ▸ hlow hadmitted
  · exact Option.some.inj h ▸ Nat.succ_ne_zero _
  · cases h

theorem shortest_coefficient_ne_zero {b : Binary} (hb : b.mantissa ≠ 0) (tie : Tie) :
    (b.shortest tie).coefficient ≠ 0 := by
  have hsearch (count digits : Nat) :
      (b.search tie b.decimalPoint count digits).coefficient ≠ 0 := by
    induction count generalizing digits with
    | zero => exact hb
    | succ count ih =>
        rw [search]
        split
        · next hgrid => exact ne_zero_of_onGrid hb hgrid
        · exact ih (digits + 1)
  exact hsearch 17 1

end Binary

namespace Scientific

theorem normalize_coefficient_ne_zero {d : Scientific} (hd : d.coefficient ≠ 0) :
    d.normalize.coefficient ≠ 0 := by
  have hdrop (count : Nat) (d : Scientific) (hd : d.coefficient ≠ 0) :
      (dropZeros count d).coefficient ≠ 0 := by
    induction count generalizing d with
    | zero => exact hd
    | succ count ih =>
        rw [dropZeros]
        split
        · next hzero =>
            simp only [Bool.and_eq_true, decide_eq_true_eq] at hzero
            exact ih _ (by simp only; omega)
        · exact hd
  exact hdrop _ d hd

/-- The literal that a magnitude is written as. -/
def literal (d : Scientific) : NumberLiteral :=
  let digits := natDigits d.coefficient
  let exponent := d.exponent + digits.length - 1
  let point := exponent + 1
  if Json.realLayout.isPositional exponent then
    if point ≤ 0 then ⟨false, ['0'], List.replicate (-point).toNat '0' ++ digits, none⟩
    else if digits.length ≤ point.toNat then
      ⟨false, digits ++ List.replicate (point.toNat - digits.length) '0', ['0'], none⟩
    else ⟨false, digits.take point.toNat, digits.drop point.toNat, none⟩
  else ⟨false, digits.take 1, digits.drop 1, some exponent⟩

theorem chars_literal (d : Scientific) : d.literal.chars = Json.realLayout.magnitude d := by
  have hdigits : natDigits d.coefficient ≠ [] := Nat.toDigits_ne_nil
  rw [literal, Layout.magnitude]
  generalize natDigits d.coefficient = digits at hdigits
  -- The parts of the literal are chosen by the same conditions as the layout.
  split
  · rw [positionalDigits]
    split
    · simp [NumberLiteral.chars, NumberLiteral.fractionChars, NumberLiteral.exponentChars,
        hdigits]
    · split
      · simp [NumberLiteral.chars, NumberLiteral.fractionChars, NumberLiteral.exponentChars,
          Json.realLayout]
      · next hshort =>
          have hfraction := NumberLiteral.fractionChars_of_ne_nil
            (mt List.drop_eq_nil_iff.mp hshort)
          simp only [NumberLiteral.chars, hfraction, NumberLiteral.exponentChars,
            List.append_nil, Bool.false_eq_true, if_false]
  · simp [NumberLiteral.chars, NumberLiteral.fractionChars, NumberLiteral.exponentChars,
      exponentDigits]

theorem isPlain_literal {d : Scientific} (hd : d.coefficient ≠ 0) : d.literal.IsPlain := by
  obtain ⟨c, cs, hcons⟩ : ∃ c cs, natDigits d.coefficient = c :: cs :=
    List.exists_cons_of_ne_nil Nat.toDigits_ne_nil
  have hdigit : ∀ b ∈ natDigits d.coefficient, b.isDigit = true :=
    fun _ hb => isDigit_of_mem_natDigits hb
  have hc : c ≠ '0' := by
    rintro rfl
    have halone := Json.natDigits_zero_cons hcons
    have hvalue := Json.digitsValue_natDigits d.coefficient
    rw [hcons, halone] at hvalue
    exact hd hvalue.symm
  rw [literal]
  rw [hcons] at hdigit ⊢
  split
  · split
    · refine ⟨by simp, by simp, by simp, ?_⟩
      intro b hb
      rcases List.mem_append.mp hb with hzero | hb
      · exact (List.mem_replicate.mp hzero).2 ▸ rfl
      · exact hdigit b hb
    · next hpoint =>
        have hpositive : 0 < (d.exponent + (c :: cs).length - 1 + 1).toNat := by omega
        split
        · refine ⟨by simp, ?_, ?_, by simp⟩
          · intro b hb
            rcases List.mem_append.mp hb with hb | hzero
            · exact hdigit b hb
            · exact (List.mem_replicate.mp hzero).2 ▸ rfl
          · intro ds hds
            exact absurd (List.cons.inj hds).1 hc
        · obtain ⟨n, hn⟩ := Nat.exists_eq_succ_of_ne_zero (Nat.ne_of_gt hpositive)
          rw [hn]
          refine ⟨by simp, ?_, ?_, ?_⟩
          · exact fun b hb => hdigit b (List.mem_of_mem_take hb)
          · intro ds hds
            exact absurd (List.cons.inj hds).1 hc
          · exact fun b hb => hdigit b (List.mem_of_mem_drop hb)
  · refine ⟨by simp, ?_, ?_, ?_⟩
    · exact fun b hb => hdigit b (List.mem_of_mem_take hb)
    · intro ds hds
      exact absurd (List.cons.inj hds).1 hc
    · exact fun b hb => hdigit b (List.mem_of_mem_drop hb)

theorem negative_literal (d : Scientific) : d.literal.negative = false := by
  rw [literal]
  split
  · split
    · rfl
    · split <;> rfl
  · rfl

theorem isWhole_literal (d : Scientific) : d.literal.isWhole = false := by
  have hdigits : natDigits d.coefficient ≠ [] := Nat.toDigits_ne_nil
  rw [literal]
  generalize natDigits d.coefficient = digits at hdigits
  split
  · split
    · simp [NumberLiteral.isWhole, hdigits]
    · split
      · rfl
      · next hshort =>
          have hfraction := List.isEmpty_eq_false_iff.mpr (mt List.drop_eq_nil_iff.mp hshort)
          simp only [NumberLiteral.isWhole, hfraction, Bool.false_and]
  · simp [NumberLiteral.isWhole]

end Scientific

namespace Binary

/-- The literal that a magnitude is written as. -/
def literal (b : Binary) : NumberLiteral :=
  if b.mantissa = 0 then ⟨false, ['0'], ['0'], none⟩
  else (b.shortest Json.realLayout.tie).normalize.literal

theorem isPlain_literal (b : Binary) : b.literal.IsPlain := by
  rw [literal]
  split
  · have hzero : ∀ c ∈ ['0'], c.isDigit = true := List.forall_mem_singleton.mpr rfl
    exact ⟨by decide, hzero, by simp, hzero⟩
  · next hb =>
      exact Scientific.isPlain_literal (Scientific.normalize_coefficient_ne_zero
        (shortest_coefficient_ne_zero hb Json.realLayout.tie))

theorem isWhole_literal (b : Binary) : b.literal.isWhole = false := by
  rw [literal]
  split
  · rfl
  · exact Scientific.isWhole_literal _

end Binary
end Decimal

namespace Json

open Decimal (Binary)

/-- The literal that a finite binary64 number is written as. -/
def realLiteral (x : Float) : NumberLiteral :=
  { (Binary.ofBits x.toBits).literal with negative := x.toBits >>> 63 = 1 }

theorem isPlain_realLiteral (x : Float) : (realLiteral x).IsPlain := by
  obtain ⟨hwhole, hdigits, hzero, hfraction⟩ := (Binary.ofBits x.toBits).isPlain_literal
  exact ⟨hwhole, hdigits, hzero, hfraction⟩

theorem chars_realLiteral (x : Float) : (realLiteral x).chars = realLayout.finite x := by
  have hsize : (Binary.ofBits x.toBits).literal.chars =
      if (Binary.ofBits x.toBits).mantissa = 0 then ['0', '.', '0']
      else realLayout.magnitude
        ((Binary.ofBits x.toBits).shortest realLayout.tie).normalize := by
    rw [Binary.literal]
    split
    · rfl
    · exact Decimal.Scientific.chars_literal _
  have hunsigned : (Binary.ofBits x.toBits).literal.negative = false := by
    rw [Binary.literal]
    split
    · rfl
    · exact Decimal.Scientific.negative_literal _
  have hpoint : realLayout.showPoint = true := rfl
  rw [NumberLiteral.chars, hunsigned, if_neg Bool.false_ne_true] at hsize
  simp only [NumberLiteral.chars, realLiteral, Decimal.Layout.finite, hpoint, if_true, ← hsize,
    decide_eq_true_eq]

namespace Number

/-- The literal of a number; one that is not finite has none. -/
def literal : Number → NumberLiteral
  | natural n => ⟨false, Decimal.natDigits n.toNat, [], none⟩
  | negative n => ⟨n.toInt < 0, Decimal.natDigits n.toInt.natAbs, [], none⟩
  | real x => realLiteral x

/-- The lexeme that a number is written as. -/
def lexeme : Number → Lexeme
  | real x => if x.isFinite then .number (realLiteral x) else .null
  | n => .number n.literal

/-- Whether a number is written without point and exponent, and not as another number. -/
def isInteger : Number → Bool
  | natural _ => true
  | negative n => n < 0
  | real _ => false

theorem isPlain_literal (n : Number) : n.literal.IsPlain := by
  have hdigits (n : Nat) (negative : Bool) :
      NumberLiteral.IsPlain ⟨negative, Decimal.natDigits n, [], none⟩ :=
    ⟨Nat.toDigits_ne_nil, fun _ hc => Decimal.isDigit_of_mem_natDigits hc,
      fun _ hds => natDigits_zero_cons hds, nofun⟩
  cases n with
  | natural n => exact hdigits n.toNat false
  | negative n => exact hdigits n.toInt.natAbs _
  | real x => exact isPlain_realLiteral x

/-- A number is written as its literal, unless it is not finite. -/
theorem chars_cases (n : Number) :
    n.chars = "null".toList ∧ n.lexeme = .null ∨
      n.chars = n.literal.chars ∧ n.lexeme = .number n.literal := by
  cases n with
  | natural n =>
      refine .inr ⟨?_, rfl⟩
      simp [chars, literal, NumberLiteral.chars, NumberLiteral.fractionChars,
        NumberLiteral.exponentChars]
  | negative n =>
      refine .inr ⟨?_, rfl⟩
      simp [chars, literal, NumberLiteral.chars, NumberLiteral.fractionChars,
        NumberLiteral.exponentChars, Decimal.intDigits]
  | real x =>
      rw [chars, lexeme, literal, chars_realLiteral]
      split
      · exact .inr ⟨rfl, rfl⟩
      · exact .inl ⟨rfl, rfl⟩

/-- An integer is what its literal denotes. -/
theorem value_literal {n : Number} (h : n.isInteger = true) : n.literal.value = .ok n := by
  cases n with
  | natural n =>
      have hsize : n.toNat < UInt64.size := n.toNat_lt_size
      have hvalue := digitsValue_natDigits n.toNat
      simp only [literal, NumberLiteral.value, NumberLiteral.integer?, hvalue]
      simp [hsize]
  | negative n =>
      have hneg : n.toInt < 0 := Int64.lt_iff_toInt_lt.mp (of_decide_eq_true h)
      have hleast : -2 ^ 63 ≤ n.toInt := n.le_toInt
      have hvalue := digitsValue_natDigits n.toInt.natAbs
      have hsize : 0 < n.toInt.natAbs ∧ n.toInt.natAbs ≤ 1 <<< 63 := by omega
      have hsame : -(n.toInt.natAbs : Int) = n.toInt := by omega
      have hinteger : (negative n).literal.integer? =
          some (.negative (Int64.ofInt (-(n.toInt.natAbs : Int)))) := by
        simp only [literal, NumberLiteral.integer?, hvalue, hneg, List.isEmpty_nil,
          Option.isNone_none, Bool.and_self, if_true, hsize, decide_true]
      rw [NumberLiteral.value, hinteger, hsame, Int64.ofInt_toInt]
  | real x => cases h

/-- The literal of a binary64 number denotes no integer. -/
theorem value_real {x : Float} {n : Number} (h : (real x).literal.value = .ok n) :
    ∃ y, n = .real y := by
  have hinteger : (realLiteral x).integer? = none := by
    have hwhole : (realLiteral x).isWhole = false := (Binary.ofBits x.toBits).isWhole_literal
    rw [NumberLiteral.isWhole] at hwhole
    rw [NumberLiteral.integer?, hwhole, if_neg Bool.false_ne_true]
  rw [literal, NumberLiteral.value, hinteger] at h
  cases hsize : (realLiteral x).magnitude? with
  | none =>
      rw [hsize] at h
      cases h
  | some y =>
      rw [hsize] at h
      exact ⟨_, (Except.ok.inj h).symm⟩

end Number
end Json
end SearchPolling
