import SearchPolling.Proofs.Reading.Literals

/-!
# Number literals

A number is written as a sign, digits, a fraction and an exponent, of which only the digits
have to be there.  Whatever follows, the literal that is read is made of these parts.

What a literal with a fraction or an exponent denotes is not said here.  Its digits are chosen
by rounding, and are rounded again when they are read.
-/

namespace SearchPolling
namespace Json

open Text (Glyph)

/-! ## Digits -/

/-- Whether what follows a number does not go on with it. -/
def endsNumber : List Glyph → Bool
  | .char c :: _ => !(c.isDigit || c == '.' || c == 'e' || c == 'E')
  | _ => true

/-- Whether what follows digits does not go on with them. -/
def endsDigits : List Glyph → Bool
  | .char c :: _ => !c.isDigit
  | _ => true

theorem endsDigits_of_endsNumber {gs : List Glyph} (h : endsNumber gs = true) :
    endsDigits gs = true := by
  cases gs with
  | nil => rfl
  | cons g gs =>
      cases g with
      | stray bytes => rfl
      | char c =>
          simp only [endsNumber, Bool.not_eq_true', Bool.or_eq_false_iff] at h
          simp only [endsDigits, h.1.1.1, Bool.not_false]

/-- A digit is none of the characters of a list without digits. -/
theorem ne_of_isDigit {d : Char} (hd : d.isDigit = true) {cs : List Char}
    (hcs : cs.all (fun c => !c.isDigit) = true) : ∀ c ∈ cs, d ≠ c := by
  rintro c hc rfl
  have hnone : (!d.isDigit) = true := List.all_eq_true.mp hcs d hc
  rw [hd] at hnone
  cases hnone

theorem digitsValue_eq_ofDigitChars (ds : List Char) :
    digitsValue ds = Nat.ofDigitChars 10 ds 0 := by
  rw [Nat.ofDigitChars_eq_foldl]
  simp only [digitsValue, Nat.mul_comm]

theorem digitsValue_natDigits (n : Nat) : digitsValue (Decimal.natDigits n) = n := by
  rw [digitsValue_eq_ofDigitChars, Decimal.natDigits, Nat.ofDigitChars_ten_toDigits]

/-- A zero stands first only if it stands alone. -/
theorem natDigits_zero_cons {n : Nat} {ds : List Char}
    (h : Decimal.natDigits n = '0' :: ds) : ds = [] := by
  induction n using Nat.strongRecOn generalizing ds with
  | ind n ih =>
      rw [Decimal.natDigits] at h
      by_cases hsmall : n < 10
      · rw [Nat.toDigits_of_lt_base hsmall] at h
        exact (List.cons.inj h).2.symm
      · rw [Nat.toDigits_of_base_le (by decide) (by omega)] at h
        obtain ⟨d, rest, hrest⟩ : ∃ d rest, Nat.toDigits 10 (n / 10) = d :: rest :=
          List.exists_cons_of_ne_nil Nat.toDigits_ne_nil
        rw [hrest, List.cons_append] at h
        obtain ⟨rfl, -⟩ := List.cons.inj h
        -- What stands before the last digit would be zero, and the number below ten.
        have halone := ih (n / 10) (by omega) hrest
        rw [halone] at hrest
        have hvalue := digitsValue_natDigits (n / 10)
        rw [Decimal.natDigits, hrest] at hvalue
        have hzero : n / 10 = 0 := hvalue.symm
        omega

theorem spanDigits_append {ds : List Char} (hds : ∀ c ∈ ds, c.isDigit = true) {gs : List Glyph}
    (hends : endsDigits gs = true) : spanDigits (Glyph.ofChars ds ++ gs) = (ds, gs) := by
  induction ds with
  | nil =>
      cases gs with
      | nil => rfl
      | cons g gs =>
          cases g with
          | stray bytes => rfl
          | char c =>
              have hdigit : c.isDigit = false := by simpa [endsDigits] using hends
              simp [Glyph.ofChars, spanDigits, hdigit]
  | cons d ds ih =>
      have hrest := ih fun c hc => hds c (List.mem_cons_of_mem _ hc)
      have hd : d.isDigit = true := hds d List.mem_cons_self
      have hcons : Glyph.ofChars (d :: ds) ++ gs = .char d :: (Glyph.ofChars ds ++ gs) := rfl
      rw [hcons, spanDigits, if_pos hd, hrest]

/-! ## Literals -/

namespace NumberLiteral

/-- The exponent of a literal, always with a sign. -/
def exponentChars : Option Int → List Char
  | none => []
  | some e => 'e' :: (if e < 0 then '-' else '+') :: Decimal.natDigits e.natAbs

def fractionChars (fraction : List Char) : List Char :=
  if fraction.isEmpty then [] else '.' :: fraction

theorem fractionChars_of_ne_nil {fraction : List Char} (h : fraction ≠ []) :
    fractionChars fraction = '.' :: fraction :=
  if_neg (mt List.isEmpty_iff.mp h)

/-- The text of a literal. -/
def chars (n : NumberLiteral) : List Char :=
  let unsigned := n.whole ++ (fractionChars n.fraction ++ exponentChars n.exponent)
  if n.negative then '-' :: unsigned else unsigned

/-- Whether a literal has neither fraction nor exponent. -/
def isWhole (n : NumberLiteral) : Bool :=
  n.fraction.isEmpty && n.exponent.isNone

/-- Literals of digits, of which a zero stands first only if it stands alone. -/
structure IsPlain (n : NumberLiteral) : Prop where
  whole_ne_nil : n.whole ≠ []
  isDigit_whole : ∀ c ∈ n.whole, c.isDigit = true
  zero_alone : ∀ ds, n.whole = '0' :: ds → ds = []
  isDigit_fraction : ∀ c ∈ n.fraction, c.isDigit = true

/-! ## Texts of literals -/

/-- The digits behind the point of a number, and the text of the fraction. -/
inductive FractionOf : List Char → List Char → Prop
  | none : FractionOf [] []
  | some {ds : List Char} : Grammar.IsDigits ds → FractionOf ds ('.' :: ds)

/-- The exponent of a number, and its text. -/
inductive ExponentOf : Option Int → List Char → Prop
  | none : ExponentOf .none []
  | some {e : Char} {sign ds : List Char} : e ∈ ['e', 'E'] → sign ∈ [[], ['+'], ['-']] →
      Grammar.IsDigits ds →
      ExponentOf (.some (if sign = ['-'] then -(digitsValue ds : Int) else digitsValue ds))
        (e :: (sign ++ ds))

/-- A literal but for its sign, and its text. -/
inductive UnsignedOf : NumberLiteral → List Char → Prop
  | mk {negative : Bool} {whole fraction cs : List Char} {exponent : Option Int}
      {ds : List Char} : Grammar.IsWhole whole → FractionOf fraction ds → ExponentOf exponent cs →
      UnsignedOf ⟨negative, whole, fraction, exponent⟩ (whole ++ (ds ++ cs))

/-- A literal and its text. -/
def SpelledBy (n : NumberLiteral) (cs : List Char) : Prop :=
  ∃ ds, UnsignedOf n ds ∧ cs = if n.negative then '-' :: ds else ds

theorem fractionOf_fractionChars {fraction : List Char} (h : ∀ c ∈ fraction, c.isDigit = true) :
    FractionOf fraction (fractionChars fraction) := by
  cases fraction with
  | nil => exact .none
  | cons d ds => exact .some ⟨List.cons_ne_nil d ds, h⟩

theorem exponentOf_exponentChars (exponent : Option Int) :
    ExponentOf exponent (exponentChars exponent) := by
  cases exponent with
  | none => exact .none
  | some e =>
      have hdigits : Grammar.IsDigits (Decimal.natDigits e.natAbs) :=
        ⟨Nat.toDigits_ne_nil, fun _ hc => Decimal.isDigit_of_mem_natDigits hc⟩
      have hvalue := digitsValue_natDigits e.natAbs
      by_cases hneg : e < 0
      · have hsame : -(e.natAbs : Int) = e := by omega
        have hexponent : ExponentOf _ ('e' :: (['-'] ++ Decimal.natDigits e.natAbs)) :=
          .some (by decide) (by decide) hdigits
        rw [if_pos rfl, hvalue, hsame] at hexponent
        rw [exponentChars, if_pos hneg]
        exact hexponent
      · have hsame : (e.natAbs : Int) = e := by omega
        have hexponent : ExponentOf _ ('e' :: (['+'] ++ Decimal.natDigits e.natAbs)) :=
          .some (by decide) (by decide) hdigits
        rw [if_neg (by decide), hvalue, hsame] at hexponent
        rw [exponentChars, if_neg hneg]
        exact hexponent

/-- A plain literal is spelled by the text that it is written as. -/
theorem spelledBy_chars {n : NumberLiteral} (h : n.IsPlain) : n.SpelledBy n.chars :=
  ⟨_, .mk ⟨⟨h.whole_ne_nil, h.isDigit_whole⟩, h.zero_alone⟩
    (fractionOf_fractionChars h.isDigit_fraction) (exponentOf_exponentChars n.exponent), rfl⟩

/-! ## Reading the text of a literal -/

theorem endsDigits_exponentOf {exponent : Option Int} {cs : List Char}
    (h : ExponentOf exponent cs) {gs : List Glyph} (hends : endsNumber gs = true) :
    endsDigits (Glyph.ofChars cs ++ gs) = true := by
  cases h with
  | none => exact endsDigits_of_endsNumber hends
  | some he _ _ =>
      simp only [List.mem_cons, List.not_mem_nil, or_false] at he
      rcases he with rfl | rfl <;> rfl

theorem exponentSign_append {sign ds : List Char} (hsign : sign ∈ [[], ['+'], ['-']])
    (hds : Grammar.IsDigits ds) (gs : List Glyph) :
    exponentSign (Glyph.ofChars (sign ++ ds) ++ gs) =
      (decide (sign = ['-']), Glyph.ofChars ds ++ gs) := by
  simp only [List.mem_cons, List.not_mem_nil, or_false] at hsign
  rcases hsign with rfl | rfl | rfl
  · obtain ⟨d, rest, rfl⟩ := List.exists_cons_of_ne_nil hds.1
    have hd : d.isDigit = true := hds.2 d List.mem_cons_self
    have hother : ∀ c ∈ ['+', '-'], d ≠ c := ne_of_isDigit hd (by decide)
    simp only [List.mem_cons, List.not_mem_nil, or_false, forall_eq_or_imp, forall_eq] at hother
    unfold exponentSign
    split
    · next heq => exact absurd (Glyph.char.inj (List.cons.inj heq).1) hother.1
    · next heq => exact absurd (Glyph.char.inj (List.cons.inj heq).1) hother.2
    · rfl
  · rfl
  · rfl

theorem scanExponent_exponentOf (negative : Bool) (whole fraction : List Char)
    {exponent : Option Int} {cs : List Char} (h : ExponentOf exponent cs) {gs : List Glyph}
    (hends : endsNumber gs = true) :
    scanExponent negative whole fraction (Glyph.ofChars cs ++ gs) =
      (.number ⟨negative, whole, fraction, exponent⟩, gs) := by
  cases h with
  | none =>
      cases gs with
      | nil => rfl
      | cons g gs =>
          cases g with
          | stray bytes => rfl
          | char c =>
              simp only [endsNumber, Bool.not_eq_true', Bool.or_eq_false_iff,
                beq_eq_false_iff_ne] at hends
              have hnone : ¬(c = 'e' ∨ c = 'E') := not_or.mpr ⟨hends.1.2, hends.2⟩
              exact if_neg hnone
  | @some e sign ds he hsign hds =>
      have hspan := spanDigits_append hds.2 (endsDigits_of_endsNumber hends)
      have hsome : ds.isEmpty = false := List.isEmpty_eq_false_iff.mpr hds.1
      have hletter : e = 'e' ∨ e = 'E' := by simpa using he
      have hread := exponentSign_append hsign hds gs
      have htext : Glyph.ofChars (e :: (sign ++ ds)) ++ gs =
          .char e :: (Glyph.ofChars (sign ++ ds) ++ gs) := rfl
      rw [htext, scanExponent, if_pos hletter, hread]
      simp [hspan, hsome]

theorem scanFraction_fractionOf (negative : Bool) (whole : List Char) {fraction ds : List Char}
    (hfraction : FractionOf fraction ds) {exponent : Option Int} {cs : List Char}
    (hexponent : ExponentOf exponent cs) {gs : List Glyph} (hends : endsNumber gs = true) :
    scanFraction negative whole (Glyph.ofChars (ds ++ cs) ++ gs) =
      (.number ⟨negative, whole, fraction, exponent⟩, gs) := by
  have hread := scanExponent_exponentOf negative whole fraction hexponent hends
  cases hfraction with
  | none =>
      rw [List.nil_append, ← hread]
      -- Neither an exponent nor what follows a number begins with a point.
      unfold scanFraction
      split
      · next heq =>
          exfalso
          cases hexponent with
          | none =>
              have hpoint : gs = .char '.' :: _ := heq
              rw [hpoint] at hends
              cases hends
          | some he _ _ =>
              obtain rfl : _ = '.' := Glyph.char.inj (List.cons.inj heq).1
              simp at he
      · rfl
  | some hds =>
      have hspan := spanDigits_append hds.2 (endsDigits_exponentOf hexponent hends)
      have hsome : fraction.isEmpty = false := List.isEmpty_eq_false_iff.mpr hds.1
      have htext : Glyph.ofChars ('.' :: fraction ++ cs) ++ gs =
          .char '.' :: (Glyph.ofChars fraction ++ (Glyph.ofChars cs ++ gs)) := by
        simp [Glyph.ofChars]
      rw [htext, scanFraction, hspan]
      simp only [hsome, Bool.false_eq_true, if_false]
      exact hread

theorem endsDigits_fractionOf {fraction ds : List Char} (hfraction : FractionOf fraction ds)
    {exponent : Option Int} {cs : List Char} (hexponent : ExponentOf exponent cs)
    {gs : List Glyph} (hends : endsNumber gs = true) :
    endsDigits (Glyph.ofChars (ds ++ cs) ++ gs) = true := by
  cases hfraction with
  | none => exact endsDigits_exponentOf hexponent hends
  | some _ => rfl

/-- A literal is read behind its sign. -/
theorem scan_unsignedOf {n : NumberLiteral} {cs : List Char} (h : UnsignedOf n cs)
    {gs : List Glyph} (hends : endsNumber gs = true) :
    scan n.negative (Glyph.ofChars cs ++ gs) = (.number n, gs) := by
  cases h with
  | @mk negative whole fraction cs exponent ds hwhole hfraction hexponent =>
      have hread := scanFraction_fractionOf negative whole hfraction hexponent hends
      have hspan := spanDigits_append hwhole.1.2 (endsDigits_fractionOf hfraction hexponent hends)
      have htext : Glyph.ofChars (whole ++ (ds ++ cs)) ++ gs =
          Glyph.ofChars whole ++ (Glyph.ofChars (ds ++ cs) ++ gs) := by
        simp [Glyph.ofChars]
      rw [htext, scan, hspan]
      split
      · next heq => exact absurd (Prod.ext_iff.mp heq).1 hwhole.1.1
      · next heq => cases hwhole.2 _ (Prod.ext_iff.mp heq).1
      · next heq =>
          obtain ⟨rfl, rfl⟩ := Prod.ext_iff.mp heq
          exact hread

/-- No other lexeme begins with a digit. -/
theorem next_digit {d : Char} (hd : d.isDigit = true) (gs : List Glyph) :
    Lexeme.next (.char d) gs =
      if d = '0' ∧ !(spanDigits gs).1.isEmpty then (.brokenNumber false, (spanDigits gs).2)
      else scanFraction false (d :: (spanDigits gs).1) (spanDigits gs).2 := by
  have hother : ∀ c ∈ ['[', ']', '\x7b', '\x7d', ':', ',', 'n', 't', 'f', '"', '-'], d ≠ c :=
    ne_of_isDigit hd (by decide)
  simp only [List.mem_cons, List.not_mem_nil, or_false, forall_eq_or_imp, forall_eq] at hother
  obtain ⟨h₁, h₂, h₃, h₄, h₅, h₆, h₇, h₈, h₉, h₁₀, h₁₁⟩ := hother
  simp only [Lexeme.next, h₁, h₂, h₃, h₄, h₅, h₆, h₇, h₈, h₉, h₁₀, h₁₁, hd, if_false, if_true]

/-- A literal without a sign begins with a digit. -/
theorem next_unsignedOf {n : NumberLiteral} {cs : List Char} (h : UnsignedOf n cs)
    (hnegative : n.negative = false) {gs : List Glyph} (hends : endsNumber gs = true) :
    ∃ d rest, cs = d :: rest ∧ d.isDigit = true ∧
      Lexeme.next (.char d) (Glyph.ofChars rest ++ gs) = (.number n, gs) := by
  cases h with
  | @mk negative whole fraction cs exponent ds hwhole hfraction hexponent =>
      obtain rfl : negative = false := hnegative
      have hread := scanFraction_fractionOf false whole hfraction hexponent hends
      obtain ⟨d, more, rfl⟩ := List.exists_cons_of_ne_nil hwhole.1.1
      have hd : d.isDigit = true := hwhole.1.2 d List.mem_cons_self
      have hmore : ∀ c ∈ more, c.isDigit = true := fun c hc =>
        hwhole.1.2 c (List.mem_cons_of_mem _ hc)
      have hspan := spanDigits_append hmore (endsDigits_fractionOf hfraction hexponent hends)
      have htext : Glyph.ofChars (more ++ (ds ++ cs)) ++ gs =
          Glyph.ofChars more ++ (Glyph.ofChars (ds ++ cs) ++ gs) := by
        simp [Glyph.ofChars]
      have hzero : ¬(d = '0' ∧ !more.isEmpty) := by
        rintro ⟨rfl, hsome⟩
        rw [hwhole.2 more rfl] at hsome
        exact Bool.false_ne_true hsome
      refine ⟨d, more ++ (ds ++ cs), rfl, hd, ?_⟩
      rw [next_digit hd, htext, hspan, if_neg hzero]
      exact hread

/-- A literal is read from its text, which begins with a sign or with a digit. -/
theorem next_spelledBy {n : NumberLiteral} {cs : List Char} (h : n.SpelledBy cs)
    {gs : List Glyph} (hends : endsNumber gs = true) :
    ∃ c rest, cs = c :: rest ∧ (c = '-' ∨ c.isDigit = true) ∧
      Lexeme.next (.char c) (Glyph.ofChars rest ++ gs) = (.number n, gs) := by
  obtain ⟨ds, hunsigned, hsigned⟩ := h
  cases hnegative : n.negative with
  | true =>
      have hread := scan_unsignedOf hunsigned hends
      rw [hnegative] at hread hsigned
      exact ⟨'-', ds, hsigned, .inl rfl, hread⟩
  | false =>
      rw [hnegative] at hsigned
      obtain ⟨d, rest, htext, hd, hnext⟩ := next_unsignedOf hunsigned hnegative hends
      exact ⟨d, rest, hsigned.trans htext, .inr hd, hnext⟩

end NumberLiteral

end Json
end SearchPolling
