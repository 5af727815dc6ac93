import SearchPolling.Proofs.Reading.Numbers

/-!
# Number literals that have been read

What is read as a number literal is a text of the grammar, and its parts are those of the
literal.  It denotes a natural number just if it is made of the digits of the number.
-/

namespace SearchPolling
namespace Json

open Text (Glyph)

/-! ## Digits and their values -/

/-- The value of a digit, below ten. -/
theorem value_lt_of_isDigit {d : Char} (h : d.isDigit = true) : d.toNat - '0'.toNat < 10 := by
  have hrange : 48 ≤ d.toNat ∧ d.toNat ≤ 57 := by
    simpa [Char.isDigit, UInt32.le_iff_toNat_le] using h
  have hzero : '0'.toNat = 48 := rfl
  omega

theorem digitChar_of_isDigit {d : Char} (h : d.isDigit = true) :
    Nat.digitChar (d.toNat - '0'.toNat) = d := by
  have hrange : 48 ≤ d.toNat ∧ d.toNat ≤ 57 := by
    simpa [Char.isDigit, UInt32.le_iff_toNat_le] using h
  have hall : ∀ m < 10, Nat.digitChar m = Char.ofNat (48 + m) := by decide
  have hsame : 48 + (d.toNat - '0'.toNat) = d.toNat := by
    have hzero : '0'.toNat = 48 := rfl
    omega
  rw [hall _ (value_lt_of_isDigit h), hsame, Char.ofNat_toNat]

/-- Digits behind a positive number are digits of a number. -/
theorem natDigits_foldl {ds : List Char} (hds : ∀ c ∈ ds, c.isDigit = true) {n : Nat}
    (hn : 0 < n) :
    Decimal.natDigits (ds.foldl (fun n c => n * 10 + (c.toNat - '0'.toNat)) n) =
      Decimal.natDigits n ++ ds := by
  induction ds generalizing n with
  | nil => rw [List.foldl_nil, List.append_nil]
  | cons d ds ih =>
      rw [List.forall_mem_cons] at hds
      have hdigit : Nat.digitChar (d.toNat - '0'.toNat) = d := digitChar_of_isDigit hds.1
      have hsmall : d.toNat - '0'.toNat < 10 := value_lt_of_isDigit hds.1
      rw [List.foldl_cons, ih hds.2 (by omega), Decimal.natDigits, Decimal.natDigits,
        Nat.toDigits_of_base_le (by decide) (by omega)]
      have hquotient : (n * 10 + (d.toNat - '0'.toNat)) / 10 = n := by omega
      have hremainder : (n * 10 + (d.toNat - '0'.toNat)) % 10 = d.toNat - '0'.toNat := by omega
      rw [hquotient, hremainder, hdigit, List.append_assoc, List.singleton_append]

/-- The digits of a number are those of its value. -/
theorem natDigits_digitsValue {ds : List Char} (h : Grammar.IsWhole ds) :
    Decimal.natDigits (digitsValue ds) = ds := by
  obtain ⟨⟨hsome, hdigits⟩, hzero⟩ := h
  obtain ⟨d, more, rfl⟩ := List.exists_cons_of_ne_nil hsome
  rw [List.forall_mem_cons] at hdigits
  have hdigit : Nat.digitChar (d.toNat - '0'.toNat) = d := digitChar_of_isDigit hdigits.1
  have hsmall : d.toNat - '0'.toNat < 10 := value_lt_of_isDigit hdigits.1
  have hfirst : Decimal.natDigits (d.toNat - '0'.toNat) = [d] := by
    rw [Decimal.natDigits, Nat.toDigits_of_lt_base hsmall, hdigit]
  have hvalue : digitsValue (d :: more) =
      more.foldl (fun n c => n * 10 + (c.toNat - '0'.toNat)) (d.toNat - '0'.toNat) := by
    rw [digitsValue, List.foldl_cons, Nat.zero_mul, Nat.zero_add]
  rw [hvalue]
  by_cases hpositive : 0 < d.toNat - '0'.toNat
  · rw [natDigits_foldl hdigits.2 hpositive, hfirst, List.singleton_append]
  · have hnone : d.toNat - '0'.toNat = 0 := by omega
    rw [hnone] at hdigit
    obtain rfl : '0' = d := hdigit
    rw [hzero more rfl]
    exact hfirst

namespace NumberLiteral

/-! ## The text of a literal that has been read -/

/-- Digits are cut off where they end. -/
theorem ofChars_eq_spanDigits {cs ds : List Char} {gs : List Glyph}
    (h : spanDigits (Glyph.ofChars cs) = (ds, gs)) :
    ∃ rest, cs = ds ++ rest ∧ gs = Glyph.ofChars rest ∧ (∀ c ∈ ds, c.isDigit = true) ∧
      endsDigits gs = true := by
  induction cs generalizing ds with
  | nil =>
      obtain ⟨rfl, rfl⟩ := Prod.mk.inj h
      exact ⟨[], rfl, rfl, nofun, rfl⟩
  | cons c cs ih =>
      have hcons : Glyph.ofChars (c :: cs) = .char c :: Glyph.ofChars cs := rfl
      rw [hcons, spanDigits] at h
      split at h
      · next hdigit =>
          obtain ⟨rfl, hgs⟩ := Prod.mk.inj h
          obtain ⟨rest, hcs, hrest, hall, hends⟩ := ih (Prod.ext rfl hgs)
          refine ⟨rest, congrArg (c :: ·) hcs, hrest, ?_, hends⟩
          exact List.forall_mem_cons.mpr ⟨hdigit, hall⟩
      · next hdigit =>
          obtain ⟨rfl, rfl⟩ := Prod.mk.inj h
          exact ⟨c :: cs, rfl, rfl, nofun, by simpa [endsDigits] using hdigit⟩

theorem exists_of_exponentSign {cs : List Char} {negative : Bool} {gs : List Glyph}
    (h : exponentSign (Glyph.ofChars cs) = (negative, gs)) :
    ∃ sign rest, cs = sign ++ rest ∧ sign ∈ [[], ['+'], ['-']] ∧
      negative = decide (sign = ['-']) ∧ gs = Glyph.ofChars rest := by
  unfold exponentSign at h
  split at h
  · next heq =>
      obtain ⟨c, rest, rfl, hc, rfl⟩ := ofChars_eq_cons heq
      obtain rfl := Glyph.char.inj hc
      obtain ⟨rfl, rfl⟩ := Prod.mk.inj h
      exact ⟨['+'], rest, rfl, by decide, by decide, rfl⟩
  · next heq =>
      obtain ⟨c, rest, rfl, hc, rfl⟩ := ofChars_eq_cons heq
      obtain rfl := Glyph.char.inj hc
      obtain ⟨rfl, rfl⟩ := Prod.mk.inj h
      exact ⟨['-'], rest, rfl, by decide, by decide, rfl⟩
  · obtain ⟨rfl, rfl⟩ := Prod.mk.inj h
    exact ⟨[], cs, rfl, by decide, by decide, rfl⟩

theorem exists_of_scanExponent {negative : Bool} {whole fraction cs : List Char}
    {n : NumberLiteral} {gs : List Glyph} (hends : endsDigits (Glyph.ofChars cs) = true)
    (h : scanExponent negative whole fraction (Glyph.ofChars cs) = (.number n, gs)) :
    ∃ exponent text rest, n = ⟨negative, whole, fraction, exponent⟩ ∧ cs = text ++ rest ∧
      ExponentOf exponent text ∧ gs = Glyph.ofChars rest ∧ endsDigits gs = true := by
  have hbare (hread : (Lexeme.number ⟨negative, whole, fraction, none⟩, Glyph.ofChars cs) =
      (.number n, gs)) : ∃ exponent text rest, n = ⟨negative, whole, fraction, exponent⟩ ∧
        cs = text ++ rest ∧ ExponentOf exponent text ∧ gs = Glyph.ofChars rest ∧
        endsDigits gs = true := by
    obtain ⟨hn, rfl⟩ := Prod.mk.inj hread
    exact ⟨none, [], cs, (Lexeme.number.inj hn).symm, rfl, .none, rfl, hends⟩
  unfold scanExponent at h
  split at h
  · next e more heq =>
      split at h
      · next hletter =>
          obtain ⟨c, cs, rfl, hc, rfl⟩ := ofChars_eq_cons heq
          obtain rfl := Glyph.char.inj hc
          cases hsigned : exponentSign (Glyph.ofChars cs) with
          | mk minus unsigned =>
              obtain ⟨sign, cs, rfl, hsign, rfl, rfl⟩ := exists_of_exponentSign hsigned
              cases hdigits : spanDigits (Glyph.ofChars cs) with
              | mk ds after =>
                  obtain ⟨rest, rfl, hafter, hds, hends'⟩ := ofChars_eq_spanDigits hdigits
                  simp only [hsigned, hdigits, decide_eq_true_eq] at h
                  split at h
                  · cases h
                  · next hsome =>
                      obtain ⟨hn, rfl⟩ := Prod.mk.inj h
                      have hletter' : e ∈ ['e', 'E'] := by simpa using hletter
                      have hds' : Grammar.IsDigits ds := ⟨by simpa using hsome, hds⟩
                      refine ⟨_, e :: (sign ++ ds), rest, (Lexeme.number.inj hn).symm, ?_,
                        .some hletter' hsign hds', hafter, hends'⟩
                      rw [List.cons_append, List.append_assoc]
      · rw [← heq] at h
        exact hbare h
  · exact hbare h

theorem exists_of_scanFraction {negative : Bool} {whole cs : List Char} {n : NumberLiteral}
    {gs : List Glyph} (hends : endsDigits (Glyph.ofChars cs) = true)
    (h : scanFraction negative whole (Glyph.ofChars cs) = (.number n, gs)) :
    ∃ fraction exponent ds text rest, n = ⟨negative, whole, fraction, exponent⟩ ∧
      cs = ds ++ (text ++ rest) ∧ FractionOf fraction ds ∧ ExponentOf exponent text ∧
      gs = Glyph.ofChars rest ∧ endsDigits gs = true := by
  unfold scanFraction at h
  split at h
  · next more heq =>
      obtain ⟨c, cs, rfl, hc, rfl⟩ := ofChars_eq_cons heq
      obtain rfl := Glyph.char.inj hc
      cases hdigits : spanDigits (Glyph.ofChars cs) with
      | mk ds after =>
          obtain ⟨cs, rfl, rfl, hds, hends'⟩ := ofChars_eq_spanDigits hdigits
          simp only [hdigits] at h
          split at h
          · cases h
          · next hsome =>
              have hds' : Grammar.IsDigits ds := ⟨by simpa using hsome, hds⟩
              obtain ⟨exponent, text, rest, hn, rfl, hexponent, hrest⟩ :=
                exists_of_scanExponent hends' h
              exact ⟨ds, exponent, '.' :: ds, text, rest, hn, rfl, .some hds', hexponent, hrest⟩
  · obtain ⟨exponent, text, rest, hn, rfl, hexponent, hrest⟩ := exists_of_scanExponent hends h
    exact ⟨[], exponent, [], text, rest, hn, rfl, .none, hexponent, hrest⟩

/-- What is read of a literal behind its first digits. -/
theorem exists_of_digits {negative : Bool} {whole cs : List Char} {n : NumberLiteral}
    {gs : List Glyph} (hwhole : Grammar.IsWhole whole)
    (hends : endsDigits (Glyph.ofChars cs) = true)
    (h : scanFraction negative whole (Glyph.ofChars cs) = (.number n, gs)) :
    ∃ text rest, n.negative = negative ∧ whole ++ cs = text ++ rest ∧ UnsignedOf n text ∧
      gs = Glyph.ofChars rest ∧ endsDigits gs = true := by
  obtain ⟨fraction, exponent, ds, text, rest, rfl, rfl, hfraction, hexponent, hrest⟩ :=
    exists_of_scanFraction hends h
  refine ⟨whole ++ (ds ++ text), rest, rfl, ?_, .mk hwhole hfraction hexponent, hrest⟩
  simp only [List.append_assoc]

theorem exists_of_scan {negative : Bool} {cs : List Char} {n : NumberLiteral} {gs : List Glyph}
    (h : scan negative (Glyph.ofChars cs) = (.number n, gs)) :
    ∃ text rest, n.negative = negative ∧ cs = text ++ rest ∧ UnsignedOf n text ∧
      gs = Glyph.ofChars rest ∧ endsDigits gs = true := by
  cases hdigits : spanDigits (Glyph.ofChars cs) with
  | mk ds after =>
      obtain ⟨rest, rfl, rfl, hds, hends⟩ := ofChars_eq_spanDigits hdigits
      rw [scan, hdigits] at h
      split at h
      · cases h
      · cases h
      · next hnil hzero heq =>
          obtain ⟨rfl, rfl⟩ := Prod.mk.inj heq
          refine exists_of_digits ⟨⟨?_, hds⟩, ?_⟩ hends h
          · rintro rfl
            exact hnil rfl
          · rintro more rfl
            cases more with
            | nil => rfl
            | cons d ds => exact absurd rfl (hzero d ds)

/-- What is read as a number is one, or it is broken. -/
theorem scanFraction_number (negative : Bool) (whole : List Char) (gs : List Glyph) :
    (∃ n, (scanFraction negative whole gs).1 = .number n) ∨
      ∃ cutOff, (scanFraction negative whole gs).1 = .brokenNumber cutOff := by
  have hexponent (fraction : List Char) (gs : List Glyph) :
      (∃ n, (scanExponent negative whole fraction gs).1 = .number n) ∨
        ∃ cutOff, (scanExponent negative whole fraction gs).1 = .brokenNumber cutOff := by
    unfold scanExponent
    split
    · split
      · simp only
        split
        · exact .inr ⟨_, rfl⟩
        · exact .inl ⟨_, rfl⟩
      · exact .inl ⟨_, rfl⟩
    · exact .inl ⟨_, rfl⟩
  unfold scanFraction
  split
  · simp only
    split
    · exact .inr ⟨_, rfl⟩
    · exact hexponent _ _
  · exact hexponent _ _

/-- A sign or a digit begins a number, or what is broken. -/
theorem next_number {c : Char} (hc : c = '-' ∨ c.isDigit = true) (gs : List Glyph) :
    (∃ n, (Lexeme.next (.char c) gs).1 = .number n) ∨
      ∃ cutOff, (Lexeme.next (.char c) gs).1 = .brokenNumber cutOff := by
  rcases hc with rfl | hdigit
  · have hnext : Lexeme.next (.char '-') gs = scan true gs := rfl
    rw [hnext, scan]
    split
    · exact .inr ⟨_, rfl⟩
    · exact .inr ⟨_, rfl⟩
    · exact scanFraction_number _ _ _
  · rw [next_digit hdigit]
    split
    · exact .inr ⟨_, rfl⟩
    · exact scanFraction_number _ _ _

/-- A literal that begins with a sign or with a digit is spelled by what is read. -/
theorem spelledBy_of_next {c : Char} {cs : List Char} {n : NumberLiteral} {gs : List Glyph}
    (hc : c = '-' ∨ c.isDigit = true)
    (h : Lexeme.next (.char c) (Glyph.ofChars cs) = (.number n, gs)) :
    ∃ text rest, c :: cs = text ++ rest ∧ n.SpelledBy text ∧ gs = Glyph.ofChars rest ∧
      endsDigits gs = true := by
  rcases hc with rfl | hdigit
  · have hscan : scan true (Glyph.ofChars cs) = (.number n, gs) := h
    obtain ⟨text, rest, hnegative, rfl, hunsigned, hrest⟩ := exists_of_scan hscan
    refine ⟨'-' :: text, rest, rfl, ⟨text, hunsigned, ?_⟩, hrest⟩
    rw [hnegative, if_pos rfl]
  · rw [next_digit hdigit] at h
    cases hdigits : spanDigits (Glyph.ofChars cs) with
    | mk ds after =>
        obtain ⟨rest, rfl, rfl, hds, hends⟩ := ofChars_eq_spanDigits hdigits
        rw [hdigits] at h
        split at h
        · cases h
        · next hzero =>
            have hwhole : Grammar.IsWhole (c :: ds) := by
              refine ⟨⟨List.cons_ne_nil c ds, List.forall_mem_cons.mpr ⟨hdigit, hds⟩⟩, ?_⟩
              rintro more heq
              obtain ⟨rfl, rfl⟩ := List.cons.inj heq
              simpa using hzero
            obtain ⟨text, rest', hnegative, htext, hunsigned, hrest⟩ :=
              exists_of_digits hwhole hends h
            refine ⟨text, rest', htext, ⟨text, hunsigned, ?_⟩, hrest⟩
            rw [hnegative, if_neg Bool.false_ne_true]

/-! ## Literals of natural numbers -/

theorem value_eq_natural {n : NumberLiteral} {k : UInt64} :
    n.value = .ok (.natural k) ↔
      n.isWhole = true ∧ n.negative = false ∧ digitsValue n.whole = k.toNat := by
  constructor
  · intro h
    rw [value] at h
    split at h
    · next i hinteger =>
        obtain rfl := Except.ok.inj h
        rw [integer?] at hinteger
        split at hinteger
        · next hwhole =>
            simp only at hinteger
            split at hinteger
            · split at hinteger <;> cases hinteger
            · next hsign =>
                split at hinteger
                · next hsize =>
                    obtain rfl := Number.natural.inj (Option.some.inj hinteger)
                    exact ⟨hwhole, by simpa using hsign, (UInt64.toNat_ofNat_of_lt hsize).symm⟩
                · cases hinteger
        · cases hinteger
    · split at h
      · cases Except.ok.inj h
      · cases h
  · rintro ⟨hwhole, hsign, hvalue⟩
    have hsize : digitsValue n.whole < UInt64.size := hvalue ▸ k.toNat_lt
    have hsame : (digitsValue n.whole).toUInt64 = k := by
      rw [hvalue]
      exact UInt64.ofNat_toNat
    rw [isWhole] at hwhole
    simp only [value, integer?, hwhole, hsign, hsize, hsame, Bool.false_eq_true, if_false,
      if_true]

/-- A literal denotes a natural number if it is spelled by the digits of the number. -/
theorem value_eq_natural_iff {n : NumberLiteral} {cs : List Char} (h : n.SpelledBy cs)
    {k : UInt64} : n.value = .ok (.natural k) ↔ cs = Decimal.natDigits k.toNat := by
  obtain ⟨ds, hunsigned, hsigned⟩ := h
  rw [value_eq_natural]
  cases hunsigned with
  | @mk negative whole fraction text exponent ds hwhole hfraction hexponent =>
      constructor
      · rintro ⟨hbare, hsign, hvalue⟩
        obtain ⟨rfl, rfl⟩ : fraction = [] ∧ exponent = none := by
          simpa [isWhole] using hbare
        obtain rfl : negative = false := hsign
        cases hfraction with
        | some hsome => exact absurd rfl hsome.1
        | none =>
            cases hexponent
            rw [hsigned, if_neg Bool.false_ne_true, List.append_nil, List.append_nil, ← hvalue,
              natDigits_digitsValue hwhole]
      · intro hcs
        rw [hcs] at hsigned
        have hdigits : ∀ c ∈ Decimal.natDigits k.toNat, c.isDigit = true :=
          fun c hc => Decimal.isDigit_of_mem_natDigits hc
        cases negative with
        | true =>
            rw [if_pos rfl] at hsigned
            rw [hsigned] at hdigits
            cases hdigits '-' List.mem_cons_self
        | false =>
            rw [if_neg Bool.false_ne_true] at hsigned
            rw [hsigned] at hdigits
            cases hfraction with
            | some _ => cases hdigits '.' (by simp)
            | none =>
                cases hexponent with
                | @some e _ _ he _ _ =>
                    have he' := hdigits e (by simp)
                    simp only [List.mem_cons, List.not_mem_nil, or_false] at he
                    rcases he with rfl | rfl <;> cases he'
                | none =>
                    rw [List.append_nil, List.append_nil] at hsigned
                    refine ⟨rfl, rfl, ?_⟩
                    rw [← hsigned, digitsValue_natDigits]

/-- The texts of numbers are the texts of literals. -/
theorem isNumber_iff {cs : List Char} :
    Grammar.IsNumber cs ↔ ∃ n : NumberLiteral, n.SpelledBy cs := by
  constructor
  · rintro ⟨sign, whole, ds, text, hsign, hwhole, hfraction, hexponent, rfl⟩
    obtain ⟨fraction, hfraction'⟩ : ∃ fraction, FractionOf fraction ds := by
      rcases hfraction with rfl | ⟨ds, hds, rfl⟩
      · exact ⟨[], .none⟩
      · exact ⟨ds, .some hds⟩
    obtain ⟨exponent, hexponent'⟩ : ∃ exponent, ExponentOf exponent text := by
      rcases hexponent with rfl | ⟨e, minus, ds, he, hminus, hds, rfl⟩
      · exact ⟨none, .none⟩
      · exact ⟨_, .some he hminus hds⟩
    simp only [List.mem_cons, List.not_mem_nil, or_false] at hsign
    rcases hsign with rfl | rfl
    · exact ⟨⟨false, whole, fraction, exponent⟩, _, .mk hwhole hfraction' hexponent', rfl⟩
    · exact ⟨⟨true, whole, fraction, exponent⟩, _, .mk hwhole hfraction' hexponent', rfl⟩
  · rintro ⟨n, ds, hunsigned, rfl⟩
    cases hunsigned with
    | @mk negative whole fraction text exponent ds hwhole hfraction hexponent =>
        refine ⟨if negative then ['-'] else [], whole, ds, text, ?_, hwhole, ?_, ?_, ?_⟩
        · cases negative <;> decide
        · cases hfraction with
          | none => exact .inl rfl
          | some hds => exact .inr ⟨_, hds, rfl⟩
        · cases hexponent with
          | none => exact .inl rfl
          | some he hminus hds => exact .inr ⟨_, _, _, he, hminus, hds, rfl⟩
        · cases negative <;> rfl

end NumberLiteral

end Json
end SearchPolling
