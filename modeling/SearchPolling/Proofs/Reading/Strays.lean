import SearchPolling.Proofs.Reading.Spelling

/-!
# Pieces that are not UTF-8

A text that comes as bytes may hold pieces that are not UTF-8.  Such a piece is a part of a string
or no lexeme begins with it, which is also true of a mark that holds the escape of half a surrogate
pair.  A text with such a mark in place of each piece is cut into the same lexemes as the text
itself, but for the marks, unless there is one that is not well formed.
-/

namespace SearchPolling

namespace Text
namespace Glyph

/-- What stands for a piece that is not UTF-8: a character that no lexeme begins with, and the
second half of a surrogate pair, which this character keeps from being paired. -/
def strayMark : List Char :=
  ['\uFFFD', '\\', 'u', 'd', 'c', '0', '0']

def mark : Glyph → List Char
  | .char c => [c]
  | .stray _ => strayMark

/-- The characters of a text, with a mark in place of each piece that is not UTF-8. -/
def marked (gs : List Glyph) : List Char :=
  gs.flatMap mark

theorem marked_ofChars (cs : List Char) : marked (ofChars cs) = cs := by
  induction cs with
  | nil => rfl
  | cons c cs ih => exact congrArg (c :: ·) ih

/-- The marked text as glyphs. -/
def marks (gs : List Glyph) : List Glyph :=
  ofChars (marked gs)

theorem marks_nil : marks [] = [] := rfl

theorem marks_char (c : Char) (gs : List Glyph) : marks (.char c :: gs) = .char c :: marks gs := rfl

theorem marks_stray (bytes : List UInt8) (gs : List Glyph) :
    marks (.stray bytes :: gs) =
      .char '\uFFFD' :: .char '\\' :: .char 'u' :: .char 'd' :: .char 'c' :: .char '0' ::
        .char '0' :: marks gs := rfl

theorem isEmpty_marks (gs : List Glyph) : (marks gs).isEmpty = gs.isEmpty := by
  cases gs with
  | nil => rfl
  | cons g gs => cases g <;> rfl

end Glyph
end Text

namespace Json

open Text (Glyph)
open Text.Glyph (isEmpty_marks marks marks_char marks_nil marks_stray)

/-! ## Marks in strings -/

def StringPart.mark : StringPart → List StringPart
  | .stray => [.char '\uFFFD', .unit 0xDC00]
  | p => [p]

namespace StringToken

/-- A string literal with a mark in place of each piece that is not UTF-8. -/
def marked (t : StringToken) : StringToken :=
  ⟨t.parts.flatMap StringPart.mark, t.ending⟩

/-- Whether two readings of a literal are the same but for marks, or else the literal is closed in
neither. -/
def Alike (x y : StringToken × List Glyph) : Prop :=
  y = (x.1.marked, marks x.2) ∨ x.1.ending ≠ .closed ∧ y.1.ending ≠ .closed

theorem Alike.cons {x y : StringToken × List Glyph} (h : Alike x y) {p : StringPart}
    (hp : p ≠ .stray) : Alike (consPart p x) (consPart p y) := by
  have hmark : p.mark = [p] := by
    cases p with
    | stray => exact absurd rfl hp
    | _ => rfl
  rcases h with rfl | hopen
  · left
    simp only [consPart, marked, List.flatMap_cons, hmark, List.singleton_append]
  · exact .inr hopen

theorem Alike.stray {x y : StringToken × List Glyph} (h : Alike x y) :
    Alike (consPart .stray x) (consPart (.char '\uFFFD') (consPart (.unit 0xDC00) y)) := by
  rcases h with rfl | hopen
  · exact .inl rfl
  · exact .inr hopen

/-- Whether a text does not begin with four hexadecimal digits. -/
def NoUnit (gs : List Glyph) : Prop :=
  ∀ g₁ g₂ g₃ g₄ rest n, gs = g₁ :: g₂ :: g₃ :: g₄ :: rest → hexUnit? g₁ g₂ g₃ g₄ ≠ some n

theorem ending_of_noUnit {gs : List Glyph} (h : NoUnit gs) :
    (scan (.char '\\' :: .char 'u' :: gs)).1.ending ≠ .closed := by
  have hback : '\\' ≠ '"' := by decide
  rw [scan.eq_def]
  simp only [hback, if_false, if_true]
  split
  · next g₁ g₂ g₃ g₄ rest =>
      split
      · next n hunit => exact absurd hunit (h g₁ g₂ g₃ g₄ rest n rfl)
      · simp
  · split <;> simp

theorem exists_chars_of_hexUnit? {g₁ g₂ g₃ g₄ : Glyph} {n : Nat}
    (h : hexUnit? g₁ g₂ g₃ g₄ = some n) : ∃ a b c d, Grammar.HexUnit [a, b, c, d] n ∧
      g₁ = .char a ∧ g₂ = .char b ∧ g₃ = .char c ∧ g₄ = .char d := by
  cases g₁ with
  | stray _ => simp [hexUnit?, Glyph.char?] at h
  | char a =>
      cases g₂ with
      | stray _ => simp [hexUnit?, Glyph.char?] at h
      | char b =>
          cases g₃ with
          | stray _ => simp [hexUnit?, Glyph.char?] at h
          | char c =>
              cases g₄ with
              | stray _ => simp [hexUnit?, Glyph.char?] at h
              | char d => exact ⟨a, b, c, d, hexUnit_of_hexUnit? h, rfl, rfl, rfl, rfl⟩

/-- A text that is marked begins with no digits but those that it began with. -/
theorem exists_of_marks_eq_cons {c : Char} (hc : c ≠ '\uFFFD') {gs rest : List Glyph}
    (h : marks gs = .char c :: rest) : ∃ gs', gs = .char c :: gs' ∧ marks gs' = rest := by
  cases gs with
  | nil => cases h
  | cons g gs =>
      cases g with
      | stray bytes =>
          rw [marks_stray] at h
          exact absurd (Glyph.char.inj (List.cons.inj h).1).symm hc
      | char d =>
          obtain ⟨hd, hrest⟩ := List.cons.inj h
          obtain rfl := Glyph.char.inj hd
          exact ⟨gs, rfl, hrest⟩

theorem noUnit_marks {gs : List Glyph} (h : NoUnit gs) : NoUnit (marks gs) := by
  intro g₁ g₂ g₃ g₄ rest n heq hunit
  obtain ⟨a, b, c, d, hhex, rfl, rfl, rfl, rfl⟩ := exists_chars_of_hexUnit? hunit
  have hdigit : ∀ e ∈ [a, b, c, d], e ≠ '\uFFFD' := by
    have hall : ∀ e ∈ Grammar.hexDigits, e.1 ≠ '\uFFFD' := by decide
    cases hhex with
    | mk ha hb hc hd =>
        simp only [List.forall_mem_cons]
        exact ⟨hall _ ha, hall _ hb, hall _ hc, hall _ hd, nofun⟩
  simp only [List.forall_mem_cons] at hdigit
  obtain ⟨gs₁, rfl, h₁⟩ := exists_of_marks_eq_cons hdigit.1 heq
  obtain ⟨gs₂, rfl, h₂⟩ := exists_of_marks_eq_cons hdigit.2.1 h₁
  obtain ⟨gs₃, rfl, h₃⟩ := exists_of_marks_eq_cons hdigit.2.2.1 h₂
  obtain ⟨gs₄, rfl, -⟩ := exists_of_marks_eq_cons hdigit.2.2.2.1 h₃
  exact h _ _ _ _ _ n rfl hunit

theorem scan_badEscape {e : Char} (hunit : e ≠ 'u') (h : simpleEscape? e = none)
    (gs : List Glyph) : scan (.char '\\' :: .char e :: gs) = (⟨[], .badEscape⟩, []) := by
  rw [scan.eq_def]
  simp [hunit, h]

theorem scan_control {c : Char} (hquote : c ≠ '"') (hback : c ≠ '\\') (h : c.toNat < 0x20)
    (gs : List Glyph) : scan (.char c :: gs) = (⟨[], .control⟩, []) := by
  rw [scan.eq_def]
  simp [hquote, hback, h]

/-- A marked text is cut into the same literal but for marks. -/
theorem alike_scan (gs : List Glyph) : Alike (scan gs) (scan (marks gs)) := by
  fun_induction scan gs with
  | case1 => exact .inl rfl
  | case2 bytes rest ih =>
      have hmark : Grammar.IsPlain '\uFFFD' := ⟨by decide, by decide, by decide⟩
      have hunit : hexUnit? (.char 'd') (.char 'c') (.char '0') (.char '0') = some 0xDC00 := by
        decide
      rw [marks_stray, scan_plain hmark, scan_unit hunit]
      exact ih.stray
  | case3 rest =>
      rw [marks_char, scan_quote]
      exact .inl rfl
  | case4 => exact .inl rfl
  | case5 bytes rest =>
      rw [marks_char, marks_stray, scan_badEscape (by decide) rfl]
      exact .inl rfl
  | case6 g₁ g₂ g₃ g₄ rest code hcode _ ih =>
      obtain ⟨a, b, c, d, -, rfl, rfl, rfl, rfl⟩ := exists_chars_of_hexUnit? hcode
      simp only [marks_char, scan_unit hcode]
      exact ih.cons (by simp)
  | case7 g₁ g₂ g₃ g₄ rest hnone =>
      have hnoUnit : NoUnit (g₁ :: g₂ :: g₃ :: g₄ :: rest) := by
        rintro _ _ _ _ _ n ⟨rfl, rfl, rfl, rfl, rfl⟩
        simp [hnone]
      exact .inr ⟨by simp, ending_of_noUnit (noUnit_marks hnoUnit)⟩
  | case8 short hshort _ =>
      have hnoUnit : NoUnit short := fun g₁ g₂ g₃ g₄ rest _ heq =>
        absurd heq (hshort g₁ g₂ g₃ g₄ rest)
      exact .inr ⟨by dsimp only; split <;> simp, ending_of_noUnit (noUnit_marks hnoUnit)⟩
  | case9 e rest hunit d hescape _ ih =>
      rw [marks_char, marks_char, scan_escape (simpleEscape?_eq_some.mp hescape)]
      exact ih.cons (by simp)
  | case10 e rest hunit hnone _ =>
      rw [marks_char, marks_char, scan_badEscape hunit hnone]
      exact .inl rfl
  | case11 c rest hquote hback hcontrol =>
      rw [marks_char, scan_control hquote hback hcontrol]
      exact .inl rfl
  | case12 c rest hquote hback hcontrol ih =>
      rw [marks_char, scan_plain ⟨hquote, hback, Nat.le_of_not_lt hcontrol⟩]
      exact ih.cons (by simp)

end StringToken

/-! ## Marks behind numbers -/

theorem spanDigits_marks (gs : List Glyph) :
    spanDigits (marks gs) = (spanDigits gs).map id marks := by
  induction gs with
  | nil => rfl
  | cons g gs ih =>
      cases g with
      | stray bytes => rfl
      | char c =>
          rw [marks_char, spanDigits, spanDigits, ih]
          split <;> rfl

theorem exponentSign_marks (gs : List Glyph) :
    exponentSign (marks gs) = (exponentSign gs).map id marks := by
  cases gs with
  | nil => rfl
  | cons g gs =>
      cases g with
      | stray bytes => rfl
      | char c =>
          by_cases hplus : c = '+'
          · exact hplus ▸ rfl
          · by_cases hminus : c = '-'
            · exact hminus ▸ rfl
            · have hnone (rest : List Glyph) :
                  exponentSign (.char c :: rest) = (false, .char c :: rest) := by
                simp [exponentSign, hplus, hminus]
              rw [marks_char, hnone, hnone]
              rfl

namespace NumberLiteral

theorem scanExponent_marks (negative : Bool) (whole fraction : List Char) (gs : List Glyph) :
    scanExponent negative whole fraction (marks gs) =
      (scanExponent negative whole fraction gs).map id marks := by
  cases gs with
  | nil => rfl
  | cons g gs =>
      cases g with
      | stray bytes => rfl
      | char c =>
          rw [marks_char, scanExponent, scanExponent]
          simp only [exponentSign_marks, spanDigits_marks, Prod.map, id, isEmpty_marks]
          split
          · split <;> rfl
          · rfl

theorem scanFraction_marks (negative : Bool) (whole : List Char) (gs : List Glyph) :
    scanFraction negative whole (marks gs) = (scanFraction negative whole gs).map id marks := by
  cases gs with
  | nil => rfl
  | cons g gs =>
      cases g with
      | stray bytes => rfl
      | char c =>
          by_cases hpoint : c = '.'
          · subst hpoint
            rw [marks_char, scanFraction, scanFraction]
            simp only [spanDigits_marks, Prod.map, id, isEmpty_marks, scanExponent_marks]
            split <;> rfl
          · have hnone (rest : List Glyph) : scanFraction negative whole (.char c :: rest) =
                scanExponent negative whole [] (.char c :: rest) := by
              simp [scanFraction, hpoint]
            rw [marks_char, hnone, hnone]
            exact scanExponent_marks negative whole [] (.char c :: gs)

theorem scan_marks (negative : Bool) (gs : List Glyph) :
    scan negative (marks gs) = (scan negative gs).map id marks := by
  rw [scan, scan, spanDigits_marks]
  obtain ⟨digits, rest⟩ := spanDigits gs
  have hrest := scanFraction_marks negative digits rest
  rcases digits with - | ⟨d, - | ⟨e, digits⟩⟩
  · simp only [Prod.map, id, isEmpty_marks]
  · simpa using hrest
  · by_cases hzero : d = '0'
    · exact hzero ▸ rfl
    · simpa [hzero] using hrest

end NumberLiteral

/-! ## Marks between lexemes -/

namespace Lexeme

def marked : Lexeme → Lexeme
  | .string token => .string token.marked
  | l => l

/-- Whether two readings of a lexeme are the same but for marks, or else neither lexeme is well
formed. -/
def Alike (x y : Lexeme × List Glyph) : Prop :=
  y = (x.1.marked, marks x.2) ∨ x.1.isSound = false ∧ y.1.isSound = false

section

variable {x x' y y' : Lexeme × List Glyph}

theorem Alike.ite {p : Prop} [Decidable p] (h : p → Alike x y) (h' : ¬p → Alike x' y') :
    Alike (if p then x else x') (if p then y else y') := by
  split
  · next hp => exact h hp
  · next hp => exact h' hp

end

theorem alike_word {whole : Lexeme} (hwhole : whole.marked = whole) {expected : List Char}
    (hexpected : '\uFFFD' ∉ expected) (gs : List Glyph) :
    Alike (word whole expected gs) (word whole expected (marks gs)) := by
  induction expected generalizing gs with
  | nil => exact .inl (Prod.ext hwhole.symm rfl)
  | cons e expected ih =>
      rw [List.mem_cons, not_or] at hexpected
      cases gs with
      | nil => exact .inl rfl
      | cons g gs =>
          cases g with
          | stray bytes =>
              refine .inr ⟨rfl, ?_⟩
              have hne : Glyph.char '\uFFFD' ≠ .char e := mt Glyph.char.inj hexpected.1
              rw [marks_stray, word, if_neg hne]
              rfl
          | char c =>
              rw [marks_char, word, word]
              exact .ite (fun _ => ih hexpected.2 gs) fun _ => .inl rfl

theorem next_marks_number {c : Char} (hc : c = '-' ∨ c.isDigit = true) (gs : List Glyph) :
    next (.char c) (marks gs) = (next (.char c) gs).map id marks := by
  rcases hc with rfl | hdigit
  · exact NumberLiteral.scan_marks true gs
  · rw [NumberLiteral.next_digit hdigit, NumberLiteral.next_digit hdigit, spanDigits_marks]
    simp only [Prod.map, id, NumberLiteral.scanFraction_marks]
    split <;> rfl

theorem alike_next (c : Char) (gs : List Glyph) :
    Alike (next (.char c) gs) (next (.char c) (marks gs)) := by
  by_cases hnumber : c = '-' ∨ c.isDigit = true
  · have hsame : (next (.char c) gs).1.marked = (next (.char c) gs).1 := by
      rcases NumberLiteral.next_number hnumber gs with ⟨n, hn⟩ | ⟨cutOff, hbroken⟩
      · rw [hn]
        rfl
      · rw [hbroken]
        rfl
    rw [next_marks_number hnumber]
    exact .inl (Prod.ext hsame.symm rfl)
  · rw [not_or] at hnumber
    simp only [next, hnumber.1, hnumber.2, if_false, Bool.false_eq_true]
    iterate 6 refine .ite (fun _ => .inl rfl) fun _ => ?_
    iterate 3 refine .ite (fun _ => alike_word rfl (by decide) gs) fun _ => ?_
    refine .ite (fun _ => ?_) fun _ => .inl rfl
    rcases StringToken.alike_scan gs with hscan | ⟨hopen, hopen'⟩
    · rw [hscan]
      exact .inl rfl
    · right
      simp [isSound, mark?, isScalar, hopen, hopen']

theorem scan_cons {g : Glyph} (h : isGap g = false) (rest : List Glyph) :
    scan (g :: rest) = (next g rest).1 :: scan (next g rest).2 := by
  rw [scan, h]
  rfl

/-- A marked text is cut into the same lexemes but for marks, or else not all lexemes are well
formed, whether the text is marked or not. -/
theorem scan_marks (gs : List Glyph) :
    scan (marks gs) = (scan gs).map marked ∨
      (¬∀ l ∈ scan gs, l.isSound = true) ∧ ¬∀ l ∈ scan (marks gs), l.isSound = true := by
  induction hlength : gs.length using Nat.strongRecOn generalizing gs with
  | ind length ih =>
      cases gs with
      | nil =>
          have hnone : scan [] = [] := by rw [scan]
          exact .inl (by rw [marks_nil, hnone]; rfl)
      | cons g gs =>
          cases g with
          | stray bytes =>
              right
              rw [marks_stray, scan_cons rfl, scan_cons rfl]
              constructor
              · intro hsound
                cases (List.forall_mem_cons.mp hsound).1
              · intro hsound
                cases (List.forall_mem_cons.mp hsound).1
          | char c =>
              rw [marks_char]
              cases hgap : isGap (.char c) with
              | true =>
                  rw [isGap_eq_true] at hgap
                  rw [scan_blank hgap, scan_blank hgap]
                  exact ih gs.length (by simp [← hlength]) gs rfl
              | false =>
                  rw [scan_cons hgap, scan_cons hgap]
                  have hshorter : (next (.char c) gs).2.length < length := by
                    rw [← hlength]
                    exact Nat.lt_succ_of_le (next_length_le (.char c) gs)
                  rcases alike_next c gs with hnext | ⟨hbroken, hbroken'⟩
                  · rw [hnext]
                    rcases ih _ hshorter _ rfl with hrest | ⟨hrest, hrest'⟩
                    · exact .inl (congrArg _ hrest)
                    · right
                      simp only [List.forall_mem_cons]
                      exact ⟨fun hsound => hrest hsound.2, fun hsound => hrest' hsound.2⟩
                  · right
                    simp only [List.forall_mem_cons, hbroken, hbroken', Bool.false_eq_true,
                      false_and, not_false_eq_true, and_self]

theorem scan_marks_of_sound {gs : List Glyph}
    (h : (∀ l ∈ scan gs, l.isSound = true) ∨ ∀ l ∈ scan (marks gs), l.isSound = true) :
    scan (marks gs) = (scan gs).map marked := by
  rcases scan_marks gs with hsame | ⟨hbroken, hbroken'⟩
  · exact hsame
  · rcases h with hsound | hsound
    · exact absurd hsound hbroken
    · exact absurd hsound hbroken'

end Lexeme

end Json
end SearchPolling
