import SearchPolling.Proofs.Reading.Numerals

/-!
# The spelling of lexemes

Which texts are cut into which lexemes.  Every lexeme that is well formed has its texts, between
lexemes there may be blanks, and what follows a number must not go on with it; that is all.  A
mark is spelled by one character that no other lexeme begins with, so that a text is cut at it.
-/

namespace SearchPolling
namespace Json

open Text (Glyph)

/-! ## Blanks -/

theorem isGap_eq_true {c : Char} : isGap (.char c) = true ↔ c ∈ Grammar.blanks := by
  simp [isGap, Grammar.blanks, or_assoc]

theorem isGap_of_isDigit {c : Char} (h : c.isDigit = true) : isGap (.char c) = false := by
  rw [Bool.eq_false_iff, ne_eq, isGap_eq_true]
  exact fun hblank => ne_of_isDigit h (by decide) c hblank rfl

namespace Lexeme

theorem scan_blank {c : Char} (h : c ∈ Grammar.blanks) (gs : List Glyph) :
    scan (.char c :: gs) = scan gs := by
  rw [scan, isGap_eq_true.mpr h]
  rfl

theorem scan_gap {gap : List Char} (h : Grammar.IsGap gap) (gs : List Glyph) :
    scan (Glyph.ofChars gap ++ gs) = scan gs := by
  induction gap with
  | nil => rfl
  | cons c gap ih =>
      exact (scan_blank (h c List.mem_cons_self) _).trans
        (ih fun d hd => h d (List.mem_cons_of_mem c hd))

/-! ## Lexemes and their texts -/

/-- The character of a mark: a bracket or a separator. -/
def mark? : Lexeme → Option Char
  | .openList => some '['
  | .closeList => some ']'
  | .openObject => some '\x7b'
  | .closeObject => some '\x7d'
  | .colon => some ':'
  | .comma => some ','
  | _ => none

/-- A lexeme that is a value of its own, and its text. -/
inductive Scalar : Lexeme → List Char → Prop
  | null : Scalar .null Grammar.nullWord
  | bool (b : Bool) : Scalar (.bool b) (Grammar.boolWord b)
  | number {n : NumberLiteral} {cs : List Char} : n.SpelledBy cs → Scalar (.number n) cs
  | string {body : List Char} {parts : List StringPart} : PartsOf body parts →
      Scalar (.string ⟨parts, .closed⟩) (Grammar.quoted body)

/-- A lexeme and its text. -/
inductive Spells : Lexeme → List Char → Prop
  | mark {l : Lexeme} {c : Char} : l.mark? = some c → Spells l [c]
  | scalar {l : Lexeme} {w : List Char} : Scalar l w → Spells l w

/-- Whether a lexeme is a value of its own, and well formed. -/
def isScalar : Lexeme → Bool
  | .null => true
  | .bool _ => true
  | .number _ => true
  | .string token => token.ending == .closed
  | _ => false

/-- Whether a lexeme is well formed. -/
def isSound (l : Lexeme) : Bool :=
  l.mark?.isSome || l.isScalar

theorem isScalar_of_scalar {l : Lexeme} {w : List Char} (h : Scalar l w) : l.isScalar = true := by
  cases h <;> rfl

theorem isScalar_of_mark {l : Lexeme} {c : Char} (h : l.mark? = some c) : l.isScalar = false := by
  cases l <;> cases h <;> rfl

theorem mark?_of_scalar {l : Lexeme} {w : List Char} (h : Scalar l w) : l.mark? = none := by
  cases h <;> rfl

/-- Whether a lexeme ends before what follows it: a number must not go on. -/
def stops : Lexeme → List Glyph → Bool
  | .number _, gs => endsNumber gs
  | _, _ => true

theorem stops_of_endsNumber (l : Lexeme) {gs : List Glyph} (h : endsNumber gs = true) :
    l.stops gs = true := by
  cases l with
  | number n => exact h
  | _ => rfl

theorem endsNumber_of_mark {l : Lexeme} {c : Char} (h : l.mark? = some c) (gs : List Glyph) :
    endsNumber (.char c :: gs) = true := by
  cases l <;> cases h <;> rfl

theorem endsNumber_of_isGap {gap : List Char} (h : Grammar.IsGap gap) :
    endsNumber (Glyph.ofChars gap) = true := by
  cases gap with
  | nil => rfl
  | cons c gap =>
      have hall : ∀ d ∈ Grammar.blanks, ∀ gs, endsNumber (.char d :: gs) = true := by
        simp [Grammar.blanks, endsNumber]
      exact hall c (h c List.mem_cons_self) _

/-! ## Texts that are cut -/

theorem scan_next {c : Char} {rest gs : List Glyph} {l : Lexeme}
    (hgap : isGap (.char c) = false) (h : next (.char c) rest = (l, gs)) :
    scan (.char c :: rest) = l :: scan gs := by
  rw [scan, hgap, h]
  rfl

theorem word_append (l : Lexeme) (expected : List Char) (gs : List Glyph) :
    word l expected (Glyph.ofChars expected ++ gs) = (l, gs) := by
  induction expected with
  | nil => rfl
  | cons e expected ih =>
      have hcons : Glyph.ofChars (e :: expected) ++ gs =
          .char e :: (Glyph.ofChars expected ++ gs) := rfl
      rw [hcons, word, if_pos rfl, ih]

/-- A lexeme is read from its text. -/
theorem scan_spells {l : Lexeme} {w : List Char} (h : Spells l w) {gs : List Glyph}
    (hstops : l.stops gs = true) : scan (Glyph.ofChars w ++ gs) = l :: scan gs := by
  cases h with
  | mark hmark =>
      cases l <;> cases hmark <;> exact scan_next rfl rfl
  | scalar hscalar =>
      cases hscalar with
      | null => exact scan_next rfl (word_append .null ['u', 'l', 'l'] gs)
      | bool b =>
          cases b with
          | false => exact scan_next rfl (word_append (.bool false) ['a', 'l', 's', 'e'] gs)
          | true => exact scan_next rfl (word_append (.bool true) ['r', 'u', 'e'] gs)
      | number hnumber =>
          obtain ⟨c, rest, rfl, hc, hnext⟩ := NumberLiteral.next_spelledBy hnumber hstops
          refine scan_next ?_ hnext
          rcases hc with rfl | hdigit
          · rfl
          · exact isGap_of_isDigit hdigit
      | string hparts =>
          refine scan_next rfl ?_
          have hbody := StringToken.scan_partsOf hparts gs
          exact congrArg (fun t => (Lexeme.string t.1, t.2)) hbody

/-- Lexemes and a text that is cut into them. -/
inductive Written : List Lexeme → List Char → Prop
  | nil {gap : List Char} : Grammar.IsGap gap → Written [] gap
  | cons {l : Lexeme} {ls : List Lexeme} {gap w rest : List Char} : Grammar.IsGap gap →
      Spells l w → l.stops (Glyph.ofChars rest) = true → Written ls rest →
      Written (l :: ls) (gap ++ (w ++ rest))

theorem scan_written {ls : List Lexeme} {cs : List Char} (h : Written ls cs) :
    scan (Glyph.ofChars cs) = ls := by
  induction h with
  | @nil gap hgap =>
      have hscan := scan_gap hgap []
      rwa [List.append_nil, scan] at hscan
  | @cons l ls gap w rest hgap hspells hstops _ ih =>
      have htext : Glyph.ofChars (gap ++ (w ++ rest)) =
          Glyph.ofChars gap ++ (Glyph.ofChars w ++ Glyph.ofChars rest) := by
        simp [Glyph.ofChars]
      rw [htext, scan_gap hgap, scan_spells hspells hstops, ih]

/-! ## Lexemes that have been cut -/

theorem exists_of_word {l whole : Lexeme} {expected cs : List Char} {gs : List Glyph}
    (h : word whole expected (Glyph.ofChars cs) = (l, gs)) (hsound : l.isSound = true) :
    l = whole ∧ ∃ rest, cs = expected ++ rest ∧ gs = Glyph.ofChars rest := by
  induction expected generalizing cs with
  | nil =>
      obtain ⟨rfl, rfl⟩ := Prod.mk.inj h
      exact ⟨rfl, cs, rfl, rfl⟩
  | cons e expected ih =>
      cases cs with
      | nil =>
          obtain ⟨rfl, -⟩ := Prod.mk.inj h
          cases hsound
      | cons c cs =>
          have hcons : Glyph.ofChars (c :: cs) = .char c :: Glyph.ofChars cs := rfl
          rw [hcons, word] at h
          split at h
          · next heq =>
              obtain rfl := Glyph.char.inj heq
              obtain ⟨hl, rest, rfl, hrest⟩ := ih h
              exact ⟨hl, rest, rfl, hrest⟩
          · obtain ⟨rfl, -⟩ := Prod.mk.inj h
            cases hsound

/-- What a character begins. -/
inductive Beginning (c : Char) (gs : List Glyph) : Prop
  | mark (l : Lexeme) : l.mark? = some c → next (.char c) gs = (l, gs) → Beginning c gs
  | word (l : Lexeme) (more : List Char) : Scalar l (c :: more) → (∀ n, l ≠ .number n) →
      next (.char c) gs = word l more gs → Beginning c gs
  | string : c = '"' →
      next (.char c) gs = (.string (StringToken.scan gs).1, (StringToken.scan gs).2) →
      Beginning c gs
  | number : c = '-' ∨ c.isDigit = true → Beginning c gs
  | other : next (.char c) gs = (.other, gs) → Beginning c gs

theorem beginning (c : Char) (gs : List Glyph) : Beginning c gs := by
  by_cases hmark : ∃ l : Lexeme, l.mark? = some c
  · obtain ⟨l, hl⟩ := hmark
    exact .mark l hl (by cases l <;> cases hl <;> rfl)
  by_cases hn : c = 'n'
  · exact hn ▸ .word .null ['u', 'l', 'l'] .null nofun rfl
  by_cases ht : c = 't'
  · exact ht ▸ .word (.bool true) ['r', 'u', 'e'] (.bool true) nofun rfl
  by_cases hf : c = 'f'
  · exact hf ▸ .word (.bool false) ['a', 'l', 's', 'e'] (.bool false) nofun rfl
  by_cases hquote : c = '"'
  · exact hquote ▸ .string rfl rfl
  by_cases hnumber : c = '-' ∨ c.isDigit = true
  · exact .number hnumber
  have hne {l : Lexeme} {d : Char} (hl : l.mark? = some d) : c ≠ d :=
    fun hd => hmark ⟨l, hd ▸ hl⟩
  rw [not_or] at hnumber
  refine .other ?_
  simp only [next, hne (l := .openList) rfl, hne (l := .closeList) rfl,
    hne (l := .openObject) rfl, hne (l := .closeObject) rfl, hne (l := .colon) rfl,
    hne (l := .comma) rfl, hn, ht, hf, hquote, hnumber.1, hnumber.2, if_false,
    Bool.false_eq_true]

/-- A well-formed lexeme that is read has its text, and digits end with it. -/
theorem exists_of_next {c : Char} {cs : List Char} {l : Lexeme} {gs : List Glyph}
    (h : next (.char c) (Glyph.ofChars cs) = (l, gs)) (hsound : l.isSound = true) :
    ∃ w rest, c :: cs = w ++ rest ∧ Spells l w ∧ gs = Glyph.ofChars rest ∧
      ∀ n, l = .number n → endsDigits gs = true := by
  cases beginning c (Glyph.ofChars cs) with
  | mark m hm hnext =>
      obtain ⟨rfl, rfl⟩ := Prod.mk.inj (hnext.symm.trans h)
      refine ⟨[c], cs, rfl, .mark hm, rfl, ?_⟩
      rintro n rfl
      cases hm
  | word m more hm hnumber hnext =>
      obtain ⟨rfl, rest, rfl, hrest⟩ := exists_of_word (hnext.symm.trans h) hsound
      exact ⟨c :: more, rest, rfl, .scalar hm, hrest, fun n hn => absurd hn (hnumber n)⟩
  | string hquote hnext =>
      obtain ⟨rfl, hgs⟩ := Prod.mk.inj (hnext.symm.trans h)
      cases hscan : StringToken.scan (Glyph.ofChars cs) with
      | mk token after =>
          obtain ⟨parts, ending⟩ := token
          rw [hscan] at hsound hgs
          obtain rfl : ending = .closed := by simpa [isSound, mark?, isScalar] using hsound
          obtain ⟨body, rest, rfl, hparts, hrest⟩ := StringToken.partsOf_of_scan hscan
          refine ⟨Grammar.quoted body, rest, ?_, .scalar (.string hparts), ?_, nofun⟩
          · rw [hquote, Grammar.quoted, List.cons_append, List.append_assoc]
            rfl
          · exact hgs.symm.trans hrest
  | number hc =>
      obtain ⟨n, rfl⟩ : ∃ n, l = .number n := by
        rcases NumberLiteral.next_number hc (Glyph.ofChars cs) with ⟨n, hn⟩ | ⟨cutOff, hbroken⟩
        · exact ⟨n, by rw [← hn, h]⟩
        · rw [h] at hbroken
          rw [show l = .brokenNumber cutOff from hbroken] at hsound
          cases hsound
      obtain ⟨text, rest, htext, hspelled, hrest, hends⟩ := NumberLiteral.spelledBy_of_next hc h
      exact ⟨text, rest, htext, .scalar (.number hspelled), hrest, fun _ _ => hends⟩
  | other hnext =>
      obtain ⟨rfl, -⟩ := Prod.mk.inj (hnext.symm.trans h)
      cases hsound

/-- Digits that end before a well-formed lexeme end the number, too. -/
theorem endsNumber_of_sound {cs : List Char} (hends : endsDigits (Glyph.ofChars cs) = true)
    (hsound : ∀ l ∈ scan (Glyph.ofChars cs), l.isSound = true) :
    endsNumber (Glyph.ofChars cs) = true := by
  cases cs with
  | nil => rfl
  | cons c cs =>
      have hcons : Glyph.ofChars (c :: cs) = .char c :: Glyph.ofChars cs := rfl
      rw [hcons] at hends hsound ⊢
      -- Nothing that is well formed begins like a fraction or an exponent.
      have hne {d : Char} (hgap : isGap (.char d) = false)
          (hother : ∀ gs, next (.char d) gs = (.other, gs)) : c ≠ d := by
        rintro rfl
        rw [scan_next hgap (hother _), List.forall_mem_cons] at hsound
        cases hsound.1
      have hpoint : c ≠ '.' := hne rfl fun _ => rfl
      have hsmall : c ≠ 'e' := hne rfl fun _ => rfl
      have hlarge : c ≠ 'E' := hne rfl fun _ => rfl
      rw [endsDigits, Bool.not_eq_true'] at hends
      simp [endsNumber, hends, hpoint, hsmall, hlarge]

theorem Written.blank {c : Char} (hc : c ∈ Grammar.blanks) {ls : List Lexeme} {cs : List Char}
    (h : Written ls cs) : Written ls (c :: cs) := by
  cases h with
  | nil hgap => exact .nil (List.forall_mem_cons.mpr ⟨hc, hgap⟩)
  | cons hgap hspells hstops hrest =>
      have hblanks := List.forall_mem_cons.mpr ⟨hc, hgap⟩
      exact .cons hblanks hspells hstops hrest

/-- A text that is cut into well-formed lexemes is their text. -/
theorem written_scan {cs : List Char} (hsound : ∀ l ∈ scan (Glyph.ofChars cs), l.isSound = true) :
    Written (scan (Glyph.ofChars cs)) cs := by
  induction hlength : cs.length using Nat.strongRecOn generalizing cs with
  | ind length ih =>
      cases cs with
      | nil =>
          have hnone : scan (Glyph.ofChars []) = [] := scan_written (.nil nofun)
          rw [hnone]
          exact .nil nofun
      | cons c cs =>
          have hcons : Glyph.ofChars (c :: cs) = .char c :: Glyph.ofChars cs := rfl
          by_cases hblank : c ∈ Grammar.blanks
          · rw [hcons, scan_blank hblank] at hsound ⊢
            exact (ih _ (by simp [← hlength]) hsound rfl).blank hblank
          · have hgap : isGap (.char c) = false := by
              rw [Bool.eq_false_iff, ne_eq, isGap_eq_true]
              exact hblank
            cases hnext : next (.char c) (Glyph.ofChars cs) with
            | mk l after =>
                rw [hcons, scan_next hgap hnext] at hsound ⊢
                rw [List.forall_mem_cons] at hsound
                obtain ⟨w, rest, htext, hspells, rfl, hends⟩ := exists_of_next hnext hsound.1
                have hshorter : rest.length < length := by
                  have hle := next_length_le (.char c) (Glyph.ofChars cs)
                  rw [hnext] at hle
                  simp only [Glyph.ofChars, List.length_map] at hle
                  rw [← hlength, List.length_cons]
                  omega
                have hstops : l.stops (Glyph.ofChars rest) = true := by
                  cases l with
                  | number n => exact endsNumber_of_sound (hends n rfl) hsound.2
                  | _ => rfl
                rw [htext]
                have hnone : Grammar.IsGap [] := List.forall_mem_nil _
                exact .cons hnone hspells hstops (ih _ hshorter hsound.2 rfl)

/-! ## Texts that are cut at a mark -/

theorem eq_of_spells_mark {l : Lexeme} {c : Char} (hl : l.mark? = some c) {w : List Char}
    (h : Spells l w) : w = [c] := by
  cases h with
  | mark hmark =>
      obtain rfl := Option.some.inj (hl.symm.trans hmark)
      rfl
  | scalar hscalar =>
      rw [mark?_of_scalar hscalar] at hl
      cases hl

/-- What ends a lexeme is the first character that follows it. -/
theorem stops_append {l : Lexeme} {c : Char} (hc : ∀ gs, endsNumber (.char c :: gs) = true)
    (cs ds : List Char) :
    l.stops (Glyph.ofChars (cs ++ c :: ds)) = true ↔ l.stops (Glyph.ofChars cs) = true := by
  cases cs with
  | nil => exact iff_of_true (stops_of_endsNumber l (hc _)) (stops_of_endsNumber l rfl)
  | cons d cs => cases l <;> rfl

/-- A text that holds a mark is two texts with the mark between them. -/
theorem written_mark {l : Lexeme} {c : Char} (hl : l.mark? = some c) {ls ls' : List Lexeme}
    {cs : List Char} :
    Written (ls ++ l :: ls') cs ↔
      ∃ before after, cs = before ++ c :: after ∧ Written ls before ∧ Written ls' after := by
  have hends := endsNumber_of_mark hl
  constructor
  · intro h
    induction ls generalizing cs with
    | nil =>
        cases h with
        | @cons _ _ gap w rest hgap hspells _ hrest =>
            rw [eq_of_spells_mark hl hspells]
            exact ⟨gap, rest, rfl, .nil hgap, hrest⟩
    | cons m ls ih =>
        cases h with
        | @cons _ _ gap w rest hgap hspells hstops hrest =>
            obtain ⟨before, after, rfl, hbefore, hafter⟩ := ih hrest
            refine ⟨gap ++ (w ++ before), after, by simp, ?_, hafter⟩
            exact .cons hgap hspells ((stops_append hends before after).mp hstops) hbefore
  · rintro ⟨before, after, rfl, hbefore, hafter⟩
    induction hbefore with
    | nil hgap =>
        have hstops : l.stops (Glyph.ofChars after) = true := by
          cases l <;> cases hl <;> rfl
        exact .cons hgap (.mark hl) hstops hafter
    | @cons m ls gap w rest hgap hspells hstops _ ih =>
        have htext : gap ++ (w ++ rest) ++ c :: after = gap ++ (w ++ (rest ++ c :: after)) := by
          simp
        rw [htext]
        exact .cons hgap hspells ((stops_append hends rest after).mpr hstops) ih

/-- A value that is one lexeme stands alone, but for blanks. -/
theorem written_scalar {l : Lexeme} (hl : l.isScalar = true) {cs : List Char} :
    Written [l] cs ↔ ∃ w, Grammar.Slot w cs ∧ Scalar l w := by
  constructor
  · intro h
    cases h with
    | @cons _ _ gap w rest hgap hspells _ hrest =>
        cases hrest with
        | nil hafter =>
            refine ⟨w, ⟨gap, rest, hgap, hafter, rfl⟩, ?_⟩
            cases hspells with
            | mark hmark =>
                rw [isScalar_of_mark hmark] at hl
                cases hl
            | scalar hscalar => exact hscalar
  · rintro ⟨w, ⟨before, after, hbefore, hafter, rfl⟩, hscalar⟩
    exact .cons hbefore (.scalar hscalar) (stops_of_endsNumber l (endsNumber_of_isGap hafter))
      (.nil hafter)

end Lexeme

end Json
end SearchPolling
