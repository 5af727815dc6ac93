import SearchPolling.Text.Utf8

/-!
# The lexemes of a JSON text

A text is cut into lexemes: brackets, separators, words, numbers and strings.  A
lexeme that is not well formed is kept, with the reason, so that whoever reads the
lexemes in order meets the first fault of the text where it stands.  Blanks
between lexemes are spaces, tabs, line feeds and carriage returns.

Main statement: `next_length_le`, a lexeme never gives back more of the text than
it was handed, by which `scan` ends.
-/

namespace SearchPolling
namespace Json

open Text (Glyph)

/-- How a string literal ends. -/
inductive StringEnd where
  /-- With the closing quote. -/
  | closed
  /-- With the end of the text. -/
  | cutOff
  /-- At a control character, which a string may not hold. -/
  | control
  /-- At an escape that names no character. -/
  | badEscape
  /-- At a numeric escape without four hexadecimal digits. -/
  | badHex
  deriving DecidableEq, Repr

/-- One part of a string literal. -/
inductive StringPart where
  /-- A character that stands for itself. -/
  | char (c : Char)
  /-- A piece of the text that is not well-formed UTF-8. -/
  | stray
  /-- An escape of two characters, by the character it stands for. -/
  | escaped (c : Char)
  /-- A numeric escape: one unit of UTF-16. -/
  | unit (code : Nat)
  deriving DecidableEq, Repr

/-- A string literal, up to its closing quote or its first fault. -/
structure StringToken where
  parts : List StringPart
  ending : StringEnd
  deriving DecidableEq, Repr

/-- A well-formed number literal.  The fraction is empty when there is no point. -/
structure NumberLiteral where
  negative : Bool
  whole : List Char
  fraction : List Char
  exponent : Option Int
  deriving DecidableEq, Repr

/-- A lexeme, well formed or not. -/
inductive Lexeme where
  | openList
  | closeList
  | openObject
  | closeObject
  | colon
  | comma
  | null
  | bool (b : Bool)
  /-- A word that begins like `null`, `true` or `false` and is none of them. -/
  | brokenWord (cutOff : Bool)
  | number (literal : NumberLiteral)
  /-- A number that lacks a digit or has a zero too many in front. -/
  | brokenNumber (cutOff : Bool)
  | string (token : StringToken)
  /-- A character with which no lexeme begins. -/
  | other
  deriving DecidableEq, Repr

/-- The blanks between lexemes. -/
def isGap : Glyph → Bool
  | .char c => c = ' ' || c = '\t' || c = '\n' || c = '\r'
  | .stray _ => false

/-- The value of a hexadecimal digit. -/
def hexValue? (c : Char) : Option Nat :=
  if '0' ≤ c && c ≤ '9' then some (c.toNat - '0'.toNat)
  else if 'a' ≤ c && c ≤ 'f' then some (c.toNat - 'a'.toNat + 10)
  else if 'A' ≤ c && c ≤ 'F' then some (c.toNat - 'A'.toNat + 10)
  else none

/-- The number that four hexadecimal digits spell. -/
def hexUnit? (a b c d : Glyph) : Option Nat := do
  let a ← a.char?.bind hexValue?
  let b ← b.char?.bind hexValue?
  let c ← c.char?.bind hexValue?
  let d ← d.char?.bind hexValue?
  return ((a * 16 + b) * 16 + c) * 16 + d

/-- The character that a two-character escape stands for. -/
def simpleEscape? : Char → Option Char
  | '"' => some '"'
  | '\\' => some '\\'
  | '/' => some '/'
  | 'b' => some '\x08'
  | 'f' => some '\x0c'
  | 'n' => some '\n'
  | 'r' => some '\r'
  | 't' => some '\t'
  | _ => none

/-- The bytes that a text takes up. -/
def byteCount (gs : List Glyph) : Nat :=
  gs.foldl (fun count g => count + g.size) 0

namespace StringToken

/-- The literal with one more part in front. -/
def consPart (p : StringPart) (t : StringToken × List Glyph) : StringToken × List Glyph :=
  (⟨p :: t.1.parts, t.1.ending⟩, t.2)

/-- Reads a string literal behind its opening quote.  A numeric escape with fewer
than four bytes behind it counts as cut off, whatever the bytes are. -/
def scan : List Glyph → StringToken × List Glyph
  | [] => (⟨[], .cutOff⟩, [])
  | .stray _ :: rest => consPart .stray (scan rest)
  | .char c :: rest =>
    if c = '"' then (⟨[], .closed⟩, rest)
    else if c = '\\' then
      match rest with
      | [] => (⟨[], .cutOff⟩, [])
      | .stray _ :: _ => (⟨[], .badEscape⟩, [])
      | .char e :: rest' =>
        if e = 'u' then
          match rest' with
          | g₁ :: g₂ :: g₃ :: g₄ :: rest'' =>
            match hexUnit? g₁ g₂ g₃ g₄ with
            | some code => consPart (.unit code) (scan rest'')
            | none => (⟨[], .badHex⟩, [])
          | short => (⟨[], if byteCount short < 4 then .cutOff else .badHex⟩, [])
        else
          match simpleEscape? e with
          | some d => consPart (.escaped d) (scan rest')
          | none => (⟨[], .badEscape⟩, [])
    else if c.toNat < 0x20 then (⟨[], .control⟩, [])
    else consPart (.char c) (scan rest)

@[simp] theorem consPart_snd (p : StringPart) (t : StringToken × List Glyph) :
    (consPart p t).2 = t.2 := rfl

theorem scan_length_le (gs : List Glyph) : (scan gs).2.length ≤ gs.length := by
  fun_induction scan gs <;> simp_all <;> omega

end StringToken

/-- The decimal digits at the front of a text, and the rest. -/
def spanDigits : List Glyph → List Char × List Glyph
  | .char c :: rest =>
    if c.isDigit then (c :: (spanDigits rest).1, (spanDigits rest).2)
    else ([], .char c :: rest)
  | gs => ([], gs)

theorem spanDigits_length_le (gs : List Glyph) : (spanDigits gs).2.length ≤ gs.length := by
  fun_induction spanDigits gs <;> simp_all
  omega

/-- The natural number that digits spell. -/
def digitsValue (digits : List Char) : Nat :=
  digits.foldl (fun n c => n * 10 + (c.toNat - '0'.toNat)) 0

/-- The sign in front of an exponent, and the rest; without one the exponent is
positive. -/
def exponentSign : List Glyph → Bool × List Glyph
  | .char '+' :: rest => (false, rest)
  | .char '-' :: rest => (true, rest)
  | gs => (false, gs)

theorem exponentSign_length_le (gs : List Glyph) : (exponentSign gs).2.length ≤ gs.length := by
  unfold exponentSign
  split <;> simp

namespace NumberLiteral

/-- Reads the exponent of a number, if there is one. -/
def scanExponent (negative : Bool) (whole fraction : List Char) :
    List Glyph → Lexeme × List Glyph
  | .char c :: rest =>
    if c = 'e' ∨ c = 'E' then
      let sign := exponentSign rest
      let digits := spanDigits sign.2
      if digits.1.isEmpty then (.brokenNumber digits.2.isEmpty, digits.2)
      else
        let size : Int := digitsValue digits.1
        (.number ⟨negative, whole, fraction, some (if sign.1 then -size else size)⟩, digits.2)
    else (.number ⟨negative, whole, fraction, none⟩, .char c :: rest)
  | gs => (.number ⟨negative, whole, fraction, none⟩, gs)

/-- Reads the fraction of a number, if there is one, and what follows it. -/
def scanFraction (negative : Bool) (whole : List Char) : List Glyph → Lexeme × List Glyph
  | .char '.' :: rest =>
    let digits := spanDigits rest
    if digits.1.isEmpty then (.brokenNumber digits.2.isEmpty, digits.2)
    else scanExponent negative whole digits.1 digits.2
  | gs => scanExponent negative whole [] gs

/-- Reads a number behind its sign.  A zero is the only digit in front of the point
that may come first and have none behind it. -/
def scan (negative : Bool) (gs : List Glyph) : Lexeme × List Glyph :=
  match spanDigits gs with
  | ([], rest) => (.brokenNumber rest.isEmpty, rest)
  | ('0' :: _ :: _, rest) => (.brokenNumber false, rest)
  | (whole, rest) => scanFraction negative whole rest

theorem scanExponent_length_le (negative : Bool) (whole fraction : List Char)
    (gs : List Glyph) :
    (scanExponent negative whole fraction gs).2.length ≤ gs.length := by
  unfold scanExponent
  split
  · next c rest =>
    have hs := exponentSign_length_le rest
    have hd := spanDigits_length_le (exponentSign rest).2
    split
    · simp only
      split <;> simp <;> omega
    · simp
  · simp

theorem scanFraction_length_le (negative : Bool) (whole : List Char) (gs : List Glyph) :
    (scanFraction negative whole gs).2.length ≤ gs.length := by
  unfold scanFraction
  split
  · next rest =>
    have hd := spanDigits_length_le rest
    have he := scanExponent_length_le negative whole (spanDigits rest).1 (spanDigits rest).2
    simp only
    split <;> simp <;> omega
  · exact scanExponent_length_le _ _ _ _

theorem scan_length_le (negative : Bool) (gs : List Glyph) :
    (scan negative gs).2.length ≤ gs.length := by
  have hd := spanDigits_length_le gs
  unfold scan
  split
  · next h => simpa [h] using hd
  · next h => simpa [h] using hd
  · next whole rest _ _ h =>
    have hf := scanFraction_length_le negative whole rest
    have : rest.length ≤ gs.length := by simpa [h] using hd
    omega

end NumberLiteral

namespace Lexeme

/-- Reads the rest of a word. -/
def word (whole : Lexeme) : List Char → List Glyph → Lexeme × List Glyph
  | [], gs => (whole, gs)
  | _ :: _, [] => (.brokenWord true, [])
  | e :: expected, g :: rest =>
    if g = .char e then word whole expected rest else (.brokenWord false, rest)

theorem word_length_le (whole : Lexeme) (expected : List Char) (gs : List Glyph) :
    (word whole expected gs).2.length ≤ gs.length := by
  fun_induction word whole expected gs <;> simp_all
  omega

/-- Reads the lexeme that begins with a character. -/
def next (g : Glyph) (rest : List Glyph) : Lexeme × List Glyph :=
  match g with
  | .stray _ => (.other, rest)
  | .char c =>
    if c = '[' then (.openList, rest)
    else if c = ']' then (.closeList, rest)
    else if c = '\x7b' then (.openObject, rest)
    else if c = '\x7d' then (.closeObject, rest)
    else if c = ':' then (.colon, rest)
    else if c = ',' then (.comma, rest)
    else if c = 'n' then word .null ['u', 'l', 'l'] rest
    else if c = 't' then word (.bool true) ['r', 'u', 'e'] rest
    else if c = 'f' then word (.bool false) ['a', 'l', 's', 'e'] rest
    else if c = '"' then
      let token := StringToken.scan rest
      (.string token.1, token.2)
    else if c = '-' then NumberLiteral.scan true rest
    else if c.isDigit then
      match spanDigits rest with
      | (more, rest') =>
        if c = '0' ∧ !more.isEmpty then (.brokenNumber false, rest')
        else NumberLiteral.scanFraction false (c :: more) rest'
    else (.other, rest)

theorem next_length_le (g : Glyph) (rest : List Glyph) :
    (next g rest).2.length ≤ rest.length := by
  unfold next
  have hs := StringToken.scan_length_le rest
  have hn := NumberLiteral.scan_length_le true rest
  have hd := spanDigits_length_le rest
  have hf := fun whole => NumberLiteral.scanFraction_length_le false whole (spanDigits rest).2
  cases g with
  | stray bytes => simp
  | char c =>
    simp only [apply_ite Prod.snd, apply_ite List.length]
    have hw := fun whole expected => word_length_le whole expected rest
    have hf' := fun whole => Nat.le_trans (hf whole) hd
    have either : ∀ {p : Prop} [Decidable p] {m n : Nat},
        m ≤ rest.length → n ≤ rest.length → (if p then m else n) ≤ rest.length := by
      intro p _ m n hm hn
      split <;> assumption
    iterate 6 refine either (Nat.le_refl _) ?_
    iterate 3 refine either (hw _ _) ?_
    exact either hs (either hn (either (either hd (hf' _)) (Nat.le_refl _)))

/-- Cuts a text into lexemes. -/
def scan : List Glyph → List Lexeme
  | [] => []
  | g :: rest =>
    if isGap g then scan rest
    else (next g rest).1 :: scan (next g rest).2
termination_by gs => gs.length
decreasing_by
  · simp
  · have := next_length_le g rest
    simp only [List.length_cons]
    omega

end Lexeme
end Json
end SearchPolling
