/-!
# Reading bytes as text

Bytes are read as UTF-8 into *glyphs*: characters, and the pieces that are not
well formed.  A piece is as long as it could still have become a character,
so that reading never stops and loses no byte.
-/

namespace SearchPolling
namespace Text

/-- One item of a byte text: a character, or a piece that is no character. -/
inductive Glyph where
  | char (c : Char)
  | stray (bytes : List UInt8)
  deriving DecidableEq, Repr

namespace Glyph

/-- The number of bytes that a glyph takes up. -/
def size : Glyph → Nat
  | .char c => c.utf8Size
  | .stray bytes => bytes.length

/-- The character of a glyph, if it is one. -/
def char? : Glyph → Option Char
  | .char c => some c
  | .stray _ => none

/-- A character text as glyphs. -/
def ofChars (cs : List Char) : List Glyph :=
  cs.map .char

/-- A byte that continues a character. -/
def isContinuation (b : UInt8) : Bool :=
  0x80 ≤ b && b ≤ 0xBF

/-- The bytes that may follow the lead byte of a three-byte character: overlong
forms and surrogates are left out. -/
def secondOfThree (lead b : UInt8) : Bool :=
  if lead == 0xE0 then 0xA0 ≤ b && b ≤ 0xBF
  else if lead == 0xED then 0x80 ≤ b && b ≤ 0x9F
  else isContinuation b

/-- The bytes that may follow the lead byte of a four-byte character: overlong
forms and values beyond the last code point are left out. -/
def secondOfFour (lead b : UInt8) : Bool :=
  if lead == 0xF0 then 0x90 ≤ b && b ≤ 0xBF
  else if lead == 0xF4 then 0x80 ≤ b && b ≤ 0x8F
  else isContinuation b

/-- The payload bits of a continuation byte. -/
def payload (b : UInt8) : Nat :=
  b.toNat % 64

/-- Reads bytes as glyphs. -/
def ofBytes : List UInt8 → List Glyph
  | [] => []
  | b :: rest =>
    if b < 0x80 then .char (Char.ofNat b.toNat) :: ofBytes rest
    else if 0xC2 ≤ b && b ≤ 0xDF then
      match rest with
      | c :: rest' =>
        if isContinuation c then
          .char (Char.ofNat (b.toNat % 32 * 64 + payload c)) :: ofBytes rest'
        else .stray [b] :: ofBytes (c :: rest')
      | [] => [.stray [b]]
    else if 0xE0 ≤ b && b ≤ 0xEF then
      match rest with
      | c :: d :: rest' =>
        if secondOfThree b c then
          if isContinuation d then
            .char (Char.ofNat (b.toNat % 16 * 4096 + payload c * 64 + payload d)) ::
              ofBytes rest'
          else .stray [b, c] :: ofBytes (d :: rest')
        else .stray [b] :: ofBytes (c :: d :: rest')
      | [c] => if secondOfThree b c then [.stray [b, c]] else .stray [b] :: ofBytes [c]
      | [] => [.stray [b]]
    else if 0xF0 ≤ b && b ≤ 0xF4 then
      match rest with
      | c :: d :: e :: rest' =>
        if secondOfFour b c then
          if isContinuation d then
            if isContinuation e then
              .char (Char.ofNat (b.toNat % 8 * 262144 + payload c * 4096 + payload d * 64
                + payload e)) :: ofBytes rest'
            else .stray [b, c, d] :: ofBytes (e :: rest')
          else .stray [b, c] :: ofBytes (d :: e :: rest')
        else .stray [b] :: ofBytes (c :: d :: e :: rest')
      | [c, d] =>
        if secondOfFour b c then
          if isContinuation d then [.stray [b, c, d]] else .stray [b, c] :: ofBytes [d]
        else .stray [b] :: ofBytes [c, d]
      | [c] => if secondOfFour b c then [.stray [b, c]] else .stray [b] :: ofBytes [c]
      | [] => [.stray [b]]
    else .stray [b] :: ofBytes rest

/-- The characters of a glyph text, if it holds nothing else. -/
def chars? (gs : List Glyph) : Option (List Char) :=
  gs.mapM char?

/-- The characters of a glyph text, with U+FFFD in place of each stray piece. -/
def lossy (gs : List Glyph) : List Char :=
  gs.map fun g => g.char?.getD '\uFFFD'

@[simp] theorem chars?_ofChars (cs : List Char) : chars? (ofChars cs) = some cs := by
  induction cs with
  | nil => rfl
  | cons c cs ih => simp_all [chars?, ofChars, char?]

end Glyph

/-- The bytes of a text in UTF-8. -/
def utf8 (s : String) : List UInt8 :=
  s.toUTF8.toList

/-- The text that bytes spell in UTF-8, if they spell one. -/
def ofUtf8? (bytes : List UInt8) : Option String :=
  (Glyph.chars? (Glyph.ofBytes bytes)).map String.ofList

/-- The text that bytes spell in UTF-8, with U+FFFD for what is not well formed. -/
def ofUtf8Lossy (bytes : List UInt8) : String :=
  String.ofList (Glyph.lossy (Glyph.ofBytes bytes))

end Text
end SearchPolling
