import SearchPolling.Text.Utf8

/-!
# Charsets

How the bytes of a text are to be read, as a label names it or as a mark at their
beginning tells.  What is not well formed becomes U+FFFD.

Three ways are known, and text with the label of another one is read as UTF-8.
-/

namespace SearchPolling
namespace Text

/-- A way to read bytes as text. -/
inductive Charset where
  | utf8
  /-- Units of two bytes, the lower byte first or last. -/
  | utf16 (lowFirst : Bool)
  /-- One byte for each character of the languages of western Europe. -/
  | western
  deriving DecidableEq, Repr

namespace Charset

/-- The labels of the western charset. -/
def westernLabels : List String :=
  ["ansi_x3.4-1968", "ascii", "cp1252", "cp819", "csisolatin1", "ibm819", "iso-8859-1",
    "iso-ir-100", "iso8859-1", "iso88591", "iso_8859-1", "iso_8859-1:1987", "l1", "latin1",
    "us-ascii", "windows-1252", "x-cp1252"]

/-- The charset that a label in lower case names, UTF-8 if it names none of these. -/
def ofLabel (label : String) : Charset :=
  if westernLabels.contains label then western
  else if ["csunicode", "iso-10646-ucs-2", "ucs-2", "unicode", "unicodefeff", "utf-16",
      "utf-16le"].contains label then utf16 true
  else if ["unicodefffe", "utf-16be"].contains label then utf16 false
  else utf8

/-- The western characters of the bytes from 0x80 to 0x9F. -/
def westernChars : List Char :=
  ['\u20AC', '\u0081', '\u201A', '\u0192', '\u201E', '\u2026', '\u2020', '\u2021',
    '\u02C6', '\u2030', '\u0160', '\u2039', '\u0152', '\u008D', '\u017D', '\u008F',
    '\u0090', '\u2018', '\u2019', '\u201C', '\u201D', '\u2022', '\u2013', '\u2014',
    '\u02DC', '\u2122', '\u0161', '\u203A', '\u0153', '\u009D', '\u017E', '\u0178']

/-- The western character of a byte. -/
def westernChar (b : UInt8) : Char :=
  if 0x80 ≤ b && b ≤ 0x9F then westernChars.getD (b.toNat - 0x80) '\uFFFD'
  else Char.ofNat b.toNat

/-- Bytes as units of two bytes; a byte left over is no unit. -/
def units (lowFirst : Bool) : List UInt8 → List (Option Nat)
  | a :: b :: rest =>
    some (if lowFirst then a.toNat + 256 * b.toNat else 256 * a.toNat + b.toNat) ::
      units lowFirst rest
  | [_] => [none]
  | [] => []

/-- Whether a unit begins a character of two. -/
def isLead (u : Nat) : Bool :=
  0xD800 ≤ u && u < 0xDC00

/-- Whether a unit ends a character of two. -/
def isTrail (u : Nat) : Bool :=
  0xDC00 ≤ u && u < 0xE000

/-- The character of a unit that stands alone. -/
def ofUnit (u : Nat) : Char :=
  if isLead u || isTrail u then '\uFFFD' else Char.ofNat u

/-- The characters of units. -/
def ofUnits : List (Option Nat) → List Char
  | [] => []
  | some u :: some v :: rest =>
    if isLead u && isTrail v then
      Char.ofNat (0x10000 + (u - 0xD800) * 0x400 + (v - 0xDC00)) :: ofUnits rest
    else ofUnit u :: ofUnits (some v :: rest)
  | [some u, none] => if isLead u then ['\uFFFD'] else [ofUnit u, '\uFFFD']
  | some u :: rest => ofUnit u :: ofUnits rest
  | none :: rest => '\uFFFD' :: ofUnits rest

/-- The charset that a mark at the beginning tells, and what follows the mark. -/
def mark? : List UInt8 → Option (Charset × List UInt8)
  | 0xEF :: 0xBB :: 0xBF :: rest => some (utf8, rest)
  | 0xFF :: 0xFE :: rest => some (utf16 true, rest)
  | 0xFE :: 0xFF :: rest => some (utf16 false, rest)
  | _ => none

/-- Reads bytes that bear no mark. -/
def read : Charset → List UInt8 → String
  | utf8, bytes => ofUtf8Lossy bytes
  | utf16 lowFirst, bytes => String.ofList (ofUnits (units lowFirst bytes))
  | western, bytes => String.ofList (bytes.map westernChar)

/-- Reads bytes; a mark at their beginning counts more than the charset. -/
def decode (charset : Charset) (bytes : List UInt8) : String :=
  match mark? bytes with
  | some (marked, rest) => marked.read rest
  | none => charset.read bytes

end Charset
end Text
end SearchPolling
