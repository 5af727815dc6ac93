import SearchPolling.Decimal.Layout
import SearchPolling.Text.Blank

/-!
# Timestamps

A point of time in UTC, to the nanosecond, on the proleptic Gregorian calendar.  It
is written in the profile of RFC 3339 with `Z` and as few of 0, 3, 6 or 9 fraction
digits as hold the value.  Reading is more lenient than writing: fields may have
fewer digits, blanks may stand between them, and any offset of less than a day is
converted.  A leap second is the sixtieth second of its minute.
-/

namespace SearchPolling
namespace Time

/-- A day of the calendar. -/
structure Date where
  year : Int
  month : Nat
  day : Nat
  deriving DecidableEq, Repr

/-- A point of time in UTC. -/
structure Timestamp where
  date : Date
  hour : Nat
  minute : Nat
  second : Nat
  nanosecond : Nat
  deriving DecidableEq, Repr

namespace Date

/-- Whether a year has a 29th of February. -/
def isLeap (year : Int) : Bool :=
  year % 4 = 0 && (year % 100 ≠ 0 || year % 400 = 0)

/-- The number of days of a month. -/
def daysInMonth (year : Int) (month : Nat) : Nat :=
  if month = 2 then (if isLeap year then 29 else 28)
  else if month = 4 || month = 6 || month = 9 || month = 11 then 30
  else 31

/-- Whether the fields name a day, within the years that are supported. -/
def isValid (d : Date) : Bool :=
  -262143 ≤ d.year && d.year ≤ 262142 && 1 ≤ d.month && d.month ≤ 12 &&
    1 ≤ d.day && d.day ≤ daysInMonth d.year d.month

/-- The day after. -/
def next (d : Date) : Date :=
  if d.day < daysInMonth d.year d.month then { d with day := d.day + 1 }
  else if d.month < 12 then ⟨d.year, d.month + 1, 1⟩
  else ⟨d.year + 1, 1, 1⟩

/-- The day before. -/
def previous (d : Date) : Date :=
  if 1 < d.day then { d with day := d.day - 1 }
  else if 1 < d.month then ⟨d.year, d.month - 1, daysInMonth d.year (d.month - 1)⟩
  else ⟨d.year - 1, 12, 31⟩

/-- The day a number of days after the first of January 1970.  Years are counted from
March, in eras of 400 years, so that the odd day comes last in each. -/
def ofDays (n : Nat) : Date :=
  let z := n + 719468
  let day := z % 146097
  let year := (day - day / 1460 + day / 36524 - day / 146096) / 365
  let dayOfYear := day - (365 * year + year / 4 - year / 100)
  let month := (5 * dayOfYear + 2) / 153
  let civil := if month < 10 then month + 3 else month - 9
  let years := year + z / 146097 * 400
  ⟨if civil ≤ 2 then years + 1 else years, civil, dayOfYear - (153 * month + 2) / 5 + 1⟩

end Date

/-- A number with at least two digits. -/
def twoDigits (n : Nat) : List Char :=
  if n < 10 then '0' :: Decimal.natDigits n else Decimal.natDigits n

/-- A number with zeros in front, up to a number of digits. -/
def padded (width n : Nat) : List Char :=
  let digits := Decimal.natDigits n
  List.replicate (width - digits.length) '0' ++ digits

namespace Timestamp

/-- The start of the year 1970. -/
def epoch : Timestamp :=
  ⟨⟨1970, 1, 1⟩, 0, 0, 0, 0⟩

instance : Inhabited Timestamp := ⟨epoch⟩

/-- The point of time a number of milliseconds after the epoch. -/
def ofMillis (ms : Nat) : Timestamp where
  date := .ofDays (ms / 86400000)
  hour := ms / 3600000 % 24
  minute := ms / 60000 % 60
  second := ms / 1000 % 60
  nanosecond := ms % 1000 * 1000000

/-- A year: four digits, or a sign and at least four digits outside of 0 to 9999. -/
def yearChars (year : Int) : List Char :=
  if 0 ≤ year ∧ year ≤ 9999 then padded 4 year.natAbs
  else (if year < 0 then '-' else '+') :: padded 4 year.natAbs

/-- The fraction of a second. -/
def fractionChars (nanosecond : Nat) : List Char :=
  if nanosecond = 0 then []
  else if nanosecond % 1000000 = 0 then '.' :: padded 3 (nanosecond / 1000000)
  else if nanosecond % 1000 = 0 then '.' :: padded 6 (nanosecond / 1000)
  else '.' :: padded 9 nanosecond

def chars (t : Timestamp) : List Char :=
  yearChars t.date.year ++ '-' :: (twoDigits t.date.month ++ '-' :: (twoDigits t.date.day ++
    'T' :: (twoDigits t.hour ++ ':' :: (twoDigits t.minute ++ ':' :: (twoDigits t.second ++
      (fractionChars t.nanosecond ++ ['Z']))))))

def render (t : Timestamp) : String :=
  String.ofList t.chars

/-! ## Reading -/

/-- A reader of the front of a text. -/
abbrev Scan := StateT (List Char) Option

/-- Skips blanks. -/
def blanks : Scan Unit :=
  modify Text.trimFront

/-- Reads one given character. -/
def literal (c : Char) : Scan Unit := fun cs =>
  match cs with
  | d :: rest => if d = c then some ((), rest) else none
  | [] => none

/-- Reads a natural number of at least one digit and at most `most` of them, if
there is a bound; also gives the number of digits. -/
def number (most : Option Nat) : Scan (Nat × Nat) := fun cs =>
  let all := cs.takeWhile Char.isDigit
  let digits := match most with
    | some n => all.take n
    | none => all
  if digits.isEmpty then none
  else some ((digits.foldl (fun n c => n * 10 + (c.toNat - '0'.toNat)) 0, digits.length),
    cs.drop digits.length)

/-- Reads a field of up to two digits, behind blanks. -/
def field : Scan Nat := do
  blanks
  return (← number (some 2)).1

/-- Reads a year: up to four digits, or a sign and any number of them. -/
def year : Scan Int := do
  blanks
  match (← get) with
  | '-' :: rest => do
    set rest
    return -((← number none).1 : Int)
  | '+' :: rest => do
    set rest
    return ((← number none).1 : Int)
  | _ => return ((← number (some 4)).1 : Int)

/-- Reads the fraction of a second, if there is one; digits beyond the ninth are
dropped. -/
def fraction : Scan Nat := do
  match (← get) with
  | '.' :: rest => do
    set rest
    let (n, count) ← number (some 9)
    modify (List.dropWhile Char.isDigit)
    return n * Nat.pow 10 (9 - count)
  | _ => return 0

/-- Reads exactly two digits. -/
def pair : Scan Nat := fun cs =>
  match cs with
  | a :: b :: rest =>
    if a.isDigit && b.isDigit then
      some ((a.toNat - '0'.toNat) * 10 + (b.toNat - '0'.toNat), rest)
    else none
  | _ => none

/-- Reads an offset from UTC, in minutes. -/
def offset : Scan Int := do
  match (← get) with
  | a :: b :: c :: rest =>
    if a.toUpper = 'U' ∧ b.toUpper = 'T' ∧ c.toUpper = 'C' then
      set rest
      return 0
  | _ => pure ()
  match (← get) with
  | [] => failure
  | c :: rest =>
    set rest
    if c = 'Z' ∨ c = 'z' then return 0
    else if c = '+' ∨ c = '-' ∨ c = '\u2212' then
      let hours ← pair
      modify (List.dropWhile fun c => c = ':' || Text.isBlank c)
      let minutes ← pair
      if minutes < 60 ∧ hours < 24 then
        let size : Int := hours * 60 + minutes
        return if c = '+' then size else -size
      else failure
    else failure

/-- Reads a timestamp and converts it to UTC. -/
def scan : Scan Timestamp := do
  let y ← year
  blanks
  literal '-'
  let month ← field
  blanks
  literal '-'
  let day ← field
  match (← get) with
  | c :: rest => if c = 't' ∨ c = 'T' ∨ c = ' ' then set rest else failure
  | [] => failure
  let hour ← field
  blanks
  literal ':'
  let minute ← field
  blanks
  literal ':'
  let second ← field
  let nanosecond ← fraction
  blanks
  let shift ← offset
  let local_ : Date := ⟨y, month, day⟩
  guard (local_.isValid && hour < 24 && minute < 60 && second ≤ 60)
  let total : Int := hour * 60 + minute - shift
  let date := if total < 0 then local_.previous else if 1440 ≤ total then local_.next else local_
  guard date.isValid
  let minutes := (total % 1440).toNat
  return ⟨date, minutes / 60, minutes % 60, second, nanosecond⟩

/-- Reads a text that is a timestamp, with blanks behind it or not. -/
def ofString? (text : String) : Option Timestamp :=
  match scan.run text.toList with
  | some (t, rest) => if (Text.trimFront rest).isEmpty then some t else none
  | none => none

end Timestamp
end Time
end SearchPolling
