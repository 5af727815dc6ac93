import Mathlib.Algebra.Group.Nat.Defs
import Mathlib.Data.Option.Basic
import SearchPolling.Proofs.Reading.Numbers
import SearchPolling.Time.Timestamp

/-!
# Timestamps that are read back

A written timestamp has no blanks, all its fields have the digits that readers take, and its
offset is none.  So it is read as itself, whichever day of the calendar and whichever nanosecond
it names, a leap second included.
-/

namespace SearchPolling
namespace Time

/-! ## Padded numbers -/

theorem length_padded {width n : Nat} (hwidth : 0 < width) (h : n < 10 ^ width) :
    (padded width n).length = width := by
  have hlength : (Decimal.natDigits n).length ≤ width :=
    (Nat.length_toDigits_le_iff (by decide) hwidth).mpr h
  rw [padded, List.length_append, List.length_replicate]
  omega

theorem padded_ne_nil (width n : Nat) : padded width n ≠ [] :=
  List.append_ne_nil_of_right_ne_nil _ Nat.toDigits_ne_nil

theorem isDigit_of_mem_padded {width n : Nat} {c : Char} (h : c ∈ padded width n) :
    c.isDigit = true := by
  rcases List.mem_append.mp h with hzero | hdigit
  · rw [List.eq_of_mem_replicate hzero]
    decide
  · exact Decimal.isDigit_of_mem_natDigits hdigit

theorem digitsValue_padded (width n : Nat) : Json.digitsValue (padded width n) = n := by
  rw [Json.digitsValue_eq_ofDigitChars, padded, Nat.ofDigitChars_append,
    Nat.ofDigitChars_replicate_zero, Nat.mul_zero, ← Json.digitsValue_eq_ofDigitChars,
    Json.digitsValue_natDigits]

theorem twoDigits_eq_padded (n : Nat) : twoDigits n = padded 2 n := by
  rw [twoDigits, padded]
  split
  · next h =>
      have hlength : (Decimal.natDigits n).length = 1 := by
        rw [Decimal.natDigits, Nat.toDigits_of_lt_base h, List.length_singleton]
      rw [hlength]
      rfl
  · next h =>
      have hlength : 2 ≤ (Decimal.natDigits n).length := Nat.lt_of_not_le fun hshort =>
        h ((Nat.length_toDigits_le_iff (by decide) (by decide)).mp hshort)
      rw [Nat.sub_eq_zero_of_le hlength]
      rfl

namespace Timestamp

/-! ## Readers -/

section

variable {α β : Type}

/-- What follows a reader goes on where the reader stopped. -/
theorem bind_of_eq_some {x : Scan α} {a : α} {cs rest : List Char} (h : x cs = some (a, rest))
    (f : α → Scan β) : (x >>= f) cs = f a rest := by
  change (x cs).bind (fun p => f p.1 p.2) = f a rest
  rw [h]
  rfl

theorem get_bind (f : List Char → Scan β) (cs : List Char) : (get >>= f) cs = f cs cs := rfl

theorem set_bind (f : PUnit → Scan β) (cs rest : List Char) :
    (set rest >>= f : Scan β) cs = f ⟨⟩ rest := rfl

end

theorem blanks_of_not_isBlank {c : Char} (h : Text.isBlank c = false) (rest : List Char) :
    blanks (c :: rest) = some ((), c :: rest) := by
  change some ((), Text.trimFront (c :: rest)) = _
  rw [Text.trimFront, List.dropWhile_cons_of_neg (by simp [h])]

theorem literal_cons (c : Char) (rest : List Char) : literal c (c :: rest) = some ((), rest) :=
  if_pos rfl

/-- Digits are read as what they spell where no digit follows, unless there are too many. -/
theorem number_append {most : Option Nat} {ds : List Char} {c : Char} (hne : ds ≠ [])
    (hds : ∀ d ∈ ds, d.isDigit = true) (hmost : ∀ n ∈ most, ds.length ≤ n)
    (hc : c.isDigit = false) (rest : List Char) :
    number most (ds ++ c :: rest) = some ((Json.digitsValue ds, ds.length), c :: rest) := by
  have hall : (ds ++ c :: rest).takeWhile Char.isDigit = ds := by
    rw [List.takeWhile_append_of_pos hds, List.takeWhile_cons_of_neg (by simp [hc]),
      List.append_nil]
  have hsome : ds.isEmpty = false := List.isEmpty_eq_false_iff.mpr hne
  rw [number.eq_def]
  simp only [hall]
  cases most with
  | none =>
      simp only [hsome, Bool.false_eq_true, if_false, List.drop_left]
      rfl
  | some n =>
      simp only [List.take_of_length_le (hmost n rfl), hsome, Bool.false_eq_true, if_false,
        List.drop_left]
      rfl

theorem number_padded {most : Option Nat} {width n : Nat} {c : Char}
    (hmost : ∀ m ∈ most, (padded width n).length ≤ m) (hc : c.isDigit = false)
    (rest : List Char) :
    number most (padded width n ++ c :: rest) =
      some ((n, (padded width n).length), c :: rest) := by
  rw [number_append (padded_ne_nil width n) (fun _ => isDigit_of_mem_padded) hmost hc,
    digitsValue_padded]

/-- Padded digits begin with a digit. -/
theorem exists_padded_cons (width n : Nat) :
    ∃ d ds, padded width n = d :: ds ∧ d.isDigit = true := by
  obtain ⟨d, ds, hcons⟩ := List.exists_cons_of_ne_nil (padded_ne_nil width n)
  exact ⟨d, ds, hcons, isDigit_of_mem_padded (hcons ▸ List.mem_cons_self)⟩

theorem blanks_padded (width n : Nat) (rest : List Char) :
    blanks (padded width n ++ rest) = some ((), padded width n ++ rest) := by
  obtain ⟨d, ds, hcons, hd⟩ := exists_padded_cons width n
  rw [hcons]
  exact blanks_of_not_isBlank (Text.isBlank_of_isDigit hd) _

/-! ## Fields -/

theorem field_twoDigits {n : Nat} (h : n < 100) {c : Char} (hc : c.isDigit = false)
    (rest : List Char) : field (twoDigits n ++ c :: rest) = some (n, c :: rest) := by
  rw [twoDigits_eq_padded, field, bind_of_eq_some (blanks_padded ..)]
  refine bind_of_eq_some (number_padded ?_ hc rest) _
  rintro _ ⟨⟩
  exact Nat.le_of_eq (length_padded (by decide) h)

theorem year_of_isDigit {d : Char} (hd : d.isDigit = true) (cs : List Char) :
    Timestamp.year (d :: cs) = (number (some 4) (d :: cs)).map fun p => ((p.1.1 : Int), p.2) := by
  have hblanks := blanks_of_not_isBlank (Text.isBlank_of_isDigit hd) cs
  rw [Timestamp.year, bind_of_eq_some hblanks, get_bind]
  refine (congrFun (?_ : (_ : Scan Int) = do return ((← number (some 4)).1 : Int)) (d :: cs)).trans
    ?_
  · split
    · next h =>
        obtain ⟨rfl, -⟩ := List.cons.inj h
        cases hd
    · next h =>
        obtain ⟨rfl, -⟩ := List.cons.inj h
        cases hd
    · rfl
  · change (number (some 4) (d :: cs)).bind (fun p => some ((p.1.1 : Int), p.2)) = _
    rw [Option.map_eq_bind]
    rfl

theorem year_minus (cs : List Char) :
    Timestamp.year ('-' :: cs) = (number none cs).map fun p => (-(p.1.1 : Int), p.2) := by
  rw [Timestamp.year, bind_of_eq_some (blanks_of_not_isBlank (by decide) cs), get_bind,
    Option.map_eq_bind]
  rfl

theorem year_plus (cs : List Char) :
    Timestamp.year ('+' :: cs) = (number none cs).map fun p => ((p.1.1 : Int), p.2) := by
  rw [Timestamp.year, bind_of_eq_some (blanks_of_not_isBlank (by decide) cs), get_bind,
    Option.map_eq_bind]
  rfl

theorem year_yearChars {year : Int} {c : Char} (hc : c.isDigit = false) (rest : List Char) :
    Timestamp.year (yearChars year ++ c :: rest) = some (year, c :: rest) := by
  rw [yearChars]
  split
  · next h =>
      have hread : number (some 4) (padded 4 year.natAbs ++ c :: rest) =
          some ((year.natAbs, (padded 4 year.natAbs).length), c :: rest) := by
        refine number_padded ?_ hc rest
        rintro _ ⟨⟩
        exact Nat.le_of_eq (length_padded (by decide) (by omega))
      obtain ⟨d, ds, hcons, hd⟩ := exists_padded_cons 4 year.natAbs
      have hvalue : (year.natAbs : Int) = year := by omega
      rw [hcons] at hread ⊢
      rw [List.cons_append, year_of_isDigit hd, ← List.cons_append, hread, Option.map_some, hvalue]
  · next h =>
      have hread : number none (padded 4 year.natAbs ++ c :: rest) =
          some ((year.natAbs, (padded 4 year.natAbs).length), c :: rest) :=
        number_padded (by rintro _ ⟨⟩) hc rest
      split
      · next hneg =>
          have hvalue : -(year.natAbs : Int) = year := by omega
          rw [List.cons_append, year_minus, hread, Option.map_some, hvalue]
      · next hpos =>
          have hvalue : (year.natAbs : Int) = year := by omega
          rw [List.cons_append, year_plus, hread, Option.map_some, hvalue]

theorem dropWhile_isDigit {c : Char} (hc : c.isDigit = false) (rest : List Char) :
    (c :: rest).dropWhile Char.isDigit = c :: rest :=
  List.dropWhile_cons_of_neg (by simp [hc])

/-- A fraction of up to nine digits is read in billionths. -/
theorem fraction_padded {width n : Nat} (hwidth : 0 < width) (hmost : width ≤ 9)
    (h : n < 10 ^ width) {c : Char} (hc : c.isDigit = false) (rest : List Char) :
    fraction ('.' :: (padded width n ++ c :: rest)) = some (n * 10 ^ (9 - width), c :: rest) := by
  have hlength := length_padded hwidth h
  have hread : number (some 9) (padded width n ++ c :: rest) = some ((n, width), c :: rest) := by
    rw [number_padded (by rintro _ ⟨⟩; omega) hc, hlength]
  have hstart : fraction ('.' :: (padded width n ++ c :: rest)) =
      (number (some 9) (padded width n ++ c :: rest)).bind fun p =>
        some (p.1.1 * 10 ^ (9 - p.1.2), p.2.dropWhile Char.isDigit) := rfl
  rw [hstart, hread, Option.bind_some, dropWhile_isDigit hc]

theorem fraction_fractionChars {n : Nat} (h : n < 1000000000) (rest : List Char) :
    fraction (fractionChars n ++ 'Z' :: rest) = some (n, 'Z' :: rest) := by
  rw [fractionChars]
  split
  · next hzero =>
      rw [hzero]
      rfl
  · split
    · next hmillis =>
        rw [List.cons_append, fraction_padded (by decide) (by decide) (by omega) (by decide)]
        congr 2
        omega
    · split
      · next hmicros =>
          rw [List.cons_append, fraction_padded (by decide) (by decide) (by omega) (by decide)]
          congr 2
          omega
      · rw [List.cons_append, fraction_padded (by decide) (by decide) h (by decide),
          Nat.sub_self, Nat.pow_zero, Nat.mul_one]

/-- What follows the seconds is no digit. -/
theorem exists_fraction_cons (n : Nat) :
    ∃ c rest, fractionChars n ++ ['Z'] = c :: rest ∧ c.isDigit = false := by
  rw [fractionChars]
  split
  · exact ⟨'Z', _, rfl, by decide⟩
  · split
    · exact ⟨'.', _, rfl, by decide⟩
    · split <;> exact ⟨'.', _, rfl, by decide⟩

theorem guard_bind {α : Type} {p : Prop} [Decidable p] (hp : p) (f : Unit → Scan α)
    (cs : List Char) : (guard p >>= f : Scan α) cs = f () cs := by
  rw [guard, if_pos hp]
  rfl

/-! ## Timestamps -/

/-- The points of time that there are; the sixtieth second is a leap second. -/
structure IsValid (t : Timestamp) : Prop where
  date : t.date.isValid = true
  hour : t.hour < 24
  minute : t.minute < 60
  second : t.second ≤ 60
  nanosecond : t.nanosecond < 1000000000

theorem daysInMonth_le (year : Int) (month : Nat) : Date.daysInMonth year month ≤ 31 := by
  rw [Date.daysInMonth]
  split
  · split <;> decide
  · split <;> decide

theorem month_lt_of_isValid {d : Date} (h : d.isValid = true) : d.month < 100 := by
  simp only [Date.isValid, Bool.and_eq_true, decide_eq_true_eq] at h
  omega

theorem day_lt_of_isValid {d : Date} (h : d.isValid = true) : d.day < 100 := by
  have hmost := daysInMonth_le d.year d.month
  simp only [Date.isValid, Bool.and_eq_true, decide_eq_true_eq] at h
  omega

/-- A timestamp is read from its own text, of which nothing is left. -/
theorem scan_chars {t : Timestamp} (h : t.IsValid) : scan t.chars = some (t, []) := by
  have hmonth := month_lt_of_isValid h.date
  have hday := day_lt_of_isValid h.date
  have hhour : t.hour < 100 := Nat.lt_trans h.hour (by decide)
  have hminute : t.minute < 100 := Nat.lt_trans h.minute (by decide)
  have hsecond : t.second < 100 := Nat.lt_of_le_of_lt h.second (by decide)
  have hdash (cs : List Char) := blanks_of_not_isBlank (c := '-') (by decide) cs
  have hcolon (cs : List Char) := blanks_of_not_isBlank (c := ':') (by decide) cs
  rw [chars, scan, bind_of_eq_some (year_yearChars (by decide) _), bind_of_eq_some (hdash _),
    bind_of_eq_some (literal_cons _ _), bind_of_eq_some (field_twoDigits hmonth (by decide) _),
    bind_of_eq_some (hdash _), bind_of_eq_some (literal_cons _ _),
    bind_of_eq_some (field_twoDigits hday (by decide) _), get_bind]
  simp only
  rw [if_pos (by decide), set_bind, bind_of_eq_some (field_twoDigits hhour (by decide) _),
    bind_of_eq_some (hcolon _), bind_of_eq_some (literal_cons _ _),
    bind_of_eq_some (field_twoDigits hminute (by decide) _),
    bind_of_eq_some (hcolon _), bind_of_eq_some (literal_cons _ _)]
  have hfraction := fraction_fractionChars h.nanosecond []
  obtain ⟨c, rest, hcons, hc⟩ := exists_fraction_cons t.nanosecond
  have hoffset : offset ['Z'] = some (0, []) := rfl
  have hguard : (t.date.isValid && decide (t.hour < 24) && decide (t.minute < 60) &&
      decide (t.second ≤ 60)) = true := by
    simp [h.date, h.hour, h.minute, h.second]
  rw [hcons] at hfraction ⊢
  rw [bind_of_eq_some (field_twoDigits hsecond hc _), bind_of_eq_some hfraction,
    bind_of_eq_some (blanks_of_not_isBlank (by decide) _), bind_of_eq_some hoffset,
    guard_bind hguard]
  have hhour' := h.hour
  have hminute' := h.minute
  have htoday : ¬((t.hour : Int) * 60 + t.minute - 0 < 0) := by omega
  have htomorrow : ¬(1440 ≤ (t.hour : Int) * 60 + t.minute - 0) := by omega
  have hminutes : (((t.hour : Int) * 60 + t.minute - 0) % 1440).toNat = t.hour * 60 + t.minute := by
    omega
  simp only [htoday, htomorrow, if_false, hminutes]
  rw [guard_bind h.date]
  have hhours : (t.hour * 60 + t.minute) / 60 = t.hour := by omega
  have hrest : (t.hour * 60 + t.minute) % 60 = t.minute := by omega
  rw [hhours, hrest]
  rfl

/-- A timestamp is read back from its own text. -/
theorem ofString?_render {t : Timestamp} (h : t.IsValid) : ofString? t.render = some t := by
  have hscan : scan.run t.render.toList = some (t, []) := by
    rw [render, String.toList_ofList]
    exact scan_chars h
  rw [ofString?, hscan]
  rfl

end Timestamp
end Time
end SearchPolling
