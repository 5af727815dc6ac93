import SearchPolling.Settings

/-!
# Numerals of settings

A number is set by its decimal digits, with a plus sign in front or none and with blanks around
it or none.  Leading zeros do not count, so that there is no longest numeral; but its number
has 64 bits.
-/

namespace SearchPolling
namespace Settings

/-- Numerals: one decimal digit or more, with a plus sign in front or none, between blanks. -/
inductive Spells : List Char → Nat → Prop where
  | intro {before sign digits after : List Char}
    (hbefore : ∀ c ∈ before, Text.isBlank c = true) (hsign : sign = [] ∨ sign = ['+'])
    (hsome : digits ≠ []) (hdigits : ∀ c ∈ digits, c.isDigit = true)
    (hafter : ∀ c ∈ after, Text.isBlank c = true) :
    Spells (before ++ (sign ++ digits) ++ after) (Nat.ofDigitChars 10 digits 0)

theorem digitsValue?_eq_some_iff {cs : List Char} {n : UInt64} :
    digitsValue? cs = some n ↔
      cs ≠ [] ∧ (∀ c ∈ cs, c.isDigit = true) ∧ Nat.ofDigitChars 10 cs 0 = n.toNat := by
  have hvalue : cs.foldl (fun n c => n * 10 + (c.toNat - '0'.toNat)) 0 =
      Nat.ofDigitChars 10 cs 0 := by
    simp only [Nat.ofDigitChars_eq_foldl, Nat.mul_comm]
  by_cases hshape : cs ≠ [] ∧ ∀ c ∈ cs, c.isDigit = true
  · have hguard : (cs.isEmpty || !cs.all Char.isDigit) = false := by simpa using hshape
    rw [digitsValue?, hguard, hvalue, if_neg Bool.false_ne_true]
    constructor
    · intro h
      simp only at h
      split at h
      · rename_i hlt
        obtain rfl := Option.some.inj h
        exact ⟨hshape.1, hshape.2, (Nat.mod_eq_of_lt hlt).symm⟩
      · cases h
    · rintro ⟨-, -, heq⟩
      have hlt : Nat.ofDigitChars 10 cs 0 < UInt64.size := heq ▸ n.toNat_lt
      rw [if_pos hlt, heq]
      exact congrArg some (UInt64.ofNat_toNat)
  · have hguard : (cs.isEmpty || !cs.all Char.isDigit) = true := by
      rw [← Bool.not_eq_false]
      simpa using hshape
    rw [digitsValue?, if_pos hguard]
    constructor
    · nofun
    · rintro ⟨hsome, hdigits, -⟩
      exact absurd ⟨hsome, hdigits⟩ hshape

/-- A text is read as a number just if it spells the number. -/
theorem number?_eq_some_iff {text : String} {n : UInt64} :
    number? text = some n ↔ Spells text.toList n.toNat := by
  constructor
  · intro h
    obtain ⟨before, after, htext, hbefore, hafter⟩ := Text.exists_surrounding text.toList
    rw [number?] at h
    split at h
    · rename_i digits htrim
      obtain ⟨hsome, hdigits, hvalue⟩ := digitsValue?_eq_some_iff.mp h
      rw [htext, htrim, ← hvalue]
      exact .intro hbefore (.inr rfl) hsome hdigits hafter
    · obtain ⟨hsome, hdigits, hvalue⟩ := digitsValue?_eq_some_iff.mp h
      rw [htext, ← hvalue]
      exact @Spells.intro before [] _ after hbefore (.inl rfl) hsome hdigits hafter
  · intro h
    generalize hcs : text.toList = cs at h
    generalize hn : n.toNat = m at h
    obtain ⟨hbefore, hsign, hsome, hdigits, hafter⟩ := h
    rename_i before sign digits after
    have hplain : ∀ c ∈ sign ++ digits, Text.isBlank c = false := by
      intro c hc
      rcases List.mem_append.mp hc with hc | hc
      · obtain rfl | rfl := hsign
        · cases hc
        · obtain rfl := List.mem_singleton.mp hc
          rfl
      · exact Text.isBlank_of_isDigit (hdigits c hc)
    have hvalue : digitsValue? digits = some n :=
      digitsValue?_eq_some_iff.mpr ⟨hsome, hdigits, hn.symm⟩
    rw [number?, hcs, Text.trim_surrounded hbefore hplain hafter]
    obtain rfl | rfl := hsign
    · rw [List.nil_append]
      split
      · rename_i plus rest
        cases hdigits '+' List.mem_cons_self
      · exact hvalue
    · exact hvalue

end Settings
end SearchPolling
