import SearchPolling.Json.Render
import SearchPolling.Json.Literal
import SearchPolling.Proofs.Reading.Grammar

/-!
# String literals

Where a body of the grammar stands between quotes, whatever follows it, a string literal of its
parts is read, and no other literal is closed; it denotes what the grammar says.  A text is
written as a literal that denotes it.
-/

namespace SearchPolling
namespace Json

open Text (Glyph)

/-! ## Steps that succeed -/

section

variable {ε ε' α β : Type}

theorem bind_eq_ok {x : Except ε α} {f : α → Except ε β} {b : β} :
    x >>= f = .ok b ↔ ∃ a, x = .ok a ∧ f a = .ok b := by
  cases x with
  | error e => simp [bind, Except.bind]
  | ok a => simp [bind, Except.bind]

theorem bind_eq_error {x : Except ε α} {f : α → Except ε β} {e : ε} :
    x >>= f = .error e ↔ x = .error e ∨ ∃ a, x = .ok a ∧ f a = .error e := by
  cases x with
  | error e' => simp [bind, Except.bind]
  | ok a => simp [bind, Except.bind]

theorem bind_unit_eq_ok {x : Except ε Unit} {y : Except ε β} {b : β} :
    (x >>= fun _ => y) = .ok b ↔ x = .ok () ∧ y = .ok b := by
  cases x with
  | error e => simp [bind, Except.bind]
  | ok u => simp [bind, Except.bind]

theorem map_eq_ok {x : Except ε α} {f : α → β} {b : β} :
    x.map f = .ok b ↔ ∃ a, x = .ok a ∧ f a = b := by
  cases x <;> simp [Except.map]

theorem mapError_eq_ok {x : Except ε α} {f : ε → ε'} {a : α} :
    x.mapError f = .ok a ↔ x = .ok a := by
  cases x with
  | error e => exact ⟨nofun, nofun⟩
  | ok b =>
      change Except.ok b = Except.ok a ↔ _
      rw [Except.ok.injEq, Except.ok.injEq]

end

theorem ofChars_eq_cons {cs : List Char} {g : Glyph} {gs : List Glyph}
    (h : Glyph.ofChars cs = g :: gs) :
    ∃ c rest, cs = c :: rest ∧ g = .char c ∧ Glyph.ofChars rest = gs := by
  obtain ⟨c, rest, hcs, hc, hrest⟩ := List.map_eq_cons_iff.mp h
  exact ⟨c, rest, hcs, hc.symm, hrest⟩

/-! ## Escapes -/

theorem simpleEscape?_eq_some {e c : Char} :
    simpleEscape? e = some c ↔ (e, c) ∈ Grammar.escapes := by
  constructor
  · intro h
    unfold simpleEscape? at h
    split at h <;> first | (obtain rfl := Option.some.inj h; decide) | cases h
  · have hall : ∀ d ∈ Grammar.escapes, simpleEscape? d.1 = some d.2 := by decide
    exact hall (e, c)

theorem hexValue?_eq_some {c : Char} {n : Nat} :
    hexValue? c = some n ↔ (c, n) ∈ Grammar.hexDigits := by
  constructor
  · intro h
    have hall : ∀ m < 128, ∀ v ∈ hexValue? (Char.ofNat m),
        (Char.ofNat m, v) ∈ Grammar.hexDigits := by decide
    have hbound : c.toNat < 128 := by
      have hle (d : Char) (hd : c ≤ d) (hlow : d.toNat < 128) : c.toNat < 128 :=
        Nat.lt_of_le_of_lt (UInt32.le_iff_toNat_le.mp hd) hlow
      unfold hexValue? at h
      split at h
      · next hrange =>
          exact hle '9' (by simpa using (Bool.and_eq_true_iff.mp hrange).2) (by decide)
      · split at h
        · next hrange =>
            exact hle 'f' (by simpa using (Bool.and_eq_true_iff.mp hrange).2) (by decide)
        · split at h
          · next hrange =>
              exact hle 'F' (by simpa using (Bool.and_eq_true_iff.mp hrange).2) (by decide)
          · cases h
    have hmem := hall c.toNat hbound n
    rw [Char.ofNat_toNat] at hmem
    exact hmem h
  · have hall : ∀ d ∈ Grammar.hexDigits, hexValue? d.1 = some d.2 := by decide
    exact hall (c, n)

theorem hexUnit?_ofChars {cs : List Char} {n : Nat} (h : Grammar.HexUnit cs n) :
    ∃ a b c d, cs = [a, b, c, d] ∧ hexUnit? (.char a) (.char b) (.char c) (.char d) = some n := by
  obtain ⟨ha, hb, hc, hd⟩ := h
  rw [← hexValue?_eq_some] at ha hb hc hd
  refine ⟨_, _, _, _, rfl, ?_⟩
  simp [hexUnit?, Glyph.char?, ha, hb, hc, hd]

theorem hexUnit_of_hexUnit? {a b c d : Char} {n : Nat}
    (h : hexUnit? (.char a) (.char b) (.char c) (.char d) = some n) :
    Grammar.HexUnit [a, b, c, d] n := by
  simp only [hexUnit?, Glyph.char?, Option.bind_eq_bind, Option.bind_some, Option.bind_eq_some_iff,
    Option.pure_def, Option.some.injEq, hexValue?_eq_some] at h
  obtain ⟨i, hi, j, hj, k, hk, m, hm, rfl⟩ := h
  exact .mk hi hj hk hm

/-! ## Bodies of string literals -/

/-- What stands between the quotes of a string literal, and the parts that it is made of. -/
inductive PartsOf : List Char → List StringPart → Prop
  | nil : PartsOf [] []
  | plain {c : Char} {cs : List Char} {parts : List StringPart} : Grammar.IsPlain c →
      PartsOf cs parts → PartsOf (c :: cs) (.char c :: parts)
  | escaped {e c : Char} {cs : List Char} {parts : List StringPart} : (e, c) ∈ Grammar.escapes →
      PartsOf cs parts → PartsOf ('\\' :: e :: cs) (.escaped c :: parts)
  | unit {h : List Char} {n : Nat} {cs : List Char} {parts : List StringPart} :
      Grammar.HexUnit h n → PartsOf cs parts →
      PartsOf ('\\' :: 'u' :: (h ++ cs)) (.unit n :: parts)

theorem exists_partsOf {cs : List Char} (h : Grammar.IsBody cs) : ∃ parts, PartsOf cs parts := by
  induction h with
  | nil => exact ⟨_, .nil⟩
  | plain hplain _ ih =>
      obtain ⟨parts, hparts⟩ := ih
      exact ⟨_, .plain hplain hparts⟩
  | escaped hescape _ ih =>
      obtain ⟨parts, hparts⟩ := ih
      exact ⟨_, .escaped hescape hparts⟩
  | unit hunit _ ih =>
      obtain ⟨parts, hparts⟩ := ih
      exact ⟨_, .unit hunit hparts⟩

theorem isBody_of_partsOf {cs : List Char} {parts : List StringPart} (h : PartsOf cs parts) :
    Grammar.IsBody cs := by
  induction h with
  | nil => exact .nil
  | plain hplain _ ih => exact .plain hplain ih
  | escaped hescape _ ih => exact .escaped hescape ih
  | unit hunit _ ih => exact .unit hunit ih

/-- The escape of the first half of a surrogate pair.  A body may hold it alone, though it denotes
nothing then. -/
def halfEscape : List Char :=
  ['\\', 'u', 'd', '8', '0', '0']

theorem partsOf_halfEscape : PartsOf halfEscape [.unit 0xD800] :=
  .unit (.mk (i := 13) (j := 8) (k := 0) (n := 0) (by decide) (by decide) (by decide) (by decide))
    .nil

/-- The part of a string literal that a character is written as. -/
def StringPart.ofChar (c : Char) : StringPart :=
  if c ∈ ['"', '\\', '\x08', '\x0c', '\n', '\r', '\t'] then .escaped c
  else if c.toNat < 0x20 then .unit c.toNat
  else .char c

namespace StringToken

theorem scan_quote (gs : List Glyph) : scan (.char '"' :: gs) = (⟨[], .closed⟩, gs) := by
  rw [scan.eq_def]
  simp

theorem scan_plain {c : Char} (h : Grammar.IsPlain c) (gs : List Glyph) :
    scan (.char c :: gs) = consPart (.char c) (scan gs) := by
  obtain ⟨hquote, hback, hcontrol⟩ := h
  rw [scan.eq_def]
  simp [hquote, hback, Nat.not_lt.mpr hcontrol]

theorem scan_escape {e d : Char} (h : (e, d) ∈ Grammar.escapes) (gs : List Glyph) :
    scan (.char '\\' :: .char e :: gs) = consPart (.escaped d) (scan gs) := by
  have hunit : e ≠ 'u' := by
    rintro rfl
    revert h
    simp [Grammar.escapes]
  rw [← simpleEscape?_eq_some] at h
  rw [scan.eq_def]
  simp [hunit, h]

theorem scan_unit {g₁ g₂ g₃ g₄ : Glyph} {code : Nat} (h : hexUnit? g₁ g₂ g₃ g₄ = some code)
    (gs : List Glyph) :
    scan (.char '\\' :: .char 'u' :: g₁ :: g₂ :: g₃ :: g₄ :: gs) =
      consPart (.unit code) (scan gs) := by
  rw [scan.eq_def]
  simp [h]

/-- A body is read as its parts, up to the closing quote. -/
theorem scan_partsOf {cs : List Char} {parts : List StringPart} (h : PartsOf cs parts)
    (gs : List Glyph) :
    scan (Glyph.ofChars (cs ++ ['"']) ++ gs) = (⟨parts, .closed⟩, gs) := by
  induction h with
  | nil => exact scan_quote gs
  | plain hplain _ ih => exact (scan_plain hplain _).trans (congrArg (consPart _) ih)
  | escaped hescape _ ih => exact (scan_escape hescape _).trans (congrArg (consPart _) ih)
  | unit hunit _ ih =>
      obtain ⟨a, b, c, d, rfl, hcode⟩ := hexUnit?_ofChars hunit
      exact (scan_unit hcode _).trans (congrArg (consPart _) ih)

theorem consPart_eq {p : StringPart} {t : StringToken × List Glyph} {parts : List StringPart}
    {gs : List Glyph} (h : consPart p t = (⟨parts, .closed⟩, gs)) :
    ∃ rest, parts = p :: rest ∧ t = (⟨rest, .closed⟩, gs) := by
  obtain ⟨⟨rest, ending⟩, gs'⟩ := t
  simp only [consPart, Prod.mk.injEq, StringToken.mk.injEq] at h
  obtain ⟨⟨rfl, rfl⟩, rfl⟩ := h
  exact ⟨rest, rfl, rfl⟩

/-- A string literal that is closed has a body. -/
theorem partsOf_of_scan {cs : List Char} {parts : List StringPart} {gs : List Glyph}
    (h : scan (Glyph.ofChars cs) = (⟨parts, .closed⟩, gs)) :
    ∃ body rest, cs = body ++ '"' :: rest ∧ PartsOf body parts ∧ gs = Glyph.ofChars rest := by
  generalize htext : Glyph.ofChars cs = text at h
  fun_induction scan text generalizing cs parts with
  | case2 bytes rest ih =>
      obtain ⟨c, rest, -, hc, -⟩ := ofChars_eq_cons htext
      cases hc
  | case3 rest =>
      obtain ⟨c, rest, rfl, hc, rfl⟩ := ofChars_eq_cons htext
      obtain rfl := Glyph.char.inj hc
      simp only [Prod.mk.injEq, StringToken.mk.injEq] at h
      obtain ⟨⟨rfl, -⟩, rfl⟩ := h
      exact ⟨[], rest, rfl, .nil, rfl⟩
  | case6 g₁ g₂ g₃ g₄ rest code hcode _ ih =>
      obtain ⟨b, cs₀, rfl, hback, h₀⟩ := ofChars_eq_cons htext
      obtain ⟨u, cs₁, rfl, hunit, h₁⟩ := ofChars_eq_cons h₀
      obtain ⟨c₁, cs₂, rfl, rfl, h₂⟩ := ofChars_eq_cons h₁
      obtain ⟨c₂, cs₃, rfl, rfl, h₃⟩ := ofChars_eq_cons h₂
      obtain ⟨c₃, cs₄, rfl, rfl, h₄⟩ := ofChars_eq_cons h₃
      obtain ⟨c₄, cs₅, rfl, rfl, h₅⟩ := ofChars_eq_cons h₄
      obtain ⟨more, rfl, hmore⟩ := consPart_eq h
      obtain ⟨body, after, rfl, hbody, hafter⟩ := ih h₅ hmore
      obtain rfl := Glyph.char.inj hback
      obtain rfl := Glyph.char.inj hunit
      exact ⟨_, after, rfl, .unit (hexUnit_of_hexUnit? hcode) hbody, hafter⟩
  | case9 e rest hunit d hescape _ ih =>
      obtain ⟨b, cs₀, rfl, hback, h₀⟩ := ofChars_eq_cons htext
      obtain ⟨e', cs₁, rfl, he, h₁⟩ := ofChars_eq_cons h₀
      obtain ⟨more, rfl, hmore⟩ := consPart_eq h
      obtain ⟨body, after, rfl, hbody, hafter⟩ := ih h₁ hmore
      obtain rfl := Glyph.char.inj hback
      obtain rfl := Glyph.char.inj he
      exact ⟨_, after, rfl, .escaped (simpleEscape?_eq_some.mp hescape) hbody, hafter⟩
  | case12 c rest hquote hback hcontrol ih =>
      obtain ⟨c', cs₀, rfl, hc, h₀⟩ := ofChars_eq_cons htext
      obtain ⟨more, rfl, hmore⟩ := consPart_eq h
      obtain ⟨body, after, rfl, hbody, hafter⟩ := ih h₀ hmore
      obtain rfl := Glyph.char.inj hc
      exact ⟨_, after, rfl, .plain ⟨hquote, hback, Nat.le_of_not_lt hcontrol⟩ hbody, hafter⟩
  | case8 short _ _ =>
      -- What is too short for a numeric escape closes nothing.
      simp only [Prod.mk.injEq, StringToken.mk.injEq] at h
      obtain ⟨⟨-, hending⟩, -⟩ := h
      split at hending <;> cases hending
  | _ => cases h

/-! ## What string literals denote -/

theorem isLeadingSurrogate_iff {n : Nat} : isLeadingSurrogate n = true ↔ Grammar.IsLeading n := by
  simp [isLeadingSurrogate, Grammar.IsLeading]

theorem isTrailingSurrogate_iff {n : Nat} :
    isTrailingSurrogate n = true ↔ Grammar.IsTrailing n := by
  simp [isTrailingSurrogate, Grammar.IsTrailing]

theorem not_isTrailing_of_isLeading {n : Nat} (h : Grammar.IsLeading n) :
    isTrailingSurrogate n = false := by
  rw [Bool.eq_false_iff, ne_eq, isTrailingSurrogate_iff]
  exact fun htrailing => Nat.not_le.mpr h.2 htrailing.1

/-- What the parts of a body denote is what the body denotes. -/
theorem denotes_of_unescape {body text : List Char} {parts : List StringPart}
    (h : PartsOf body parts) (htext : unescape .closed parts = .ok text) :
    Grammar.Denotes body text := by
  fun_induction unescape .closed parts generalizing body text with
  | case2 =>
      obtain rfl := Except.ok.inj htext
      cases h
      exact .nil
  | case3 c rest ih =>
      obtain ⟨text, hrest, rfl⟩ := map_eq_ok.mp htext
      cases h with
      | plain hplain hparts => exact .plain hplain (ih hparts hrest)
  | case4 c rest ih =>
      obtain ⟨text, hrest, rfl⟩ := map_eq_ok.mp htext
      cases h with
      | escaped hescape hparts => exact .escaped hescape (ih hparts hrest)
  | case5 rest ih => cases h
  | case8 m htrailing hleading n rest htrailing' ih =>
      obtain ⟨text, hrest, rfl⟩ := map_eq_ok.mp htext
      cases h with
      | unit hfirst hmore =>
          cases hmore with
          | unit hsecond hparts =>
              exact .pair hfirst (isLeadingSurrogate_iff.mp hleading) hsecond
                (isTrailingSurrogate_iff.mp htrailing') (ih hparts hrest)
  | case11 n rest htrailing hleading ih =>
      obtain ⟨text, hrest, rfl⟩ := map_eq_ok.mp htext
      cases h with
      | unit hunit hparts =>
          rw [isLeadingSurrogate_iff] at hleading
          rw [isTrailingSurrogate_iff] at htrailing
          exact .unit hunit hleading htrailing (ih hparts hrest)
  | _ => cases htext

/-- What a body denotes, its parts denote. -/
theorem exists_partsOf_of_denotes {body text : List Char} (h : Grammar.Denotes body text) :
    ∃ parts, PartsOf body parts ∧ unescape .closed parts = .ok text := by
  induction h with
  | nil => exact ⟨[], .nil, rfl⟩
  | plain hplain _ ih =>
      obtain ⟨parts, hparts, hrest⟩ := ih
      exact ⟨_, .plain hplain hparts, map_eq_ok.mpr ⟨_, hrest, rfl⟩⟩
  | escaped hescape _ ih =>
      obtain ⟨parts, hparts, hrest⟩ := ih
      exact ⟨_, .escaped hescape hparts, map_eq_ok.mpr ⟨_, hrest, rfl⟩⟩
  | unit hunit hleading htrailing _ ih =>
      obtain ⟨parts, hparts, hrest⟩ := ih
      refine ⟨_, .unit hunit hparts, ?_⟩
      rw [← isLeadingSurrogate_iff] at hleading
      rw [← isTrailingSurrogate_iff] at htrailing
      rw [unescape.eq_def]
      simp only [htrailing, hleading, Bool.false_eq_true, if_false]
      exact map_eq_ok.mpr ⟨_, hrest, rfl⟩
  | pair hfirst hleading hsecond htrailing _ ih =>
      obtain ⟨parts, hparts, hrest⟩ := ih
      refine ⟨_, .unit hfirst (.unit hsecond hparts), ?_⟩
      rw [unescape.eq_def]
      simp only [not_isTrailing_of_isLeading hleading, isLeadingSurrogate_iff.mpr hleading,
        isTrailingSurrogate_iff.mpr htrailing, Bool.false_eq_true, if_false, if_true]
      exact map_eq_ok.mpr ⟨_, hrest, rfl⟩

theorem isBody_of_isName {body : List Char} (h : Grammar.IsName body) : Grammar.IsBody body := by
  obtain ⟨text, hdenotes⟩ := h
  obtain ⟨parts, hparts, -⟩ := exists_partsOf_of_denotes hdenotes
  exact isBody_of_partsOf hparts

/-- A body has its parts and no others. -/
theorem partsOf_unique {body : List Char} {parts parts' : List StringPart}
    (h : PartsOf body parts) (h' : PartsOf body parts') : parts = parts' := by
  have hscan := (scan_partsOf h []).symm.trans (scan_partsOf h' [])
  simp only [Prod.mk.injEq, StringToken.mk.injEq, and_true] at hscan
  exact hscan

theorem stray_notMem {body : List Char} {parts : List StringPart} (h : PartsOf body parts) :
    .stray ∉ parts := by
  induction h with
  | nil => exact List.not_mem_nil
  | _ => simpa

/-- The text of a string literal is what its body denotes. -/
theorem text_eq_ok {body : List Char} {parts : List StringPart} (h : PartsOf body parts)
    {s : String} :
    (⟨parts, .closed⟩ : StringToken).text = .ok s ↔ Grammar.Denotes body s.toList := by
  have hclean : parts.contains .stray = false := by simpa using stray_notMem h
  constructor
  · intro htext
    simp only [text, hclean, Bool.false_eq_true, if_false] at htext
    split at htext
    · cases htext
    · next cs hcs =>
        obtain rfl := Except.ok.inj htext
        rw [String.toList_ofList]
        exact denotes_of_unescape h hcs
  · intro hdenotes
    obtain ⟨parts', hparts', htext⟩ := exists_partsOf_of_denotes hdenotes
    obtain rfl := partsOf_unique h hparts'
    simp only [text, htext, hclean, Bool.false_eq_true, if_false, String.ofList_toList]

/-- A string literal that is not closed denotes no text. -/
theorem text_ne_ok {t : StringToken} (h : t.ending ≠ .closed) (s : String) : t.text ≠ .ok s := by
  intro htext
  have hnone (parts : List StringPart) (cs : List Char) : unescape t.ending parts ≠ .ok cs := by
    intro hcs
    fun_induction unescape t.ending parts generalizing cs with
    | case2 hclosed => cases hending : t.ending <;> simp_all [StringEnd.flaw?]
    | case3 c rest ih =>
        obtain ⟨cs, hrest, -⟩ := map_eq_ok.mp hcs
        exact ih cs hrest
    | case4 c rest ih =>
        obtain ⟨cs, hrest, -⟩ := map_eq_ok.mp hcs
        exact ih cs hrest
    | case5 rest ih => exact ih cs hcs
    | case8 m _ _ n rest _ ih =>
        obtain ⟨cs, hrest, -⟩ := map_eq_ok.mp hcs
        exact ih cs hrest
    | case11 n rest _ _ ih =>
        obtain ⟨cs, hrest, -⟩ := map_eq_ok.mp hcs
        exact ih cs hrest
    | _ => cases hcs
  simp only [text] at htext
  split at htext
  · cases htext
  · next cs hcs => exact hnone t.parts cs hcs

/-! ## Texts that are written -/

/-- The string literal that a text is written as. -/
def ofText (s : String) : StringToken :=
  ⟨s.toList.map StringPart.ofChar, .closed⟩

theorem partsOf_escapeChar {c : Char} {cs : List Char} {parts : List StringPart}
    (h : PartsOf cs parts) : PartsOf (escapeChar c ++ cs) (.ofChar c :: parts) := by
  by_cases hnamed : c ∈ ['"', '\\', '\x08', '\x0c', '\n', '\r', '\t']
  · rw [StringPart.ofChar, if_pos hnamed]
    simp only [List.mem_cons, List.not_mem_nil, or_false] at hnamed
    rcases hnamed with rfl | rfl | rfl | rfl | rfl | rfl | rfl
    all_goals exact .escaped (by decide) h
  · rw [StringPart.ofChar, if_neg hnamed]
    simp only [List.mem_cons, List.not_mem_nil, or_false, not_or] at hnamed
    obtain ⟨hquote, hback, hb, hf, hn, hr, ht⟩ := hnamed
    by_cases hcontrol : c.toNat < 0x20
    · have hwritten : escapeChar c =
          ['\\', 'u', '0', '0', hexDigit (c.toNat / 16), hexDigit (c.toNat % 16)] := by
        simp only [escapeChar, hquote, hback, hb, hf, hn, hr, ht, hcontrol, if_false, if_true]
      have hall : ∀ m < 0x20, hexUnit? (.char '0') (.char '0') (.char (hexDigit (m / 16)))
          (.char (hexDigit (m % 16))) = some m := by decide
      rw [if_pos hcontrol, hwritten]
      exact .unit (hexUnit_of_hexUnit? (hall _ hcontrol)) h
    · have hwritten : escapeChar c = [c] := by
        simp only [escapeChar, hquote, hback, hb, hf, hn, hr, ht, hcontrol, if_false]
      rw [if_neg hcontrol, hwritten]
      exact .plain ⟨hquote, hback, Nat.le_of_not_lt hcontrol⟩ h

theorem partsOf_ofText (s : String) : PartsOf (s.toList.flatMap escapeChar) (ofText s).parts := by
  rw [ofText]
  induction s.toList with
  | nil => exact .nil
  | cons c cs ih => exact partsOf_escapeChar ih

/-- What the part of a character denotes is the character. -/
theorem unescape_ofChar (c : Char) (ending : StringEnd) (parts : List StringPart) :
    unescape ending (.ofChar c :: parts) = (unescape ending parts).map (c :: ·) := by
  rw [StringPart.ofChar]
  split
  · rfl
  · split
    · next hcontrol =>
      have htrailing : isTrailingSurrogate c.toNat = false := by
        simp only [isTrailingSurrogate, Bool.and_eq_false_iff, decide_eq_false_iff_not]
        omega
      have hleading : isLeadingSurrogate c.toNat = false := by
        simp only [isLeadingSurrogate, Bool.and_eq_false_iff, decide_eq_false_iff_not]
        omega
      rw [unescape.eq_def]
      simp only [htrailing, hleading, Char.ofNat_toNat, Bool.false_eq_true, if_false]
    · rfl

/-- A text is what its string literal denotes. -/
theorem text_ofText (s : String) : (ofText s).text = .ok s := by
  have hunescape (cs : List Char) :
      unescape .closed (cs.map StringPart.ofChar) = .ok cs := by
    induction cs with
    | nil => rfl
    | cons c cs ih =>
        rw [List.map_cons, unescape_ofChar, ih]
        rfl
  have hclean : (ofText s).parts.contains .stray = false := by
    simpa using stray_notMem (partsOf_ofText s)
  have hchars : unescape (ofText s).ending (ofText s).parts = .ok s.toList :=
    hunescape s.toList
  simp only [text, hchars, hclean, Bool.false_eq_true, if_false, String.ofList_toList]

end StringToken

end Json
end SearchPolling
