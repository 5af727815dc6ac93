import SearchPolling.Text.Utf8

/-!
# Texts that are read back from their bytes

The bytes of a text are those of its characters, one character after another.  Those of one
character are read as this character, whatever follows them: its lead byte tells how many
belong to it, and none of the forms that a reader leaves out is ever written.

Conversely a reader loses no byte, so that bytes are read as a text only if they are its bytes.
-/

namespace SearchPolling
namespace Text

theorem loop_toList (bytes : ByteArray) (i : Nat) (before : List UInt8) :
    ByteArray.toList.loop bytes i before = before.reverse ++ bytes.data.toList.drop i := by
  fun_induction ByteArray.toList.loop bytes i before with
  | case1 i before hi ih =>
      have hlt : i < bytes.data.toList.length := by simpa using hi
      have hget : bytes.get! i = bytes.data.toList[i] := by
        simp [ByteArray.get!, getElem!_pos, hi]
      rw [ih, List.reverse_cons, List.append_assoc, List.drop_eq_getElem_cons hlt, hget]
      rfl
  | case2 i before hi =>
      rw [List.drop_eq_nil_of_le, List.append_nil]
      simpa using hi

/-- The bytes of a text are those of its characters. -/
theorem utf8_eq (s : String) : utf8 s = s.toList.flatMap String.utf8EncodeChar := by
  have hbytes : s.toByteArray.data.toList = s.toList.flatMap String.utf8EncodeChar := by
    rw [← s.ofList_toList, String.toByteArray_ofList, List.utf8Encode,
      List.toList_data_toByteArray, s.ofList_toList]
  rw [utf8, ByteArray.toList, loop_toList]
  simpa using hbytes

/-! ## Classes of bytes -/

namespace Glyph

variable {b c d e : UInt8}

theorem isContinuation_iff : isContinuation b = true ↔ 0x80 ≤ b.toNat ∧ b.toNat ≤ 0xBF := by
  simp [isContinuation, UInt8.le_iff_toNat_le]

theorem secondOfThree_iff : secondOfThree b c = true ↔
    0x80 ≤ c.toNat ∧ c.toNat ≤ 0xBF ∧ (b.toNat = 0xE0 → 0xA0 ≤ c.toNat) ∧
      (b.toNat = 0xED → c.toNat ≤ 0x9F) := by
  simp only [secondOfThree, isContinuation, beq_iff_eq, Bool.and_eq_true, decide_eq_true_eq,
    apply_ite (· = true), ← UInt8.toNat_inj, UInt8.le_iff_toNat_le, UInt8.reduceToNat]
  split
  · omega
  · split <;> omega

theorem secondOfFour_iff : secondOfFour b c = true ↔
    0x80 ≤ c.toNat ∧ c.toNat ≤ 0xBF ∧ (b.toNat = 0xF0 → 0x90 ≤ c.toNat) ∧
      (b.toNat = 0xF4 → c.toNat ≤ 0x8F) := by
  simp only [secondOfFour, isContinuation, beq_iff_eq, Bool.and_eq_true, decide_eq_true_eq,
    apply_ite (· = true), ← UInt8.toNat_inj, UInt8.le_iff_toNat_le, UInt8.reduceToNat]
  split
  · omega
  · split <;> omega

/-! ## One character -/

section

variable (rest : List UInt8)

theorem ofBytes_one (hb : b.toNat ≤ 0x7F) :
    ofBytes (b :: rest) = .char (Char.ofNat b.toNat) :: ofBytes rest := by
  have hone : b < 0x80 := UInt8.lt_iff_toNat_lt.mpr (Nat.lt_succ_of_le hb)
  rw [ofBytes.eq_def]
  simp only [hone, if_true]

theorem ofBytes_two (hb : 0xC2 ≤ b.toNat ∧ b.toNat ≤ 0xDF) (hc : isContinuation c = true) :
    ofBytes (b :: c :: rest) =
      .char (Char.ofNat (b.toNat % 32 * 64 + payload c)) :: ofBytes rest := by
  have hone : ¬b < 0x80 := by
    simp only [UInt8.lt_iff_toNat_lt, UInt8.reduceToNat]
    omega
  have htwo : (0xC2 ≤ b && b ≤ 0xDF) = true := by
    simpa [UInt8.le_iff_toNat_le] using hb
  rw [ofBytes.eq_def]
  simp only [hone, htwo, hc, if_true, if_false]

theorem ofBytes_three (hb : 0xE0 ≤ b.toNat ∧ b.toNat ≤ 0xEF) (hc : secondOfThree b c = true)
    (hd : isContinuation d = true) :
    ofBytes (b :: c :: d :: rest) =
      .char (Char.ofNat (b.toNat % 16 * 4096 + payload c * 64 + payload d)) ::
        ofBytes rest := by
  have hone : ¬b < 0x80 := by
    simp only [UInt8.lt_iff_toNat_lt, UInt8.reduceToNat]
    omega
  have htwo : (0xC2 ≤ b && b ≤ 0xDF) = false := by
    simp only [Bool.and_eq_false_iff, decide_eq_false_iff_not, UInt8.le_iff_toNat_le,
      UInt8.reduceToNat]
    omega
  have hthree : (0xE0 ≤ b && b ≤ 0xEF) = true := by
    simpa [UInt8.le_iff_toNat_le] using hb
  rw [ofBytes.eq_def]
  simp only [hone, htwo, hthree, hc, hd, Bool.false_eq_true, if_true, if_false]

theorem ofBytes_four (hb : 0xF0 ≤ b.toNat ∧ b.toNat ≤ 0xF4) (hc : secondOfFour b c = true)
    (hd : isContinuation d = true) (he : isContinuation e = true) :
    ofBytes (b :: c :: d :: e :: rest) =
      .char (Char.ofNat (b.toNat % 8 * 262144 + payload c * 4096 + payload d * 64
        + payload e)) :: ofBytes rest := by
  have hone : ¬b < 0x80 := by
    simp only [UInt8.lt_iff_toNat_lt, UInt8.reduceToNat]
    omega
  have htwo : (0xC2 ≤ b && b ≤ 0xDF) = false := by
    simp only [Bool.and_eq_false_iff, decide_eq_false_iff_not, UInt8.le_iff_toNat_le,
      UInt8.reduceToNat]
    omega
  have hthree : (0xE0 ≤ b && b ≤ 0xEF) = false := by
    simp only [Bool.and_eq_false_iff, decide_eq_false_iff_not, UInt8.le_iff_toNat_le,
      UInt8.reduceToNat]
    omega
  have hfour : (0xF0 ≤ b && b ≤ 0xF4) = true := by
    simpa [UInt8.le_iff_toNat_le] using hb
  rw [ofBytes.eq_def]
  simp only [hone, htwo, hthree, hfour, hc, hd, he, Bool.false_eq_true, if_true, if_false]

/-- A byte that continues a character, made of six bits. -/
theorem toNat_continuation (n : Nat) :
    (UInt8.ofNat (n % 0x40 + 0x80)).toNat = n % 0x40 + 0x80 :=
  UInt8.toNat_ofNat_of_lt (show n % 0x40 + 0x80 < 256 by omega)

theorem isContinuation_ofNat (n : Nat) : isContinuation (UInt8.ofNat (n % 0x40 + 0x80)) = true := by
  rw [isContinuation_iff, toNat_continuation]
  omega

theorem payload_ofNat (n : Nat) : payload (UInt8.ofNat (n % 0x40 + 0x80)) = n % 0x40 := by
  rw [payload, toNat_continuation]
  omega

/-- The bytes of a character are read as the character. -/
theorem ofBytes_utf8EncodeChar (c : Char) :
    ofBytes (String.utf8EncodeChar c ++ rest) = .char c :: ofBytes rest := by
  have hvalid : c.toNat < 0xD800 ∨ 0xDFFF < c.toNat ∧ c.toNat < 0x110000 := c.valid
  have hchar : Char.ofNat c.toNat = c := Char.ofNat_toNat c
  have hval : c.val.toNat = c.toNat := rfl
  have hlead {n : Nat} (hn : n < 256) : (UInt8.ofNat n).toNat = n := UInt8.toNat_ofNat_of_lt hn
  simp only [String.utf8EncodeChar, hval]
  generalize c.toNat = v at hvalid hchar ⊢
  -- One case for each length; the lead byte holds what the others have no room for.
  split
  · have hb := hlead (n := v) (by omega)
    rw [List.singleton_append, ofBytes_one rest (by omega), hb, hchar]
  · split
    · have hb := hlead (n := v / 64 % 0x20 + 0xc0) (by omega)
      have hsum : (v / 64 % 0x20 + 0xc0) % 32 * 64 + v % 0x40 = v := by omega
      rw [List.cons_append, List.singleton_append,
        ofBytes_two rest (by omega) (isContinuation_ofNat v), hb, payload_ofNat, hsum, hchar]
    · split
      · have hb := hlead (n := v / 4096 % 0x10 + 0xe0) (by omega)
        have hsum : (v / 4096 % 0x10 + 0xe0) % 16 * 4096 + v / 64 % 0x40 * 64 + v % 0x40 = v := by
          omega
        have hsecond : secondOfThree (UInt8.ofNat (v / 4096 % 0x10 + 0xe0))
            (UInt8.ofNat (v / 64 % 0x40 + 0x80)) = true := by
          rw [secondOfThree_iff, hb, toNat_continuation]
          omega
        rw [List.cons_append, List.cons_append, List.singleton_append,
          ofBytes_three rest (by omega) hsecond (isContinuation_ofNat v), hb, payload_ofNat,
          payload_ofNat, hsum, hchar]
      · have hb := hlead (n := v / 262144 % 0x08 + 0xf0) (by omega)
        have hsum : (v / 262144 % 0x08 + 0xf0) % 8 * 262144 + v / 4096 % 0x40 * 4096 +
            v / 64 % 0x40 * 64 + v % 0x40 = v := by
          omega
        have hsecond : secondOfFour (UInt8.ofNat (v / 262144 % 0x08 + 0xf0))
            (UInt8.ofNat (v / 4096 % 0x40 + 0x80)) = true := by
          rw [secondOfFour_iff, hb, toNat_continuation]
          omega
        rw [List.cons_append, List.cons_append, List.cons_append, List.singleton_append,
          ofBytes_four rest (by omega) hsecond (isContinuation_ofNat (v / 64))
            (isContinuation_ofNat v), hb, payload_ofNat, payload_ofNat, payload_ofNat, hsum,
          hchar]

end

/-- The bytes of characters are read as these characters. -/
theorem ofBytes_flatMap_utf8EncodeChar (cs : List Char) :
    ofBytes (cs.flatMap String.utf8EncodeChar) = ofChars cs := by
  induction cs with
  | nil => rfl
  | cons c cs ih =>
      rw [List.flatMap_cons, ofBytes_utf8EncodeChar, ih]
      rfl

/-! ## No byte is lost -/

/-- The bytes that a glyph stands for. -/
def bytes : Glyph → List UInt8
  | .char c => String.utf8EncodeChar c
  | .stray bytes => bytes

theorem toNat_ofNat_of_scalar {n : Nat} (h : n < 0xD800 ∨ 0xDFFF < n ∧ n < 0x110000) :
    (Char.ofNat n).val.toNat = n := by
  have hvalid : n.isValidChar := h
  rw [Char.ofNat, dif_pos hvalid]
  rfl

theorem ofNat_eq {n : Nat} (h : n = b.toNat) : UInt8.ofNat n = b := by
  rw [h, UInt8.ofNat_toNat]

theorem bytes_one (hb : b.toNat ≤ 0x7F) : bytes (.char (Char.ofNat b.toNat)) = [b] := by
  rw [bytes, String.utf8EncodeChar, toNat_ofNat_of_scalar (by omega)]
  simp only [hb, if_true, UInt8.ofNat_toNat]

theorem bytes_two (hb : 0xC2 ≤ b.toNat ∧ b.toNat ≤ 0xDF) (hc : isContinuation c = true) :
    bytes (.char (Char.ofNat (b.toNat % 32 * 64 + payload c))) = [b, c] := by
  rw [isContinuation_iff] at hc
  rw [bytes, String.utf8EncodeChar, payload, toNat_ofNat_of_scalar (by omega)]
  rw [if_neg (by omega), if_pos (by omega), ofNat_eq (b := b) (by omega),
    ofNat_eq (b := c) (by omega)]

theorem bytes_three (hb : 0xE0 ≤ b.toNat ∧ b.toNat ≤ 0xEF) (hc : secondOfThree b c = true)
    (hd : isContinuation d = true) :
    bytes (.char (Char.ofNat (b.toNat % 16 * 4096 + payload c * 64 + payload d))) = [b, c, d] := by
  rw [isContinuation_iff] at hd
  rw [secondOfThree_iff] at hc
  rw [bytes, String.utf8EncodeChar, payload, payload, toNat_ofNat_of_scalar (by omega)]
  rw [if_neg (by omega), if_neg (by omega), if_pos (by omega), ofNat_eq (b := b) (by omega),
    ofNat_eq (b := c) (by omega), ofNat_eq (b := d) (by omega)]

theorem bytes_four (hb : 0xF0 ≤ b.toNat ∧ b.toNat ≤ 0xF4) (hc : secondOfFour b c = true)
    (hd : isContinuation d = true) (he : isContinuation e = true) :
    bytes (.char (Char.ofNat (b.toNat % 8 * 262144 + payload c * 4096 + payload d * 64
      + payload e))) = [b, c, d, e] := by
  rw [isContinuation_iff] at hd he
  rw [secondOfFour_iff] at hc
  rw [bytes, String.utf8EncodeChar, payload, payload, payload, toNat_ofNat_of_scalar (by omega)]
  rw [if_neg (by omega), if_neg (by omega), if_neg (by omega), ofNat_eq (b := b) (by omega),
    ofNat_eq (b := c) (by omega), ofNat_eq (b := d) (by omega), ofNat_eq (b := e) (by omega)]

/-- No byte is lost in reading. -/
theorem flatMap_bytes_ofBytes (bs : List UInt8) : (ofBytes bs).flatMap bytes = bs := by
  have hrange {lo hi b : UInt8} (h : (decide (lo ≤ b) && decide (b ≤ hi)) = true) :
      lo.toNat ≤ b.toNat ∧ b.toNat ≤ hi.toNat := by
    simpa [UInt8.le_iff_toNat_le] using h
  fun_induction ofBytes bs with
  | case1 => rfl
  | case2 b rest hb ih =>
      have hone : b.toNat ≤ 0x7F := Nat.le_of_lt_succ (UInt8.lt_iff_toNat_lt.mp hb)
      rw [List.flatMap_cons, bytes_one hone, ih, List.singleton_append]
  | case3 b _ hb c rest hc ih =>
      rw [List.flatMap_cons, bytes_two (hrange hb) hc, ih]
      rfl
  | case6 b _ _ hb c d rest hc hd ih =>
      rw [List.flatMap_cons, bytes_three (hrange hb) hc hd, ih]
      rfl
  | case12 b _ _ _ hb c d e rest hc hd he ih =>
      rw [List.flatMap_cons, bytes_four (hrange hb) hc hd he, ih]
      rfl
  -- A piece that is no character is kept as it is.
  | _ => simp_all [bytes]

theorem eq_ofChars_of_chars? {gs : List Glyph} {cs : List Char} (h : chars? gs = some cs) :
    gs = ofChars cs := by
  induction gs generalizing cs with
  | nil =>
      obtain rfl : [] = cs := Option.some.inj h
      rfl
  | cons g gs ih =>
      rw [chars?, List.mapM_cons] at h
      obtain ⟨c, hc, h⟩ := Option.bind_eq_some_iff.mp h
      obtain ⟨rest, hrest, h⟩ := Option.bind_eq_some_iff.mp h
      obtain rfl : c :: rest = cs := Option.some.inj h
      cases g with
      | stray bytes => cases hc
      | char c' =>
          obtain rfl : c' = c := Option.some.inj hc
          rw [ih hrest]
          rfl

end Glyph

/-- The bytes of a text are read as the text. -/
@[simp] theorem ofUtf8?_utf8 (s : String) : ofUtf8? (utf8 s) = some s := by
  rw [ofUtf8?, utf8_eq, Glyph.ofBytes_flatMap_utf8EncodeChar, Glyph.chars?_ofChars,
    Option.map_some, String.ofList_toList]

/-- Bytes are read as a text just if they are its bytes. -/
theorem ofUtf8?_eq_some_iff {bytes : List UInt8} {s : String} :
    ofUtf8? bytes = some s ↔ bytes = utf8 s := by
  constructor
  · intro h
    obtain ⟨cs, hcs, rfl⟩ := Option.map_eq_some_iff.mp h
    have hread := Glyph.flatMap_bytes_ofBytes bytes
    rw [Glyph.eq_ofChars_of_chars? hcs, Glyph.ofChars, List.flatMap_map] at hread
    rw [utf8_eq, String.toList_ofList]
    exact hread.symm
  · rintro rfl
    exact ofUtf8?_utf8 s

end Text
end SearchPolling
