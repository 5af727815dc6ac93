import Mathlib.Algebra.Group.Nat.Defs
import SearchPolling.Proofs.Reading.Characters
import SearchPolling.Redis.Server

/-!
# Bytes between a server and its clients

Texts travel behind their number of bytes, so that whatever they hold, line ends and bytes
that mark replies included, is read as a part of them.  A number is a line of its own, of
which a reader takes no more than its digits.

No text is longer than what a number on such a line can say.
-/

namespace SearchPolling

namespace Text

/-- Texts whose bytes can be numbered with 63 bits; no machine holds others. -/
def IsAddressable (s : String) : Prop :=
  (utf8 s).length < 2 ^ 63

instance (s : String) : Decidable (IsAddressable s) :=
  inferInstanceAs (Decidable (_ < _))

theorem utf8_ofList (cs : List Char) :
    utf8 (String.ofList cs) = cs.flatMap String.utf8EncodeChar := by
  rw [utf8_eq, String.toList_ofList]

/-- Characters of ASCII are a byte each. -/
theorem utf8EncodeChar_of_lt {c : Char} (h : c.toNat < 0x80) :
    String.utf8EncodeChar c = [UInt8.ofNat c.toNat] := by
  have hval : c.val.toNat = c.toNat := rfl
  rw [String.utf8EncodeChar, hval]
  exact if_pos (Nat.le_of_lt_succ h)

theorem trim_of_not_blank {cs : List Char} (h : ∀ c ∈ cs, isBlank c = false) : trim cs = cs := by
  have htrim : trim ([] ++ cs ++ []) = cs := trim_surrounded nofun h nofun
  rwa [List.nil_append, List.append_nil] at htrim

theorem nat?_natDigits (n : Nat) : nat? (Decimal.natDigits n) = some n := by
  have hvalue : ofDigits (Decimal.natDigits n) = n := by
    rw [ofDigits, Decimal.natDigits, ← Nat.ofDigitChars_eq_foldl, Nat.ofDigitChars_ten_toDigits]
  have hsome : (Decimal.natDigits n).isEmpty = false := by
    simp [Decimal.natDigits, Nat.toDigits_ne_nil]
  have hdigits : (Decimal.natDigits n).all Char.isDigit = true :=
    List.all_eq_true.mpr fun c hc => Decimal.isDigit_of_mem_natDigits hc
  rw [nat?, hsome, hdigits, hvalue]
  rfl

/-- No sign stands in front of the digits of a number. -/
theorem natDigits_ne_cons {sign : Char} (h : sign.isDigit = false) (n : Nat) (ds : List Char) :
    Decimal.natDigits n ≠ sign :: ds := by
  intro hsign
  have hdigit : sign.isDigit = true := Decimal.isDigit_of_mem_natDigits (hsign ▸ List.mem_cons_self)
  rw [h] at hdigit
  cases hdigit

/-- The digits of a number of 63 bits spell it. -/
theorem integer?_natDigits {n : Nat} (h : n < 2 ^ 63) :
    integer? (Decimal.natDigits n) = some (n : Int) := by
  have hbounds : Int64.minValue.toInt ≤ (n : Int) ∧ (n : Int) ≤ Int64.maxValue.toInt := by
    have hmin : Int64.minValue.toInt = -2 ^ 63 := rfl
    have hmax : Int64.maxValue.toInt = 2 ^ 63 - 1 := rfl
    omega
  rw [integer?, nat?_natDigits]
  · exact if_pos hbounds
  · exact natDigits_ne_cons rfl n
  · exact natDigits_ne_cons rfl n

end Text

namespace Redis

namespace Reply

/-! ## Lines -/

theorem cutLine?_append {line : List UInt8} (h : 13 ∉ line) (rest : List UInt8) :
    cutLine? (line ++ lineEnd ++ rest) = some (line, rest) := by
  induction line with
  | nil => rfl
  | cons b line ih =>
      obtain ⟨hb, hline⟩ := not_or.mp (mt List.mem_cons.mpr h)
      rw [List.cons_append, List.cons_append, cutLine?, ih hline]
      · rfl
      · intro rest' hreturn
        exact absurd hreturn.symm hb

/-- Characters of ASCII that end no line. -/
def IsPlain (cs : List Char) : Prop :=
  ∀ c ∈ cs, c.toNat < 0x80 ∧ c ≠ '\r'

instance (cs : List Char) : Decidable (IsPlain cs) :=
  List.decidableBAll (fun c : Char => c.toNat < 0x80 ∧ c ≠ '\r') cs

theorem isPlain_natDigits (n : Nat) : IsPlain (Decimal.natDigits n) := by
  intro c hc
  have hdigit := Decimal.isDigit_of_mem_natDigits hc
  refine ⟨Nat.lt_of_le_of_lt (Text.toNat_of_isDigit hdigit).2 (by decide), ?_⟩
  rintro rfl
  cases hdigit

theorem takeLine?_plain {cs : List Char} (h : IsPlain cs) (rest : List UInt8) :
    takeLine? (Text.utf8 (String.ofList cs) ++ lineEnd ++ rest) =
      some (String.ofList cs, rest) := by
  have hreturn : 13 ∉ Text.utf8 (String.ofList cs) := by
    rw [Text.utf8_ofList, List.mem_flatMap]
    rintro ⟨c, hc, hbyte⟩
    obtain ⟨hascii, hne⟩ := h c hc
    rw [Text.utf8EncodeChar_of_lt hascii, List.mem_singleton] at hbyte
    have htoNat : (UInt8.ofNat c.toNat).toNat = c.toNat :=
      UInt8.toNat_ofNat_of_lt (Nat.lt_of_lt_of_le hascii (by decide))
    rw [← hbyte] at htoNat
    exact hne (Char.toNat_inj.mp htoNat.symm)
  rw [takeLine?, cutLine?_append hreturn]
  simp only [Option.bind_eq_bind, Option.bind_some, Text.ofUtf8?_utf8]
  rfl

theorem line_append {mark : Char} (h : mark.toNat < 0x80) (cs : List Char)
    (rest : List UInt8) : line mark cs ++ rest =
      UInt8.ofNat mark.toNat :: (Text.utf8 (String.ofList cs) ++ lineEnd ++ rest) := by
  rw [line, Text.utf8_ofList, List.flatMap_cons, Text.utf8EncodeChar_of_lt h, Text.utf8_ofList]
  rfl

/-! ## Replies -/

theorem lineInteger?_natDigits {n : Nat} (h : n < 2 ^ 63) :
    lineInteger? (String.ofList (Decimal.natDigits n)) = some (n : Int) := by
  have hblank : ∀ c ∈ Decimal.natDigits n, Text.isBlank c = false := fun c hc =>
    Text.isBlank_of_isDigit (Decimal.isDigit_of_mem_natDigits hc)
  rw [lineInteger?, String.toList_ofList, Text.trim_of_not_blank hblank,
    Text.integer?_natDigits h]

theorem takeBytes?_append (content rest : List UInt8) :
    takeBytes? content.length (content ++ lineEnd ++ rest) = some (content, rest) := by
  rw [takeBytes?, List.append_assoc, List.drop_left, List.take_left]
  rfl

/-- Bytes behind their number are taken as they are, whatever they hold. -/
theorem take?_encodeBytes (fuel : Nat) {content : List UInt8} (h : content.length < 2 ^ 63)
    (rest : List UInt8) :
    take? (fuel + 1) (encodeBytes content ++ rest) = some (.bulk content, rest) := by
  have hmark : Char.ofNat (UInt8.ofNat '$'.toNat).toNat = '$' := rfl
  have hcount : ¬(content.length : Int) < 0 := Int.not_lt.mpr (Int.natCast_nonneg _)
  rw [encodeBytes, List.append_assoc, List.append_assoc, line_append (by decide), take?,
    takeLine?_plain (isPlain_natDigits _)]
  simp only [Option.bind_eq_bind, Option.bind_some, hmark, lineInteger?_natDigits h, hcount,
    if_false, Int.toNat_natCast]
  rw [← List.append_assoc, takeBytes?_append]
  rfl

theorem takeAll?_flatMap_encodeBytes {texts : List (List UInt8)}
    (h : ∀ text ∈ texts, text.length < 2 ^ 63) {fuel : Nat} (hfuel : texts.length < fuel)
    (rest : List UInt8) :
    takeAll? fuel texts.length (texts.flatMap encodeBytes ++ rest) =
      some (texts.map .bulk, rest) := by
  induction texts generalizing fuel with
  | nil => rw [List.length_nil, takeAll?]; rfl
  | cons text texts ih =>
      cases fuel with
      | zero => exact absurd hfuel (Nat.not_lt_zero _)
      | succ fuel =>
          have hfuel : texts.length < fuel := Nat.lt_of_succ_lt_succ hfuel
          have hfirst := take?_encodeBytes (fuel - 1) (h text List.mem_cons_self)
            (texts.flatMap encodeBytes ++ rest)
          rw [Nat.sub_add_cancel (Nat.succ_le_of_lt (Nat.zero_lt_of_lt hfuel))] at hfirst
          have hrest := ih (fun text' hmem => h text' (List.mem_cons_of_mem _ hmem)) hfuel
          rw [List.length_cons, List.flatMap_cons, List.append_assoc, takeAll?, hfirst]
          simp only [Option.bind_eq_bind, Option.bind_some, hrest]
          rfl

theorem length_le_flatMap_encodeBytes (texts : List (List UInt8)) :
    texts.length ≤ (texts.flatMap encodeBytes).length := by
  induction texts with
  | nil => exact Nat.zero_le _
  | cons text texts ih =>
      simp only [List.flatMap_cons, List.length_append, List.length_cons, encodeBytes, line,
        lineEnd]
      omega

/-- A list of byte texts is read as these byte texts. -/
theorem ofBytes?_encodeTexts {texts : List (List UInt8)} (hlength : texts.length < 2 ^ 63)
    (h : ∀ text ∈ texts, text.length < 2 ^ 63) :
    ofBytes? (encodeTexts texts) = some (.list (texts.map .bulk)) := by
  have hmark : Char.ofNat (UInt8.ofNat '*'.toNat).toNat = '*' := rfl
  have hcount : ¬(texts.length : Int) < 0 := Int.not_lt.mpr (Int.natCast_nonneg _)
  have hfuel : texts.length < (encodeTexts texts).length := by
    have hle := length_le_flatMap_encodeBytes texts
    simp only [encodeTexts, List.length_append, line, lineEnd, List.length_cons]
    omega
  have hall := takeAll?_flatMap_encodeBytes h hfuel []
  rw [List.append_nil] at hall
  rw [ofBytes?]
  generalize (encodeTexts texts).length = fuel at hall
  rw [encodeTexts, line_append (by decide), take?, takeLine?_plain (isPlain_natDigits _)]
  simp only [Option.bind_eq_bind, Option.bind_some, hmark, lineInteger?_natDigits hlength,
    hcount, if_false, Int.toNat_natCast, hall]
  rfl

theorem ofBytes?_encodeBytes {content : List UInt8} (h : content.length < 2 ^ 63) :
    ofBytes? (encodeBytes content) = some (.bulk content) := by
  have htake := take?_encodeBytes (encodeBytes content).length h []
  rw [List.append_nil] at htake
  rw [ofBytes?, htake]
  rfl

/-- A line alone is read by its mark. -/
theorem ofBytes?_line {mark : Char} (hmark : mark.toNat < 0x80) (cs : List Char) :
    ofBytes? (line mark cs) =
      (take? ((line mark cs).length + 1) (UInt8.ofNat mark.toNat ::
        (Text.utf8 (String.ofList cs) ++ lineEnd ++ []))).map (·.1) := by
  rw [ofBytes?, ← line_append hmark cs [], List.append_nil]

theorem ofBytes?_ok : ofBytes? (line '+' "OK".toList) = some (.simple "OK") := by
  rw [ofBytes?_line (by decide), take?, takeLine?_plain (by decide)]
  rfl

theorem ofBytes?_pong : ofBytes? (line '+' "PONG".toList) = some (.simple "PONG") := by
  rw [ofBytes?_line (by decide), take?, takeLine?_plain (by decide)]
  rfl

theorem ofBytes?_nil : ofBytes? (line '$' "-1".toList) = some .nil := by
  rw [ofBytes?_line (by decide), take?, takeLine?_plain (by decide)]
  rfl

end Reply

namespace Command

/-- Commands all of whose texts a machine can hold. -/
def IsAddressable (c : Command) : Prop :=
  ∀ word ∈ c.words, Text.IsAddressable word

theorem isAddressable_get {key : String} (h : Text.IsAddressable key) :
    (get key).IsAddressable := by
  simp only [IsAddressable, words, List.forall_mem_cons]
  exact ⟨by decide +kernel, h, nofun⟩

theorem isAddressable_set {key value : String} (hkey : Text.IsAddressable key)
    (hvalue : Text.IsAddressable value) : (set key value).IsAddressable := by
  simp only [IsAddressable, words, List.forall_mem_cons]
  exact ⟨by decide +kernel, hkey, hvalue, nofun⟩

/-- A command is read from its bytes as it was written. -/
theorem ofBytes?_encode {c : Command} (h : c.IsAddressable) : ofBytes? c.encode = some c := by
  have hfew : (c.words.map Text.utf8).length < 2 ^ 63 := by
    rw [List.length_map]
    cases c <;> simp [words]
  have hbytes : ∀ text ∈ c.words.map Text.utf8, text.length < 2 ^ 63 := by
    intro text htext
    obtain ⟨word, hword, rfl⟩ := List.mem_map.mp htext
    exact h word hword
  have htexts (words : List String) :
      ((words.map Text.utf8).map Reply.bulk).mapM Reply.text? = some words := by
    induction words with
    | nil => rfl
    | cons word words ih =>
        rw [List.map_cons, List.map_cons, List.mapM_cons, ih, Reply.text?, Text.ofUtf8?_utf8]
        rfl
  rw [ofBytes?, encode, Reply.ofBytes?_encodeTexts hfew hbytes]
  simp only [htexts, Option.bind_some, ofWords?_words]

end Command
end Redis
end SearchPolling
