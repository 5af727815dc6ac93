/-!
# The FNV-1a hash

A word of 64 bits takes in one byte after another.  What a byte does to the word can be
undone, so words that differ still differ after the same bytes.  But there are more texts than
words, and different texts may leave the same word.
-/

namespace SearchPolling
namespace Text
namespace Fnv

/-- The word before the first byte. -/
def offset : UInt64 := 0xcbf29ce484222325

/-- The prime with which a word is multiplied. -/
def prime : UInt64 := 0x100000001b3

/-- The word after one more byte. -/
def absorb (word : UInt64) (b : UInt8) : UInt64 :=
  (word ^^^ b.toUInt64) * prime

/-- The word after the bytes of a text in UTF-8. -/
def absorbText (word : UInt64) (text : String) : UInt64 :=
  (text.toList.flatMap String.utf8EncodeChar).foldl absorb word

/-- The word of texts that follow one another. -/
def hash (texts : List String) : UInt64 :=
  texts.foldl absorbText offset

theorem hash_append (xs ys : List String) : hash (xs ++ ys) = ys.foldl absorbText (hash xs) :=
  List.foldl_append

/-- The prime is odd, so that multiplication with it is undone by another. -/
theorem mul_prime_inj {v w : UInt64} : v * prime = w * prime ↔ v = w := by
  constructor
  · intro h
    have hundone (u : UInt64) : u * prime * 0xce965057aff6957b = u := by
      have hone : prime * 0xce965057aff6957b = 1 := by decide
      rw [UInt64.mul_assoc, hone, UInt64.mul_one]
    rw [← hundone v, h, hundone w]
  · rintro rfl
    rfl

theorem absorb_eq_absorb_iff {v w : UInt64} {a b : UInt8} :
    absorb v a = absorb w b ↔ v ^^^ a.toUInt64 = w ^^^ b.toUInt64 :=
  mul_prime_inj

theorem absorb_left_inj {v w : UInt64} {b : UInt8} : absorb v b = absorb w b ↔ v = w := by
  rw [absorb_eq_absorb_iff, UInt64.xor_left_inj]

theorem absorb_right_inj {w : UInt64} {a b : UInt8} : absorb w a = absorb w b ↔ a = b := by
  rw [absorb_eq_absorb_iff, UInt64.xor_right_inj, UInt8.toUInt64_inj]

theorem absorbText_left_inj {v w : UInt64} {text : String} :
    absorbText v text = absorbText w text ↔ v = w := by
  rw [absorbText, absorbText]
  induction text.toList.flatMap String.utf8EncodeChar generalizing v w with
  | nil => rfl
  | cons b bytes ih => rw [List.foldl_cons, List.foldl_cons, ih, absorb_left_inj]

/-- Texts that are added do not hide a difference. -/
theorem hash_append_left_inj {xs ys : List String} (zs : List String) :
    hash (xs ++ zs) = hash (ys ++ zs) ↔ hash xs = hash ys := by
  rw [hash_append, hash_append]
  generalize hash xs = v
  generalize hash ys = w
  induction zs generalizing v w with
  | nil => rfl
  | cons text zs ih => rw [List.foldl_cons, List.foldl_cons, ih, absorbText_left_inj]

/-- A byte is mixed into the eight lowest bits. -/
theorem shiftRight_eq_of_absorb {v w : UInt64} {a b : UInt8} (h : absorb v a = absorb w b) :
    v >>> 8 = w >>> 8 := by
  have hbyte (c : UInt8) : c.toUInt64 >>> 8 = 0 := by
    rw [← UInt64.toNat_inj, UInt64.toNat_shiftRight, Nat.shiftRight_eq_div_pow]
    exact Nat.div_eq_of_lt c.toNat_lt
  have hshifted := congrArg (fun u : UInt64 => u >>> 8) (absorb_eq_absorb_iff.mp h)
  simpa only [UInt64.shiftRight_xor, hbyte, UInt64.xor_zero] using hshifted

end Fnv
end Text
end SearchPolling
