/-!
# The grammar of JSON texts

What a JSON text is, said of characters alone.  A value is a word, a number, a string, a list or
an object; items and members are separated by commas and stand in brackets; and blanks may stand
around every item, key and value.  A string may hold numeric escapes of any kind, but it denotes
a text only if every surrogate among them is half of a pair.
-/

namespace SearchPolling
namespace Json
namespace Grammar

/-! ## Blanks -/

def blanks : List Char :=
  [' ', '\t', '\n', '\r']

def IsGap (cs : List Char) : Prop :=
  ∀ c ∈ cs, c ∈ blanks

/-- A word with blanks around it. -/
def Slot (w cs : List Char) : Prop :=
  ∃ before after, IsGap before ∧ IsGap after ∧ cs = before ++ (w ++ after)

/-! ## Strings -/

/-- A character that stands for itself in a string. -/
def IsPlain (c : Char) : Prop :=
  c ≠ '"' ∧ c ≠ '\\' ∧ 0x20 ≤ c.toNat

/-- The escapes of two characters: the second one, and what it stands for. -/
def escapes : List (Char × Char) :=
  [('"', '"'), ('\\', '\\'), ('/', '/'), ('b', '\x08'), ('f', '\x0c'), ('n', '\n'), ('r', '\r'),
    ('t', '\t')]

/-- The hexadecimal digits and their values. -/
def hexDigits : List (Char × Nat) :=
  ['0', '1', '2', '3', '4', '5', '6', '7', '8', '9', 'a', 'b', 'c', 'd', 'e', 'f'].zipIdx ++
    ['A', 'B', 'C', 'D', 'E', 'F'].zipIdx 10

/-- Four hexadecimal digits and the number that they spell. -/
inductive HexUnit : List Char → Nat → Prop
  | mk {a b c d : Char} {i j k n : Nat} : (a, i) ∈ hexDigits → (b, j) ∈ hexDigits →
      (c, k) ∈ hexDigits → (d, n) ∈ hexDigits →
      HexUnit [a, b, c, d] (((i * 16 + j) * 16 + k) * 16 + n)

/-- What may stand between the quotes of a string. -/
inductive IsBody : List Char → Prop
  | nil : IsBody []
  | plain {c : Char} {cs : List Char} : IsPlain c → IsBody cs → IsBody (c :: cs)
  | escaped {e c : Char} {cs : List Char} : (e, c) ∈ escapes → IsBody cs →
      IsBody ('\\' :: e :: cs)
  | unit {h : List Char} {n : Nat} {cs : List Char} : HexUnit h n → IsBody cs →
      IsBody ('\\' :: 'u' :: (h ++ cs))

/-- The first halves of surrogate pairs. -/
def IsLeading (n : Nat) : Prop :=
  0xD800 ≤ n ∧ n < 0xDC00

/-- The second halves of surrogate pairs. -/
def IsTrailing (n : Nat) : Prop :=
  0xDC00 ≤ n ∧ n < 0xE000

/-- What stands between the quotes of a string, and the text that the string denotes. -/
inductive Denotes : List Char → List Char → Prop
  | nil : Denotes [] []
  | plain {c : Char} {cs text : List Char} : IsPlain c → Denotes cs text →
      Denotes (c :: cs) (c :: text)
  | escaped {e c : Char} {cs text : List Char} : (e, c) ∈ escapes → Denotes cs text →
      Denotes ('\\' :: e :: cs) (c :: text)
  | unit {h : List Char} {n : Nat} {cs text : List Char} : HexUnit h n → ¬IsLeading n →
      ¬IsTrailing n → Denotes cs text →
      Denotes ('\\' :: 'u' :: (h ++ cs)) (Char.ofNat n :: text)
  | pair {g h : List Char} {m n : Nat} {cs text : List Char} : HexUnit g m → IsLeading m →
      HexUnit h n → IsTrailing n → Denotes cs text →
      Denotes ('\\' :: 'u' :: (g ++ '\\' :: 'u' :: (h ++ cs)))
        (Char.ofNat (0x10000 + (m - 0xD800) * 0x400 + (n - 0xDC00)) :: text)

def quoted (body : List Char) : List Char :=
  '"' :: (body ++ ['"'])

/-! ## Numbers -/

def IsDigits (ds : List Char) : Prop :=
  ds ≠ [] ∧ ∀ c ∈ ds, c.isDigit = true

/-- Digits of which a zero stands first only if it stands alone. -/
def IsWhole (ds : List Char) : Prop :=
  IsDigits ds ∧ ∀ rest, ds = '0' :: rest → rest = []

def IsFraction (cs : List Char) : Prop :=
  cs = [] ∨ ∃ ds, IsDigits ds ∧ cs = '.' :: ds

def IsExponent (cs : List Char) : Prop :=
  cs = [] ∨ ∃ e sign ds, e ∈ ['e', 'E'] ∧ sign ∈ [[], ['+'], ['-']] ∧ IsDigits ds ∧
    cs = e :: (sign ++ ds)

def IsNumber (cs : List Char) : Prop :=
  ∃ sign whole fraction exponent, sign ∈ [[], ['-']] ∧ IsWhole whole ∧ IsFraction fraction ∧
    IsExponent exponent ∧ cs = sign ++ (whole ++ (fraction ++ exponent))

/-! ## Values -/

/-- Parts with commas between them. -/
inductive Separated {α : Type} (part : α → List Char → Prop) : List α → List Char → Prop
  | one {x : α} {cs : List Char} : part x cs → Separated part [x] cs
  | cons {x y : α} {xs : List α} {cs rest : List Char} : part x cs →
      Separated part (y :: xs) rest → Separated part (x :: y :: xs) (cs ++ ',' :: rest)

/-- Parts in brackets. -/
inductive Bracketed {α : Type} (part : α → List Char → Prop) (opening closing : Char) :
    List α → List Char → Prop
  | none {cs : List Char} : IsGap cs →
      Bracketed part opening closing [] (opening :: (cs ++ [closing]))
  | some {xs : List α} {cs : List Char} : Separated part xs cs →
      Bracketed part opening closing xs (opening :: (cs ++ [closing]))

/-- A list of the texts of its items. -/
abbrev IsList : List (List Char) → List Char → Prop :=
  Bracketed Slot '[' ']'

/-- A member of an object: what stands between the quotes of its key, and the text of its
value. -/
abbrev Member :=
  List Char × List Char

def IsMember (m : Member) (cs : List Char) : Prop :=
  ∃ key value, Slot (quoted m.1) key ∧ Slot m.2 value ∧ cs = key ++ ':' :: value

/-- An object of its members. -/
abbrev IsObject : List Member → List Char → Prop :=
  Bracketed IsMember '\x7b' '\x7d'

def nullWord : List Char :=
  ['n', 'u', 'l', 'l']

def boolWord (b : Bool) : List Char :=
  if b then ['t', 'r', 'u', 'e'] else ['f', 'a', 'l', 's', 'e']

inductive IsValue : List Char → Prop
  | null : IsValue nullWord
  | bool (b : Bool) : IsValue (boolWord b)
  | number {cs : List Char} : IsNumber cs → IsValue cs
  | string {body : List Char} : IsBody body → IsValue (quoted body)
  | list {xs : List (List Char)} {cs : List Char} : IsList xs cs → (∀ x ∈ xs, IsValue x) →
      IsValue cs
  | object {ms : List Member} {cs : List Char} : IsObject ms cs → (∀ m ∈ ms, IsBody m.1) →
      (∀ m ∈ ms, IsValue m.2) → IsValue cs

/-! ## Members of an object -/

/-- A name that denotes a text: no surrogate in it stands alone. -/
def IsName (body : List Char) : Prop :=
  ∃ text, Denotes body text

/-- Exactly one item has the first property, and that one has the second. -/
def HasOne {α : Type} (P Q : α → Prop) (xs : List α) : Prop :=
  ∃ before x after, xs = before ++ x :: after ∧ P x ∧ Q x ∧ ∀ y ∈ before ++ after, ¬P y

/-- Whether the name of a member is one of the given names. -/
def IsNamed (names : List String) (m : Member) : Prop :=
  ∃ name ∈ names, Denotes m.1 name.toList

end Grammar
end Json
end SearchPolling
