import SearchPolling.Decimal.Layout
import SearchPolling.Text.Blank
import SearchPolling.Text.Integer
import SearchPolling.Text.Utf8

/-!
# Replies

What travels between a server and those who use it.  A reply begins with a mark for its
kind, and a line follows that ends in a carriage return and a line feed.  Bytes come
behind a line with their number, and lists behind a line with the number of their items.

Maps, sets, numbers with a fraction and other kinds that no command here is answered with
are not read.
-/

namespace SearchPolling
namespace Redis

/-- A reply. -/
inductive Reply where
  | simple (text : String)
  | error (text : String)
  | integer (i : Int)
  | bulk (content : List UInt8)
  | nil
  | bool (b : Bool)
  | list (items : List Reply)
  deriving Repr

namespace Reply

/-! ## Writing -/

/-- The end of a line. -/
def lineEnd : List UInt8 :=
  [13, 10]

/-- A mark and a line. -/
def line (mark : Char) (cs : List Char) : List UInt8 :=
  Text.utf8 (String.ofList (mark :: cs)) ++ lineEnd

/-- Bytes behind their number. -/
def encodeBytes (bytes : List UInt8) : List UInt8 :=
  line '$' (Decimal.natDigits bytes.length) ++ bytes ++ lineEnd

/-- A list of byte texts behind their number. -/
def encodeTexts (texts : List (List UInt8)) : List UInt8 :=
  line '*' (Decimal.natDigits texts.length) ++ texts.flatMap encodeBytes

/-! ## Reading -/

/-- Cuts bytes at the end of the first line. -/
def cutLine? : List UInt8 → Option (List UInt8 × List UInt8)
  | 13 :: 10 :: rest => some ([], rest)
  | b :: rest => (cutLine? rest).map fun (line, rest) => (b :: line, rest)
  | [] => none

/-- Takes the text of the first line. -/
def takeLine? (bytes : List UInt8) : Option (String × List UInt8) := do
  let (line, rest) ← cutLine? bytes
  let text ← Text.ofUtf8? line
  return (text, rest)

/-- The integer on a line, with blanks around it or none. -/
def lineInteger? (text : String) : Option Int :=
  Text.integer? (Text.trim text.toList)

/-- Takes so many bytes and the end of a line behind them. -/
def takeBytes? (n : Nat) (bytes : List UInt8) : Option (List UInt8 × List UInt8) :=
  match bytes.drop n with
  | 13 :: 10 :: rest => some (bytes.take n, rest)
  | _ => none

mutual

/-- Takes a reply.  The first argument bounds the number of replies within it. -/
def take? : Nat → List UInt8 → Option (Reply × List UInt8)
  | fuel + 1, mark :: bytes => do
    let (text, rest) ← takeLine? bytes
    match Char.ofNat mark.toNat with
    | '+' => return (simple text, rest)
    | '-' => return (error text, rest)
    | ':' => return (integer (← lineInteger? text), rest)
    | '_' => return (nil, rest)
    | '#' =>
      match text with
      | "t" => return (bool true, rest)
      | "f" => return (bool false, rest)
      | _ => none
    | '$' =>
      let n ← lineInteger? text
      if n < 0 then return (nil, rest)
      let (content, rest) ← takeBytes? n.toNat rest
      return (bulk content, rest)
    | '*' =>
      let n ← lineInteger? text
      if n < 0 then return (nil, rest)
      let (items, rest) ← takeAll? fuel n.toNat rest
      return (list items, rest)
    | _ => none
  | _, _ => none

/-- Takes so many replies. -/
def takeAll? : Nat → Nat → List UInt8 → Option (List Reply × List UInt8)
  | _, 0, bytes => some ([], bytes)
  | fuel + 1, n + 1, bytes => do
    let (reply, rest) ← take? fuel bytes
    let (replies, rest) ← takeAll? fuel n rest
    return (reply :: replies, rest)
  | 0, _ + 1, _ => none

end

/-- Reads a reply.  What follows it is nobody's and is dropped. -/
def ofBytes? (bytes : List UInt8) : Option Reply :=
  (take? (bytes.length + 1) bytes).map (·.1)

/-! ## Meaning -/

mutual

/-- Whether a reply is an error or holds one. -/
def isError : Reply → Bool
  | error _ => true
  | list items => anyError items
  | _ => false

/-- Whether one of several replies is an error or holds one. -/
def anyError : List Reply → Bool
  | [] => false
  | reply :: replies => isError reply || anyError replies

end

/-- The text of a reply that is one. -/
def text? : Reply → Option String
  | simple text => some text
  | integer i => some (String.ofList (Decimal.intDigits i))
  | bulk content => Text.ofUtf8? content
  | _ => none

end Reply
end Redis
end SearchPolling
