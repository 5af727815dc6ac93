import SearchPolling.Dictionary
import SearchPolling.Json.Literal
import SearchPolling.Json.Node

/-!
# Decoders

A decoder turns a node into a value of some type, or meets a fault.  Nodes are read
from left to right and the first fault wins, be it a flaw of the text or a value of
the wrong kind; a value of the wrong kind is noticed where it begins.

Lists, objects and the variants of an enumeration may nest 127 levels deep.  A
value that no type asks for is skipped: it has to be well formed, but its depth,
its numbers and its surrogates are not looked at.
-/

namespace SearchPolling
namespace Json

/-- Where a value stands: how many lists and objects enclose it, and whether it has
been read as a whole before the type it should have was known. -/
structure Context where
  depth : Nat
  buffered : Bool

/-- A way to turn a node into a value. -/
abbrev Decoder (α : Type) := Context → Node → Except Fault α

/-- The context of the outermost value. -/
def Context.outermost : Context :=
  ⟨0, false⟩

/-- The context of the parts of a value. -/
def Context.enter (ctx : Context) : Except Fault Context :=
  if ctx.depth + 1 < 128 then .ok { ctx with depth := ctx.depth + 1 }
  else .error Flaw.tooDeep.fault

/-- Reports a flaw at the value in hand. -/
def refuse {α : Type} (flaw : Flaw) : Except Fault α :=
  .error flaw.fault

/-- Reports the faults of a part of the value in hand under the path to the part. -/
def inPart {α : Type} (s : Segment) (result : Except Fault α) : Except Fault α :=
  result.mapError (Fault.within s)

/-- The text of a string literal. -/
def StringToken.decode (token : StringToken) : Except Fault String :=
  token.text.mapError Flaw.fault

/-- What a number literal denotes. -/
def NumberLiteral.decode (n : NumberLiteral) : Except Fault Number :=
  n.value.mapError Flaw.fault

/-- The flaw of a lexeme with which no value begins. -/
def Lexeme.flaw : Lexeme → Flaw
  | .brokenWord true => .cutOff .value
  | .brokenWord false => .noWord
  | .brokenNumber true => .cutOff .value
  | .brokenNumber false => .badNumber
  | _ => .noValue

/-- What a lexeme begins, read as a value. -/
def Lexeme.found : Lexeme → Except Fault Found
  | .null => .ok .null
  | .bool b => .ok (.bool b)
  | .number n => n.decode.map .number
  | .string token => token.decode.map .string
  | .openList => .ok .list
  | .openObject => .ok .object
  | l => refuse l.flaw

/-- What a node begins with, read as a value. -/
def Node.found : Node → Except Fault Found
  | .absent => refuse (.cutOff .value)
  | .leaf l => l.found
  | .list _ _ => .ok .list
  | .object _ _ => .ok .object

/-- Reports a node of the wrong kind. -/
def Node.unexpected {α : Type} (expected : String) (node : Node) : Except Fault α := do
  let found ← node.found
  .error (Mismatch.kind found expected).fault

/-! ## Skipped values -/

/-- The end of a list of skipped items. -/
def Tail.skipItems : Tail → Except Fault Unit
  | .cutOff => refuse (.cutOff .list)
  | .commaClosed => refuse .noValue
  | .commaCutOff => refuse (.cutOff .value)
  | .unseparated => refuse .noItemSeparator
  | _ => .ok ()

/-- A skipped string literal. -/
def StringToken.skip (token : StringToken) : Except Fault Unit :=
  match token.ending.flaw? with
  | some flaw => refuse flaw
  | none => .ok ()

/-- What stands behind a key in place of a colon. -/
def colonFlaw : Option Lexeme → Flaw
  | none => .cutOff .object
  | some _ => .noColon

/-- The end of the members of a skipped object. -/
def Tail.skipMembers : Tail → Except Fault Unit
  | .cutOff => refuse (.cutOff .object)
  | .commaClosed => refuse .keyNotString
  | .commaCutOff => refuse (.cutOff .object)
  | .unseparated => refuse .noMemberSeparator
  | .keyless _ => refuse .keyNotString
  | .brokenKey token => token.skip
  | .noColon key next => do
    key.skip
    refuse (colonFlaw next)
  | _ => .ok ()

/-- A skipped value that is neither a list nor an object. -/
def Lexeme.skip : Lexeme → Except Fault Unit
  | .null => .ok ()
  | .bool _ => .ok ()
  | .number _ => .ok ()
  | .string token => token.skip
  | .brokenNumber _ => refuse .badNumber
  | l => refuse l.flaw

mutual

/-- Checks that a value is well formed. -/
def Node.skip : Node → Except Fault Unit
  | .absent => refuse (.cutOff .value)
  | .leaf l => l.skip
  | .list items tail => do
    skipItems items
    tail.skipItems
  | .object members tail => do
    skipMembers members
    tail.skipMembers

/-- Checks that items are well formed. -/
def skipItems : List Node → Except Fault Unit
  | [] => .ok ()
  | x :: xs => do
    x.skip
    skipItems xs

/-- Checks that members are well formed. -/
def skipMembers : List (StringToken × Node) → Except Fault Unit
  | [] => .ok ()
  | (key, x) :: rest => do
    key.skip
    x.skip
    skipMembers rest

end

/-! ## Ends of lists and objects -/

/-- The end of a list whose items are all wanted. -/
def Tail.endItems : Tail → Except Fault Unit
  | .cutOff => refuse (.cutOff .list)
  | .commaClosed => refuse .trailingComma
  | .commaCutOff => refuse (.cutOff .value)
  | .unseparated => refuse .noItemSeparator
  | _ => .ok ()

/-- The end of the members of an object. -/
def Tail.endMembers : Tail → Except Fault Unit
  | .cutOff => refuse (.cutOff .object)
  | .commaClosed => refuse .trailingComma
  | .commaCutOff => refuse (.cutOff .value)
  | .unseparated => refuse .noMemberSeparator
  | .keyless _ => refuse .keyNotString
  | .brokenKey token => token.decode.map fun _ => ()
  | .noColon _ next => refuse (colonFlaw next)
  | _ => .ok ()

/-! ## Any value -/

mutual

/-- Reads a value whatever its kind.  Of the members of an object with the same key
the last one counts, and the keys come in ascending order. -/
def Node.any (ctx : Context) : Node → Except Fault Json
  | .absent => refuse (.cutOff .value)
  | .leaf (.null) => .ok .null
  | .leaf (.bool b) => .ok (.bool b)
  | .leaf (.number n) => n.decode.map .number
  | .leaf (.string token) => token.decode.map .string
  | .leaf l => refuse l.flaw
  | .list items tail => do
    let xs ← anyItems (← ctx.enter) 0 items
    tail.endItems
    return .list xs
  | .object members tail => do
    let kvs ← anyMembers (← ctx.enter) members
    match tail with
    | .noColon key _ => let _ ← key.decode
    | _ => pure ()
    tail.endMembers
    return .object (Dictionary.ofBindings kvs)

/-- Reads items whatever their kinds. -/
def anyItems (ctx : Context) (i : Nat) : List Node → Except Fault (List Json)
  | [] => .ok []
  | x :: xs => do
    let v ← inPart (.index i) (x.any ctx)
    let vs ← anyItems ctx (i + 1) xs
    return v :: vs

/-- Reads members whatever the kinds of their values. -/
def anyMembers (ctx : Context) :
    List (StringToken × Node) → Except Fault (List (String × Json))
  | [] => .ok []
  | (key, x) :: rest => do
    let name ← key.decode
    let v ← inPart (.key name) (x.any ctx)
    let vs ← anyMembers ctx rest
    return (name, v) :: vs

end

namespace Decoder

variable {α β σ : Type}

/-- Decodes and converts what was decoded. -/
def mapped (f : α → β) (d : Decoder α) : Decoder β :=
  fun ctx node => (d ctx node).map f

/-- Decodes and converts what was decoded, if it can be converted. -/
def refined (f : α → Except Mismatch β) (d : Decoder α) : Decoder β :=
  fun ctx node => do
    let a ← d ctx node
    (f a).mapError Mismatch.fault

/-- Any value. -/
def any : Decoder Json :=
  fun ctx node => node.any ctx

/-- A truth value. -/
def bool : Decoder Bool := fun _ node =>
  match node with
  | .leaf (.bool b) => .ok b
  | node => node.unexpected "a boolean"

/-- A text; what it should be is said by the type that asks. -/
def text (expected : String) : Decoder String := fun _ node =>
  match node with
  | .leaf (.string token) => token.decode
  | node => node.unexpected expected

/-- A text. -/
def string : Decoder String :=
  text "a string"

/-- A number. -/
def number (expected : String) : Decoder Number := fun _ node =>
  match node with
  | .leaf (.number n) => n.decode
  | node => node.unexpected expected

/-- A natural number of 64 bits. -/
def nat : Decoder UInt64 :=
  (number "u64").refined fun
    | .natural n => .ok n
    | .negative n => .error (.range (.number (.negative n)) "u64")
    | .real x => .error (.kind (.number (.real x)) "u64")

/-- A binary64 value; integers are converted, negative ones by their size. -/
def real : Decoder Float :=
  (number "f64").mapped fun
    | .natural n => n.toFloat
    | .negative n => -n.toInt.natAbs.toUInt64.toFloat
    | .real x => x

/-- A value that may be null. -/
def nullable (d : Decoder α) : Decoder (Option α) := fun ctx node =>
  match node with
  | .leaf .null => .ok none
  | node => (d ctx node).map some

/-- Decodes items, counted from `i`. -/
def items (d : Decoder α) (ctx : Context) (i : Nat) : List Node → Except Fault (List α)
  | [] => .ok []
  | x :: xs => do
    let v ← inPart (.index i) (d ctx x)
    let vs ← items d ctx (i + 1) xs
    return v :: vs

/-- A list. -/
def list (d : Decoder α) : Decoder (List α) := fun ctx node =>
  match node with
  | .list xs tail => do
    let vs ← items d (← ctx.enter) 0 xs
    tail.endItems
    return vs
  | node => node.unexpected "a sequence"

/-- Decodes members one after another, carrying along what they make up.  `onKey`
may refuse a key, which happens before its value is looked at. -/
def members (onKey : σ → String → Except Fault (Node → Except Fault σ)) (s : σ) :
    List (StringToken × Node) → Tail → Except Fault σ
  | (key, x) :: rest, tail => do
    let name ← key.decode
    let read ← onKey s name
    let s ← inPart (.key name) (read x)
    members onKey s rest tail
  | [], tail => do
    match tail with
    | .noColon key _ => let _ ← onKey s (← key.decode)
    | _ => pure ()
    tail.endMembers
    return s

/-- An object with arbitrary keys; of equal keys the last one counts. -/
def dictionary (d : Decoder α) : Decoder (Dictionary α) := fun ctx node =>
  match node with
  | .object kvs tail => do
    let ctx ← ctx.enter
    let bind (read : Dictionary α) (name : String) :
        Except Fault (Node → Except Fault (Dictionary α)) :=
      .ok fun x => (d ctx x).map (read.put name ·)
    members bind [] kvs tail
  | node => node.unexpected "a map"

/-- A name that stands for a value. -/
def variant (variants : List (String × α)) (name : String) : Except Fault α :=
  match variants.lookup name with
  | some a => .ok a
  | none => .error (Mismatch.unknownVariant name (variants.map (·.1))).fault

/-- The value behind the name of a variant that has none. -/
def unit : Decoder Unit := fun _ node =>
  match node with
  | .leaf .null => .ok ()
  | node => node.unexpected "unit"

/-- One of several names, alone or as the key of an object whose value is null. -/
def enumeration (variants : List (String × α)) : Decoder α := fun ctx node =>
  match node with
  | .leaf (.string token) => do variant variants (← token.decode)
  | .object [] tail => do
    let _ ← ctx.enter
    match tail with
    | .closed => refuse .noValue
    | .keyless l => (Node.leaf l |>.unexpected "variant identifier")
    | .brokenKey token => (Node.leaf (.string token) |>.unexpected "variant identifier")
    | .noColon key next => do
      let _ ← variant variants (← key.decode)
      refuse (colonFlaw next)
    | _ => refuse (.cutOff .value)
  | .object ((key, x) :: rest) tail => do
    let ctx ← ctx.enter
    let name ← key.decode
    let a ← variant variants name
    inPart (.variant name) (unit ctx x)
    match rest, tail with
    | [], .closed => return a
    | [], .cutOff => refuse (.cutOff .object)
    | _, _ => refuse .noValue
  | .absent => refuse (.cutOff .value)
  | .leaf _ => refuse .noValue
  | .list _ _ => refuse .noValue

/-- Decodes a whole text. -/
def run (d : Decoder α) (doc : Document) : Except Fault α := do
  let a ← d Context.outermost doc.root
  if doc.followed then refuse .trailingCharacters
  return a

def ofString (d : Decoder α) (text : String) : Except Fault α :=
  d.run (Document.ofString text)

/-- Decodes bytes. -/
def ofBytes (d : Decoder α) (bytes : List UInt8) : Except Fault α :=
  d.run (Document.ofGlyphs (Text.Glyph.ofBytes bytes))

end Decoder
end Json
end SearchPolling
