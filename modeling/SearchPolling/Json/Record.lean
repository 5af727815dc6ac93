import SearchPolling.Json.Decode

/-!
# Records

A record is written as an object or as the list of its fields in their order.  In
an object the fields may come in any order, each at most once, and members with
other names are skipped.  A list may end early if every field that is left has a
value to fall back on.

While a record is read its fields are held in a draft, from which the record is
made in the end.
-/

namespace SearchPolling
namespace Json

/-- A field of a record with drafts in `σ`. -/
structure Field (σ : Type) where
  name : String
  /-- Other names that stand for the same field. -/
  aliases : List String := []
  /-- Whether a draft has the field. -/
  present : σ → Bool
  /-- Decodes the field into a draft. -/
  decode : σ → Decoder σ
  /-- Whether a list may end before the field. -/
  optional : Bool := false

/-- A record with drafts in `σ`. -/
structure Shape (σ α : Type) where
  name : String
  fields : List (Field σ)
  empty : σ
  /-- Makes the record, or names the first field that is missing. -/
  complete : σ → Except Mismatch α

/-- A field with the given value, or the reason that it is missing. -/
def required {α : Type} (name : String) : Option α → Except Mismatch α
  | some a => .ok a
  | none => .error (.missingField name)

namespace Field

variable {σ α : Type}

/-- Whether a name stands for a field. -/
def isNamed (name : String) (f : Field σ) : Bool :=
  f.name = name || f.aliases.contains name

/-- A field that a draft holds once it has been read. -/
def held (name : String) (get : σ → Option α) (set : σ → α → σ) (d : Decoder α) :
    Field σ where
  name := name
  present := fun draft => (get draft).isSome
  decode := fun draft => d.mapped (set draft)

/-- The field, before which a list may end. -/
def orAbsent (f : Field σ) : Field σ :=
  { f with optional := true }

/-- The field under a further name. -/
def orNamed (f : Field σ) (name : String) : Field σ :=
  { f with aliases := f.aliases ++ [name] }

end Field

namespace Shape

variable {σ α : Type}

/-- What is expected where the record should stand. -/
def expected (shape : Shape σ α) : String :=
  "struct " ++ shape.name

/-- What is expected of a list of fields. -/
def expectedLength (shape : Shape σ α) : String :=
  let n := shape.fields.length
  shape.expected ++ " with " ++ String.ofList (Decimal.natDigits n) ++
    (if n = 1 then " element" else " elements")

/-- What follows the last field in a list. -/
def endFields (ctx : Context) (count : Nat) : List Node → Tail → Except Fault Unit
  | [], .cutOff => refuse (.cutOff .list)
  | [], .commaClosed => refuse .trailingComma
  | [], .closed => .ok ()
  | [], .unread => .ok ()
  | [], _ => refuse .trailingCharacters
  | extra, _ =>
    if ctx.buffered then
      let elements := String.ofList (Decimal.natDigits count)
      .error (Mismatch.length (count + extra.length)
        (elements ++ (if count = 1 then " element in sequence" else " elements in sequence"))).fault
    else refuse .trailingCharacters

/-- Decodes the fields of a list, counted from `i`. -/
def positional (shape : Shape σ α) (ctx : Context) (draft : σ) (i : Nat) :
    List (Field σ) → List Node → Tail → Except Fault σ
  | [], xs, tail => do
    endFields ctx i xs tail
    return draft
  | f :: fields, x :: xs, tail => do
    let draft ← inPart (.index i) (f.decode draft ctx x)
    positional shape ctx draft (i + 1) fields xs tail
  | f :: fields, [], tail => do
    tail.endItems
    if f.optional then positional shape ctx draft (i + 1) fields [] tail
    else .error (Mismatch.length i shape.expectedLength).fault

/-- Decodes the member of an object with a given name. -/
def onKey (shape : Shape σ α) (ctx : Context) (draft : σ) (name : String) :
    Except Fault (Node → Except Fault σ) :=
  match shape.fields.find? (Field.isNamed name) with
  | none => .ok fun x => x.skip.map fun _ => draft
  | some f =>
    if f.present draft then .error (Mismatch.duplicateField f.name).fault
    else .ok fun x => f.decode draft ctx x

/-- Decodes the fields of a record. -/
def draft (shape : Shape σ α) : Decoder σ := fun ctx node =>
  match node with
  | .list xs tail => do shape.positional (← ctx.enter) shape.empty 0 shape.fields xs tail
  | .object kvs tail => do Decoder.members (shape.onKey (← ctx.enter)) shape.empty kvs tail
  | node => node.unexpected shape.expected

def decoder (shape : Shape σ α) : Decoder α :=
  shape.draft.refined shape.complete

end Shape
end Json
end SearchPolling
