import SearchPolling.Dictionary

/-!
# JSON values

The values that JSON texts denote.  A number is kept as a natural number or a
negative integer of 64 bits where its literal is one, and as a binary64 value
otherwise.
-/

namespace SearchPolling

/-- A JSON number. -/
inductive Json.Number where
  | natural (n : UInt64)
  | negative (n : Int64)
  | real (x : Float)

/-- A JSON value.  The members of an object are in the order in which they are written. -/
inductive Json where
  | null
  | bool (b : Bool)
  | number (n : Json.Number)
  | string (s : String)
  | list (items : List Json)
  | object (members : List (String × Json))

namespace Json

instance : Inhabited Json := ⟨.null⟩

/-- A natural number of 64 bits. -/
def nat (n : UInt64) : Json :=
  .number (.natural n)

/-- A binary64 number. -/
def real (x : Float) : Json :=
  .number (.real x)

/-- A value, or null in its absence. -/
def ofOption {α : Type} (encode : α → Json) : Option α → Json
  | none => .null
  | some a => encode a

/-- A list of texts. -/
def strings (texts : List String) : Json :=
  .list (texts.map .string)

/-- An object whose members follow the order of a dictionary. -/
def ofDictionary {α : Type} (encode : α → Json) (d : Dictionary α) : Json :=
  .object (d.map fun (k, v) => (k, encode v))

end Json
end SearchPolling
