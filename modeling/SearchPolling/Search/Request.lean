import SearchPolling.Json.Record

/-!
# Search requests

What the search service is asked: indices, a query, a window of results, an order,
and the fields and facets that are wanted.  A request is written as a JSON object
without its absent members.
-/

namespace SearchPolling
namespace Search

open Json (Decoder Field Shape Mismatch)

inductive SortOrder where
  | asc
  | desc
  deriving DecidableEq, Repr

structure SortField where
  field : String
  order : SortOrder
  deriving DecidableEq, Repr

/-- A search request. -/
structure Request where
  indices : List String
  query : String
  start : UInt64
  size : UInt64
  sort : List SortField
  fields : Option (List String)
  facetFields : Option (List String)
  deriving DecidableEq

namespace SortOrder

def name : SortOrder → String
  | asc => "asc"
  | desc => "desc"

def toJson (o : SortOrder) : Json :=
  .string o.name

def decoder : Decoder SortOrder :=
  Decoder.enumeration [("asc", asc), ("desc", desc)]

end SortOrder

namespace SortField

def toJson (s : SortField) : Json :=
  .object [("sortField", .string s.field), ("sortOrder", s.order.toJson)]

/-- The fields of a sort field that have been read. -/
structure Draft where
  field : Option String
  order : Option SortOrder

/-- A sort field has two members. -/
def shape : Shape Draft SortField where
  name := "SortField"
  fields := [
    .held "sortField" Draft.field (fun d v => { d with field := some v }) .string,
    .held "sortOrder" Draft.order (fun d v => { d with order := some v }) SortOrder.decoder]
  empty := ⟨none, none⟩
  complete d := do
    let field ← Json.required "sortField" d.field
    let order ← Json.required "sortOrder" d.order
    return ⟨field, order⟩

def decoder : Decoder SortField :=
  shape.decoder

end SortField

namespace Request

/-- The request that is sent unless another one is set: everything, newest first. -/
def standard : Request where
  indices := []
  query := "*"
  start := 0
  size := 25
  sort := [⟨"timestamp", .desc⟩]
  fields := none
  facetFields := none

instance : Inhabited Request := ⟨standard⟩

/-- A member that is left out when it has no value. -/
def optionalMember (name : String) : Option (List String) → List (String × Json)
  | none => []
  | some texts => [(name, Json.strings texts)]

def toJson (r : Request) : Json :=
  .object ([
    ("indices", Json.strings r.indices),
    ("query", .string r.query),
    ("from", Json.nat r.start),
    ("size", Json.nat r.size),
    ("sort", .list (r.sort.map SortField.toJson))] ++
    optionalMember "fields" r.fields ++ optionalMember "facetFields" r.facetFields)

/-- The fields of a request that have been read. -/
structure Draft where
  indices : Option (List String)
  query : Option String
  start : Option UInt64
  size : Option UInt64
  sort : Option (List SortField)
  fields : Option (Option (List String))
  facetFields : Option (Option (List String))

/-- Of the members of a request the last three may be missing. -/
def shape : Shape Draft Request where
  name := "SearchRequest"
  fields := [
    .held "indices" Draft.indices (fun d v => { d with indices := some v }) (.list .string),
    .held "query" Draft.query (fun d v => { d with query := some v }) .string,
    .held "from" Draft.start (fun d v => { d with start := some v }) .nat,
    .held "size" Draft.size (fun d v => { d with size := some v }) .nat,
    (Field.held "sort" Draft.sort (fun d v => { d with sort := some v })
      (.list SortField.decoder)).orAbsent,
    (Field.held "fields" Draft.fields (fun d v => { d with fields := some v })
      (.nullable (.list .string))).orAbsent,
    (Field.held "facetFields" Draft.facetFields (fun d v => { d with facetFields := some v })
      (.nullable (.list .string))).orAbsent]
  empty := ⟨none, none, none, none, none, none, none⟩
  complete d := do
    let indices ← Json.required "indices" d.indices
    let query ← Json.required "query" d.query
    let start ← Json.required "from" d.start
    let size ← Json.required "size" d.size
    return {
      indices, query, start, size
      sort := d.sort.getD []
      fields := d.fields.getD none
      facetFields := d.facetFields.getD none }

def decoder : Decoder Request :=
  shape.decoder

def render (r : Request) : String :=
  r.toJson.render

end Request
end Search
end SearchPolling
