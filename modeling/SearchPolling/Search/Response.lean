import SearchPolling.Json.Record

/-!
# Search responses

What the search service answers: how many documents match, the documents in the
window that was asked for, and how often each value of each facet occurs.
-/

namespace SearchPolling
namespace Search

open Json (Decoder Field Shape)

/-- One document that matches. -/
structure Hit where
  id : String
  index : Option String
  score : Option Float
  source : Json

/-- How often each value of each facet occurs. -/
abbrev FacetCounts := Dictionary (Dictionary UInt64)

/-- A search response. -/
structure Response where
  total : UInt64
  results : List Hit
  facetCounts : Option FacetCounts

namespace Hit

def toJson (h : Hit) : Json :=
  .object [
    ("id", .string h.id),
    ("index", Json.ofOption .string h.index),
    ("score", Json.ofOption Json.real h.score),
    ("source", h.source)]

/-- The fields of a hit that have been read. -/
structure Draft where
  id : Option String
  index : Option (Option String)
  score : Option (Option Float)
  source : Option Json

/-- Only the id of a hit may not be missing. -/
def shape : Shape Draft Hit where
  name := "SearchResult"
  fields := [
    .held "id" Draft.id (fun d v => { d with id := some v }) .string,
    (Field.held "index" Draft.index (fun d v => { d with index := some v })
      (.nullable .string)).orAbsent,
    (Field.held "score" Draft.score (fun d v => { d with score := some v })
      (.nullable .real)).orAbsent,
    (Field.held "source" Draft.source (fun d v => { d with source := some v }) .any).orAbsent]
  empty := ⟨none, none, none, none⟩
  complete d := do
    let id ← Json.required "id" d.id
    return ⟨id, d.index.getD none, d.score.getD none, d.source.getD .null⟩

def decoder : Decoder Hit :=
  shape.decoder

end Hit

namespace Response

/-- The answer that nothing matches. -/
def empty : Response :=
  ⟨0, [], none⟩

instance : Inhabited Response := ⟨empty⟩

/-- Facet counts in JSON. -/
def facetCountsJson (counts : FacetCounts) : Json :=
  Json.ofDictionary (Json.ofDictionary Json.nat) counts

/-- A response in JSON, without the facet counts if there are none. -/
def toJson (r : Response) : Json :=
  .object ([("total", Json.nat r.total), ("results", .list (r.results.map Hit.toJson))] ++
    match r.facetCounts with
    | none => []
    | some counts => [("facetCounts", facetCountsJson counts)])

/-- The fields of a response that have been read. -/
structure Draft where
  total : Option UInt64
  results : Option (List Hit)
  facetCounts : Option (Option FacetCounts)

/-- Only the total of a response may not be missing. -/
def shape : Shape Draft Response where
  name := "SearchResponse"
  fields := [
    .held "total" Draft.total (fun d v => { d with total := some v }) .nat,
    (Field.held "results" Draft.results (fun d v => { d with results := some v })
      (.list Hit.decoder)).orAbsent,
    (Field.held "facetCounts" Draft.facetCounts (fun d v => { d with facetCounts := some v })
      (.nullable (.dictionary (.dictionary .nat)))).orAbsent]
  empty := ⟨none, none, none⟩
  complete d := do
    let total ← Json.required "total" d.total
    return ⟨total, d.results.getD [], d.facetCounts.getD none⟩

def decoder : Decoder Response :=
  shape.decoder

end Response
end Search
end SearchPolling
