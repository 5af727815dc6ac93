import SearchPolling.Polling.QueryId
import SearchPolling.Search.Failure
import SearchPolling.Search.Response
import SearchPolling.Time.Timestamp

/-!
# Poll events

What subscribers are told about a query that has been answered: which query it was,
why it was issued, when it was answered, how long that took, and the outcome.

An outcome is written as an object with a tag and its content, in this order, and
read in either order.
-/

namespace SearchPolling
namespace Polling

open Json (Decoder Field Shape Fault Mismatch Node Flaw)

/-- Why a query was issued. -/
inductive Origin where
  /-- Polling was started. -/
  | eager
  /-- The timer ticked. -/
  | tick
  deriving DecidableEq, Repr

namespace Origin

def name : Origin → String
  | eager => "eager"
  | tick => "tick"

def all : List Origin := [eager, tick]

def toJson (o : Origin) : Json :=
  .string o.name

def decoder : Decoder Origin :=
  Decoder.enumeration (all.map fun o => (o.name, o))

end Origin

/-- What became of a query. -/
inductive Outcome where
  | result (response : Search.Response)
  | failure (reason : String)

namespace Outcome

/-- The outcome of a search. -/
def ofSearch : Except Search.Failure Search.Response → Outcome
  | .ok response => .result response
  | .error reason => .failure reason.message

/-- Whether a query failed. -/
def isFailure : Outcome → Bool
  | result _ => false
  | failure _ => true

/-- The response, if there is one. -/
def response? : Outcome → Option Search.Response
  | result r => some r
  | failure _ => none

def toJson : Outcome → Json
  | result r => .object [("status", .string "result"), ("payload", r.toJson)]
  | failure reason => .object [("status", .string "failure"), ("payload", .string reason)]

/-- The tag of an outcome. -/
inductive Tag where
  | result
  | failure
  deriving DecidableEq, Repr

namespace Tag

def decoder : Decoder Tag :=
  Decoder.enumeration [("result", result), ("failure", failure)]

/-- Decodes the content that belongs to a tag. -/
def content : Tag → Decoder Outcome
  | result => Search.Response.decoder.mapped Outcome.result
  | failure => Decoder.string.mapped Outcome.failure

end Tag

/-- How much of an outcome has been read. -/
inductive Draft where
  | nothing
  | tag (tag : Tag)
  | content (node : Node)
  | complete (outcome : Outcome)

/-- What is expected where an outcome should stand. -/
def expected : String := "adjacently tagged enum PollOutcome"

/-- Decodes the member of an outcome with a given name.  A content that comes before
its tag is read as any value first, and as what the tag says afterwards. -/
def onKey (ctx : Json.Context) (draft : Draft) (name : String) :
    Except Fault (Node → Except Fault Draft) :=
  if name = "status" then
    match draft with
    | .nothing => .ok fun x => (Tag.decoder ctx x).map Draft.tag
    | .content node => .ok fun x => do
      let tag ← Tag.decoder ctx x
      (tag.content { ctx with buffered := true } node).map Draft.complete
    | _ => .error (Mismatch.duplicateField "status").fault
  else if name = "payload" then
    match draft with
    | .nothing => .ok fun x => do
      let _ ← x.any ctx
      return .content x
    | .tag tag => .ok fun x => (tag.content ctx x).map Draft.complete
    | _ => .error (Mismatch.duplicateField "payload").fault
  else .ok fun x => x.skip.map fun _ => draft

/-- Makes an outcome of what has been read. -/
def finish : Draft → Except Mismatch Outcome
  | .complete outcome => .ok outcome
  | .tag _ => .error (.missingField "payload")
  | _ => .error (.missingField "status")

/-- Decodes the list of a tag and its content. -/
def pair (ctx : Json.Context) : List Node → Json.Tail → Except Fault Outcome
  | [], tail => do
    tail.endItems
    .error (Mismatch.length 0 expected).fault
  | [x], tail => do
    let _ ← Json.inPart (.index 0) (Tag.decoder ctx x)
    tail.endItems
    .error (Mismatch.length 1 expected).fault
  | x :: y :: rest, tail => do
    let tag ← Json.inPart (.index 0) (Tag.decoder ctx x)
    let outcome ← Json.inPart (.index 1) (tag.content ctx y)
    Shape.endFields ctx 2 rest tail
    return outcome

def decoder : Decoder Outcome := fun ctx node =>
  match node with
  | .object kvs tail => do
    let draft ← Decoder.members (onKey (← ctx.enter)) .nothing kvs tail
    (finish draft).mapError Mismatch.fault
  | .list xs tail => do pair (← ctx.enter) xs tail
  | node => node.unexpected expected

end Outcome

/-- What subscribers are told about one query. -/
structure Event where
  id : QueryId
  origin : Origin
  completedAt : Time.Timestamp
  elapsedMs : UInt64
  outcome : Outcome

namespace Event

def toJson (e : Event) : Json :=
  .object [
    ("query_id", e.id.toJson),
    ("origin", e.origin.toJson),
    ("completed_at", .string e.completedAt.render),
    ("elapsed_ms", Json.nat e.elapsedMs),
    ("outcome", e.outcome.toJson)]

/-- Decodes a timestamp. -/
def timestamp : Decoder Time.Timestamp :=
  (Decoder.text "an RFC 3339 formatted date and time string").refined fun s =>
    match Time.Timestamp.ofString? s with
    | some t => .ok t
    | none => .error (.malformed "input contains invalid characters")

/-- The fields of an event that have been read. -/
structure Draft where
  id : Option QueryId
  origin : Option Origin
  completedAt : Option Time.Timestamp
  elapsedMs : Option UInt64
  outcome : Option Outcome

/-- No member of an event may be missing. -/
def shape : Shape Draft Event where
  name := "PollEvent"
  fields := [
    .held "query_id" Draft.id (fun d v => { d with id := some v }) QueryId.decoder,
    .held "origin" Draft.origin (fun d v => { d with origin := some v }) Origin.decoder,
    .held "completed_at" Draft.completedAt
      (fun d v => { d with completedAt := some v }) timestamp,
    .held "elapsed_ms" Draft.elapsedMs (fun d v => { d with elapsedMs := some v }) .nat,
    .held "outcome" Draft.outcome (fun d v => { d with outcome := some v }) Outcome.decoder]
  empty := ⟨none, none, none, none, none⟩
  complete d := do
    let id ← Json.required "query_id" d.id
    let origin ← Json.required "origin" d.origin
    let completedAt ← Json.required "completed_at" d.completedAt
    let elapsedMs ← Json.required "elapsed_ms" d.elapsedMs
    let outcome ← Json.required "outcome" d.outcome
    return ⟨id, origin, completedAt, elapsedMs, outcome⟩

def decoder : Decoder Event :=
  shape.decoder

end Event
end Polling
end SearchPolling
