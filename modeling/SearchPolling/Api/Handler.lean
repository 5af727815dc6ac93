import SearchPolling.Api.Body
import SearchPolling.Api.QueryString
import SearchPolling.Api.Route
import SearchPolling.MediaType
import SearchPolling.Metrics.Export
import SearchPolling.Polling.Command
import SearchPolling.Search.Request

/-!
# Handling requests

A request is first turned into an action: an answer that can be given at once, a
command to polling, a new search descriptor, or a look at the status or the metrics.
A request that is refused is an answer at once and so never reaches polling.

Every response may be read across origins.  A request for the options of a path is
answered for any path and is neither routed nor counted; all other requests are
counted when they are answered.
-/

namespace SearchPolling
namespace Api

open Json (Decoder Document Fault)

/-- What a request asks for. -/
inductive Action where
  | reply (response : Response)
  | showStatus
  | command (c : Polling.Command)
  | setRequest (request : Search.Request)
  | showMetrics

/-- The version that is reported. -/
def version : String := "0.1.0"

/-- What the root path answers. -/
def greeting : String := "Alert Auto-Polling Service"

/-- The report that the service is well. -/
def healthReport : Json :=
  .object [("status", .string "ok"), ("version", .string version)]

/-- The answer to a body that could not be decoded. -/
def refuseBody (f : Fault) : Response :=
  match f.category with
  | .data =>
    .text 422 ("Failed to deserialize the JSON body into the target type: " ++ f.located)
  | _ => .text 400 ("Failed to parse the request body as JSON: " ++ f.located)

/-- The answer to a body of another type than JSON. -/
def refuseMediaType : Response :=
  .text 415 "Expected request with `Content-Type: application/json`"

/-- The number of bytes that a body may have. -/
def bodyLimit : Nat := 2097152

/-- The answer to a body that is too long. -/
def refuseLength : Response :=
  .text 413 "Failed to buffer the request body: length limit exceeded"

/-- The answer to an interval that cannot be used. -/
def refuseInterval : Response :=
  .json 400 (ErrorReport.toJson ⟨"Invalid interval", some IntervalChange.refusal⟩)

/-- The answer to a command that polling refused. -/
def refuseCommand (e : Polling.InvalidInterval) : Response :=
  .json 400 (ErrorReport.toJson ⟨e.message, none⟩)

namespace Request

/-- Whether a request announces a body in JSON. -/
def announcesJson (r : Request) : Bool :=
  match (r.header? "content-type").bind fun v => MediaType.ofChars? v.toList with
  | some m => m.isJson
  | none => false

/-- What the body of a request holds, which has to be JSON of some type, or the answer to a
body that holds nothing of it. -/
def decoded {α : Type} (r : Request) (d : Decoder α) : Except Response α :=
  if r.announcesJson then
    if bodyLimit < r.body.length then .error refuseLength
    else
      match d.ofBytes r.body with
      | .ok a => .ok a
      | .error f => .error (refuseBody f)
  else .error refuseMediaType

/-- The action for a body that has to be JSON of some type. -/
def withBody {α : Type} (r : Request) (d : Decoder α) (act : α → Action) : Action :=
  match r.decoded d with
  | .ok a => act a
  | .error response => .reply response

/-- The action for a request to stop. -/
def stopAction (r : Request) : Action :=
  match QueryString.flag "persist" none (Url.Form.bindings r.query) with
  | .ok persist => .command (.stop (persist.getD true))
  | .error reason => .reply (.text 400 ("Failed to deserialize query string: " ++ reason))

/-- The action for a request with the method of its route. -/
def routedAction (r : Request) : Route → Action
  | .root => .reply (.text 200 greeting)
  | .status => .showStatus
  | .start => .command .start
  | .stop => r.stopAction
  | .interval => r.withBody IntervalChange.decoder fun c =>
    if c.isValid then .command (.setInterval c.seconds) else .reply refuseInterval
  | .suppression => r.withBody SuppressionChange.decoder fun c =>
    .command (.suppress c.suppressed)
  | .dropNext => .command .dropCycle
  | .query => r.withBody Search.Request.decoder .setRequest
  | .metrics => .showMetrics
  | .health => .reply (.json 200 healthReport)

/-- What a request asks for. -/
def action (r : Request) : Action :=
  match r.route? with
  | none => .reply (.empty 404)
  | some route =>
    if route.method.accepts r.method then r.routedAction route
    else .reply ((Response.empty 405).withHeaders [("allow", route.method.allowed)])

/-- Whether a request asks for the options of a path. -/
def isPreflight (r : Request) : Bool :=
  r.method = "OPTIONS"

end Request

namespace Response

/-- A status in answer to a request. -/
def ofStatus (s : Polling.Status) : Response :=
  .json 200 s.toJson

/-- The metrics in answer to a request. -/
def ofMetrics (r : Metrics.Registry) : Response :=
  ⟨200, [("content-type", "text/plain; version=0.0.4")], r.exportText⟩

/-- The headers that let a response be read across origins. -/
def originHeaders : List (String × String) := [
  ("access-control-allow-origin", "*"),
  ("vary", "origin, access-control-request-method, access-control-request-headers")]

/-- The answer to a request for the options of a path. -/
def preflight (r : Request) : Response :=
  let allowed := match r.route? with
    | some route => [("allow", route.method.allowed)]
    | none => []
  ⟨200, allowed ++ originHeaders ++
    [("access-control-allow-headers", "*"), ("access-control-allow-methods", "*")], ""⟩

/-- A response as it is sent. -/
def sent (response : Response) (r : Request) : Response :=
  let response := if r.method = "HEAD" then response.bodiless else response
  response.withHeaders (originHeaders ++ [("access-control-expose-headers", "*")])

/-- What is measured of a request that has been answered. -/
def measurements (response : Response) (r : Request) (seconds : Float) :
    List Metrics.Measurement := [
  .request r.method r.endpoint (String.ofList (Decimal.natDigits response.status)),
  .requestDuration r.method r.endpoint seconds]

end Response
end Api
end SearchPolling
