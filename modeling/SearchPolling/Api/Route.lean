import SearchPolling.Api.Message

/-!
# Routes

The paths of the control interface and the method of each.  A path is matched exactly.
-/

namespace SearchPolling
namespace Api

/-- A path of the control interface. -/
inductive Route where
  | root
  | status
  | start
  | stop
  | interval
  | suppression
  | dropNext
  | query
  | metrics
  | health
  deriving DecidableEq, Repr

/-- A method that a route may have. -/
inductive Method where
  | get
  | post
  | put
  deriving DecidableEq, Repr

namespace Method

/-- Whether a request has the method; a request for the head of a response counts as
one for the response. -/
def accepts (m : Method) (name : String) : Bool :=
  match m with
  | get => name = "GET" || name = "HEAD"
  | post => name = "POST"
  | put => name = "PUT"

/-- The methods that are named when another one was used. -/
def allowed : Method → String
  | get => "GET,HEAD"
  | post => "POST"
  | put => "PUT"

end Method

namespace Route

def all : List Route :=
  [root, status, start, stop, interval, suppression, dropNext, query, metrics, health]

/-- The path of a route. -/
def path : Route → String
  | root => "/"
  | status => "/polling"
  | start => "/polling/start"
  | stop => "/polling/stop"
  | interval => "/polling/interval"
  | suppression => "/polling/suppression"
  | dropNext => "/polling/drop-next"
  | query => "/polling/query"
  | metrics => "/metrics"
  | health => "/health"

/-- The method of a route. -/
def method : Route → Method
  | root => .get
  | status => .get
  | start => .post
  | stop => .post
  | interval => .put
  | suppression => .put
  | dropNext => .post
  | query => .put
  | metrics => .get
  | health => .get

/-- The route of a path. -/
def ofPath? (path : String) : Option Route :=
  all.find? fun r => r.path = path

end Route

namespace Request

/-- The route of a request. -/
def route? (r : Request) : Option Route :=
  Route.ofPath? r.path

/-- The name under which a request is counted. -/
def endpoint (r : Request) : String :=
  match r.route? with
  | some route => route.path
  | none => "unmatched"

end Request
end Api
end SearchPolling
