import SearchPolling.Json.Render

/-!
# Messages of the control interface

Requests and responses, as far as the control interface looks at them.
-/

namespace SearchPolling
namespace Api

/-- A request.  The names of headers are in lower case. -/
structure Request where
  method : String
  target : String
  headers : List (String × String)
  body : List UInt8
  deriving DecidableEq, Repr

/-- A response.  The names of headers are in lower case. -/
structure Response where
  status : Nat
  headers : List (String × String)
  body : String
  deriving DecidableEq, Repr

namespace Request

/-- Whether a character may stand in the scheme of a target. -/
def isSchemeChar (c : Char) : Bool :=
  c.isAlphanum || c = '+' || c = '-' || c = '.'

/-- A target from its path on.  A target that names a scheme and a host has the path behind
them, which is a slash if nothing else stands there. -/
def fromPath (target : List Char) : List Char :=
  match target.dropWhile isSchemeChar with
  | ':' :: '/' :: '/' :: rest =>
    let tail := rest.dropWhile fun c => c ≠ '/' && c ≠ '?'
    if tail.head? = some '/' then tail else '/' :: tail
  | _ => target

/-- The target without a fragment, from its path on. -/
def located (r : Request) : List Char :=
  fromPath (r.target.toList.takeWhile (· ≠ '#'))

/-- The path of the target. -/
def path (r : Request) : String :=
  String.ofList (r.located.takeWhile (· ≠ '?'))

/-- The query of the target, which is empty if there is none. -/
def query (r : Request) : List Char :=
  (r.located.dropWhile (· ≠ '?')).drop 1

/-- The value of a header. -/
def header? (r : Request) (name : String) : Option String :=
  r.headers.lookup name

end Request

namespace Response

/-- A response without a body. -/
def empty (status : Nat) : Response :=
  ⟨status, [], ""⟩

/-- A plain text. -/
def text (status : Nat) (body : String) : Response :=
  ⟨status, [("content-type", "text/plain; charset=utf-8")], body⟩

/-- A value in JSON. -/
def json (status : Nat) (body : Json) : Response :=
  ⟨status, [("content-type", "application/json")], body.render⟩

/-- Whether a request has been granted. -/
def isSuccess (r : Response) : Bool :=
  200 ≤ r.status && r.status < 300

/-- The response with further headers. -/
def withHeaders (r : Response) (headers : List (String × String)) : Response :=
  { r with headers := r.headers ++ headers }

/-- The response without its body. -/
def bodiless (r : Response) : Response :=
  { r with body := "" }

end Response
end Api
end SearchPolling
