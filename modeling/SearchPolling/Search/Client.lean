import SearchPolling.MediaType
import SearchPolling.Search.Failure
import SearchPolling.Search.Request
import SearchPolling.Search.Response
import SearchPolling.Text.Charset
import SearchPolling.Url.Parse

/-!
# The search client

A client posts a request to the search service and makes a response or a failure of what
comes back.  What comes back is up to the network and the service; it is given as an
exchange, so that a search is a function of it.

A failure tells where the exchange went wrong: before an answer, in the body of an
answer, or in its contents.  Of an answer with a status of success the whole body counts
or nothing; a body that comes too late is as unreadable as one that breaks off.
-/

namespace SearchPolling
namespace Search

/-- A request as it is posted. -/
structure Post where
  url : Url
  contentType : String
  body : String

/-- What has arrived of the body of an answer. -/
inductive Delivery where
  | whole (bytes : List UInt8)
  | brokenOff
  | late
  deriving DecidableEq, Repr

/-- An answer of the service. -/
structure Answer where
  status : Nat
  contentType : Option String
  body : Delivery
  deriving DecidableEq, Repr

/-- What comes of posting a request.  If the service points elsewhere, the answer is the
last one. -/
inductive Exchange where
  /-- The service could not be reached, or broke off before it answered. -/
  | broken
  /-- Nothing was answered in time. -/
  | late
  | answered (answer : Answer)
  deriving DecidableEq, Repr

namespace Answer

/-- Whether the status of an answer is a success. -/
def isSuccess (a : Answer) : Bool :=
  200 ≤ a.status && a.status < 300

/-- The charset of an answer. -/
def charset (a : Answer) : Text.Charset :=
  match a.contentType.bind fun t => MediaType.parameter? "charset".toList t.toList with
  | some label => .ofLabel (String.ofList label)
  | none => .utf8

/-- The text of an answer, which is empty if the body cannot be read. -/
def text (a : Answer) : String :=
  match a.body with
  | .whole bytes => a.charset.decode bytes
  | .brokenOff => ""
  | .late => ""

/-- The response that an answer with a status of success holds. -/
def decode? (a : Answer) : Option Response :=
  match a.body with
  | .whole bytes => (Response.decoder.ofBytes bytes).toOption
  | .brokenOff => none
  | .late => none

/-- What an answer means. -/
def result (a : Answer) : Except Failure Response :=
  if a.isSuccess then
    match a.decode? with
    | some r => .ok r
    | none => .error (.undecodable "error decoding response body")
  else .error (.status a.status a.text)

end Answer

/-- A client of the search service. -/
structure Client where
  /-- The address of the service, without slashes at its end. -/
  base : String
  deriving DecidableEq, Repr

namespace Client

/-- The client of the service at an address. -/
def ofBase (base : String) : Client :=
  ⟨String.ofList (base.toList.reverse.dropWhile (· = '/')).reverse⟩

/-- The text of the URL to which requests are posted. -/
def url (c : Client) : String :=
  c.base ++ "/api/v1/search/search"

/-- The reason of a failure that has to do with a URL. -/
def about (reason : String) (u : Url) : String :=
  reason ++ " for url (" ++ u.render ++ ")"

/-- Whether a URL can be posted to: it is not overlong, and no character of its host has
a meaning of its own in the head of a request. -/
def isPostable (u : Url) : Bool :=
  u.render.utf8ByteSize ≤ 65534 &&
    !(u.host.any fun h => h.chars.any fun c => ['"', '\x60', '\x7b', '\x7d'].contains c)

/-- The URL to which requests are posted, if there is one.  The user name and the password
are not part of it. -/
def target (c : Client) : Except Failure Url :=
  match Url.ofString? c.url with
  | none => .error (.network "builder error")
  | some u =>
    if u.host.isNone then .error (.network (about "builder error" u))
    else
      let u := u.anonymous
      if (u.scheme = "http".toList || u.scheme = "https".toList) && isPostable u then .ok u
      else .error (.network (about "builder error" u))

/-- What is posted for a request. -/
def post (url : Url) (r : Request) : Post :=
  ⟨url, "application/json", r.render⟩

/-- What an exchange means. -/
def outcome (url : Url) : Exchange → Except Failure Response
  | .broken => .error (.network (about "error sending request" url))
  | .late => .error .timeout
  | .answered a => a.result

/-- Searches, where `carry` is what comes of posting. -/
def search (c : Client) (r : Request) (carry : Post → Exchange) : Except Failure Response := do
  let url ← c.target
  outcome url (carry (post url r))

end Client
end Search
end SearchPolling
