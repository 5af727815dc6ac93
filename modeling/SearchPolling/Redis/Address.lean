import SearchPolling.Text.Integer
import SearchPolling.Url.Form
import SearchPolling.Url.Parse

/-!
# Addresses of Redis servers

A server is found by the URL of a host, with the number of a database as its path, or by
the URL of a socket in the file system.  Connections are never encrypted, so the schemes
that ask for it cannot be used.
-/

namespace SearchPolling
namespace Redis

/-- Where a server listens. -/
inductive Endpoint where
  | host (host : Url.Host) (port : Nat)
  /-- A socket in the file system, by the bytes of its path. -/
  | socket (path : List UInt8)
  deriving DecidableEq, Repr

/-- What is needed to make use of a server. -/
structure Address where
  endpoint : Endpoint
  database : Int
  username : Option String
  password : Option String
  deriving DecidableEq, Repr

namespace Address

/-- The port of a server whose URL has none. -/
def standardPort : Nat := 6379

/-- The value of a name, the last one if there are several. -/
def lookup? (name : String) (bindings : List (String × String)) : Option String :=
  bindings.reverse.lookup name

/-- Whether the version of the protocol, if one is asked for, is one that there is. -/
def isProtocolKnown (bindings : List (String × String)) : Bool :=
  match lookup? "protocol" bindings with
  | none => true
  | some version => ["2", "resp2", "3", "resp3"].contains version

/-- The text without slashes at either end. -/
def trimSlashes (cs : List Char) : List Char :=
  ((cs.dropWhile (· = '/')).reverse.dropWhile (· = '/')).reverse

/-- The number of the database that a path gives. -/
def pathDatabase? (path : Url.Path) : Option Int :=
  match trimSlashes path.chars with
  | [] => some 0
  | digits => Text.integer? digits

/-- The number of the database that parameters give. -/
def boundDatabase? (bindings : List (String × String)) : Option Int :=
  match lookup? "db" bindings with
  | none => some 0
  | some digits => Text.integer? digits.toList

/-- A part of a URL in plain text, or nothing for nothing; no other bytes than UTF-8 can
be used. -/
def plain? : Option (List Char) → Option (Option String)
  | none => some none
  | some cs => (Text.ofUtf8? (Url.Percent.decode cs)).map some

/-- The address that the URL of a host gives. -/
def ofHostUrl? (u : Url) : Option Address := do
  let host ← u.host
  let database ← pathDatabase? u.path
  let username ← plain? (if u.username.isEmpty then none else some u.username)
  let password ← plain? u.password
  return ⟨.host host (u.port.getD standardPort), database, username, password⟩

/-- The address that the URL of a socket gives. -/
def ofSocketUrl? (u : Url) (bindings : List (String × String)) : Option Address := do
  let isLocal := u.host.all (· = .name "localhost".toList)
  let database ← boundDatabase? bindings
  match u.path.chars with
  | '/' :: path =>
    if isLocal then
      some ⟨.socket (Url.Percent.decode ('/' :: path)), database, lookup? "user" bindings,
        lookup? "pass" bindings⟩
    else none
  | _ => none

/-- The address that a URL gives. -/
def ofUrl? (u : Url) : Option Address :=
  let bindings := Url.Form.bindings (u.query.getD [])
  let scheme := String.ofList u.scheme
  if !isProtocolKnown bindings then none
  else if ["redis", "valkey"].contains scheme then ofHostUrl? u
  else if ["unix", "redis+unix", "valkey+unix"].contains scheme then ofSocketUrl? u bindings
  else none

/-- The address that a text gives. -/
def ofString? (text : String) : Option Address :=
  (Url.ofString? text).bind ofUrl?

end Address
end Redis
end SearchPolling
