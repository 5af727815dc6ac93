import SearchPolling.Url.Host

/-!
# URLs

The parts of a URL, and its text.
-/

namespace SearchPolling

/-- The path of a URL. -/
inductive Url.Path where
  | segments (segments : List (List Char))
  /-- A path that is no list of segments. -/
  | opaquePath (cs : List Char)
  deriving DecidableEq, Repr

/-- A URL.  All parts are in encoded form. -/
structure Url where
  scheme : List Char
  username : List Char
  password : Option (List Char)
  /-- Whether two slashes follow the scheme. -/
  hasAuthority : Bool
  /-- The host, unless it is empty. -/
  host : Option Url.Host
  port : Option Nat
  path : Url.Path
  query : Option (List Char)
  fragment : Option (List Char)
  deriving DecidableEq, Repr

namespace Url

/-- The port of a scheme that the web knows, where it has one. -/
def standardPort (scheme : List Char) : Option Nat :=
  let known : List (String × Nat) :=
    [("http", 80), ("https", 443), ("ws", 80), ("wss", 443), ("ftp", 21)]
  known.lookup (String.ofList scheme)

/-- Whether a scheme is one that the web knows. -/
def isWebScheme (scheme : List Char) : Bool :=
  (standardPort scheme).isSome || scheme = "file".toList

namespace Path

def chars : Path → List Char
  | segments ss => ss.flatMap fun s => '/' :: s
  | opaquePath cs => cs

end Path

/-- The user name and the password, if there are any. -/
def userinfoChars (u : Url) : List Char :=
  match u.password with
  | some p => u.username ++ ':' :: (p ++ ['@'])
  | none => if u.username.isEmpty then [] else u.username ++ ['@']

def chars (u : Url) : List Char :=
  let authority :=
    if u.hasAuthority then
      '/' :: '/' :: (u.userinfoChars ++ ((u.host.map Host.chars).getD []) ++
        match u.port with
        | some p => ':' :: Decimal.natDigits p
        | none => [])
    else
      match u.path with
      | .segments ([] :: _ :: _) => ['/', '.']
      | _ => []
  u.scheme ++ ':' :: (authority ++ u.path.chars ++
    (match u.query with
      | some q => '?' :: q
      | none => []) ++
    match u.fragment with
      | some f => '#' :: f
      | none => [])

def render (u : Url) : String :=
  String.ofList u.chars

/-- The URL without user name and password, if these are given and can be read: the user
name has to be UTF-8, and one of them has to be more than nothing. -/
def anonymous (u : Url) : Url :=
  let isReadable (cs : List Char) : Bool := (Text.ofUtf8? (Percent.decode cs)).isSome
  if isReadable u.username && (!u.username.isEmpty || u.password.any isReadable) then
    { u with username := [], password := none }
  else u

end Url
end SearchPolling
