import SearchPolling.Url.Basic

/-!
# Reading URLs

An absolute URL is a scheme, an authority behind two slashes, a path, a query and a
fragment; all but the scheme may be missing.  The schemes that the web knows always have
an authority, and a backslash counts as a slash with them.
-/

namespace SearchPolling
namespace Url

/-- The text without controls and spaces around it, and without tabs and line breaks. -/
def tidy (cs : List Char) : List Char :=
  let isEdge (c : Char) : Bool := c.toNat ≤ 0x20
  let trimmed := ((cs.dropWhile isEdge).reverse.dropWhile isEdge).reverse
  trimmed.filter fun c => !(c = '\t' || c = '\n' || c = '\r')

/-- A character of a scheme. -/
def isSchemeChar (c : Char) : Bool :=
  c.isAlphanum || c = '+' || c = '-' || c = '.'

/-- The scheme in lower case, and what follows its colon. -/
def scheme? (cs : List Char) : Option (List Char × List Char) :=
  let scheme := cs.takeWhile isSchemeChar
  match cs.dropWhile isSchemeChar with
  | ':' :: rest =>
    if scheme.head?.any Char.isAlpha then some (scheme.map Char.toLower, rest) else none
  | _ => none

/-- Whether a character separates the segments of a path. -/
def isSlash (web : Bool) (c : Char) : Bool :=
  c = '/' || (web && c = '\\')

/-- Whether a character ends an authority. -/
def endsAuthority (web : Bool) (c : Char) : Bool :=
  isSlash web c || c = '?' || c = '#'

/-! ## Authorities -/

/-- Cuts a text at the last occurrence of a character. -/
def cutLast (x : Char) (cs : List Char) : Option (List Char × List Char) :=
  if cs.contains x then
    let after := (cs.reverse.takeWhile (· ≠ x)).reverse
    some (cs.take (cs.length - after.length - 1), after)
  else none

/-- The user name and the password, which has to be more than nothing. -/
def userinfo (cs : List Char) : List Char × Option (List Char) :=
  let name := cs.takeWhile (· ≠ ':')
  let password := (cs.dropWhile (· ≠ ':')).drop 1
  (Percent.encode Percent.userinfoSet name,
    if password.isEmpty then none else some (Percent.encode Percent.userinfoSet password))

/-- Cuts a host from its port, at the first colon outside of brackets. -/
def cutPort : Bool → List Char → List Char × Option (List Char)
  | _, [] => ([], none)
  | inside, c :: rest =>
    if c = ':' && !inside then ([], some rest)
    else
      let inside := if c = '[' then true else if c = ']' then false else inside
      let (host, port) := cutPort inside rest
      (c :: host, port)

/-- The number of a port, unless it is empty or the standard one of the scheme. -/
def port? (scheme : List Char) : Option (List Char) → Option (Option Nat)
  | none => some none
  | some digits =>
    if !digits.all Char.isDigit then none
    else if digits.isEmpty then some none
    else
      let n := digits.foldl (fun n c => n * 10 + (c.toNat - '0'.toNat)) 0
      if 65535 < n then none
      else some (if standardPort scheme = some n then none else some n)

/-- The parts of an authority. -/
structure Authority where
  username : List Char
  password : Option (List Char)
  host : Option Host
  port : Option Nat

/-- Reads an authority.  Its host may be empty only with other schemes than those that
the web knows, and then nothing stands beside it. -/
def authority? (scheme : List Char) (cs : List Char) : Option Authority := do
  let web := isWebScheme scheme
  let cut := cutLast '@' cs
  let (username, password) := match cut with
    | some (front, _) => userinfo front
    | none => ([], none)
  let (hostText, portText) := cutPort false ((cut.map (·.2)).getD cs)
  if hostText.isEmpty then
    if web || cut.isSome || portText.isSome then none
    else return ⟨username, password, none, none⟩
  else
    let host ← if web then Host.ofWeb? hostText else Host.ofOther? hostText
    let port ← port? scheme portText
    return ⟨username, password, some host, port⟩

/-- Reads the authority of a file, which is a host or nothing. -/
def fileAuthority? (cs : List Char) : Option Authority := do
  if cs.isEmpty then return ⟨[], none, none, none⟩
  let host ← Host.ofWeb? cs
  return ⟨[], none, if host = .name "localhost".toList then none else some host, none⟩

/-! ## Paths -/

/-- A segment with encoded points spelled out. -/
def plainPoints : List Char → List Char
  | '%' :: '2' :: 'e' :: rest => '.' :: plainPoints rest
  | '%' :: '2' :: 'E' :: rest => '.' :: plainPoints rest
  | c :: rest => c :: plainPoints rest
  | [] => []

/-- Resolves segments behind those of `done`, which are in reverse. -/
def resolve (done : List (List Char)) : List (List Char) → List (List Char)
  | [] => done.reverse
  | s :: rest =>
    let plain := plainPoints s
    if plain = ['.', '.'] then
      resolve (if rest.isEmpty then [] :: done.drop 1 else done.drop 1) rest
    else if plain = ['.'] then resolve (if rest.isEmpty then [] :: done else done) rest
    else resolve (Percent.encode Percent.pathSet s :: done) rest

/-- The segments of a path. -/
def segments (web : Bool) (cs : List Char) : List (List Char) :=
  resolve [] ((cs.map fun c => if isSlash web c then '/' else c).splitOn '/')

/-- The path behind an authority. -/
def rootedPath (web : Bool) : List Char → Path
  | [] => .segments (if web then [[]] else [])
  | c :: rest => .segments (segments web (if isSlash web c then rest else c :: rest))

/-! ## Whole URLs -/

/-- Reads what follows the scheme, up to the query. -/
def body? (scheme cs : List Char) : Option (Authority × Bool × Path) := do
  let web := isWebScheme scheme
  let isEnd := endsAuthority web
  let nobody : Authority := ⟨[], none, none, none⟩
  if scheme = "file".toList then
    match cs with
    | a :: b :: rest =>
      if isSlash true a && isSlash true b then
        let authority ← fileAuthority? (rest.takeWhile (!isEnd ·))
        return (authority, true, rootedPath true (rest.dropWhile (!isEnd ·)))
    | _ => pure ()
    return (nobody, true, rootedPath true cs)
  else if web then
    let rest := cs.dropWhile (isSlash true)
    let authority ← authority? scheme (rest.takeWhile (!isEnd ·))
    return (authority, true, rootedPath true (rest.dropWhile (!isEnd ·)))
  else
    match cs with
    | '/' :: '/' :: rest =>
      let authority ← authority? scheme (rest.takeWhile (!isEnd ·))
      return (authority, true, rootedPath false (rest.dropWhile (!isEnd ·)))
    | '/' :: rest => return (nobody, false, .segments (segments false rest))
    | cs => return (nobody, false, .opaquePath (Percent.encode Percent.controls cs))

/-- Reads a URL. -/
def ofString? (text : String) : Option Url := do
  let (scheme, rest) ← scheme? (tidy text.toList)
  let web := isWebScheme scheme
  let front := rest.takeWhile (· ≠ '#')
  let (a, hasAuthority, path) ← body? scheme (front.takeWhile (· ≠ '?'))
  let querySet := if web then Percent.specialQuerySet else Percent.querySet
  let query := match front.dropWhile (· ≠ '?') with
    | _ :: q => some (Percent.encode querySet q)
    | [] => none
  let fragment := match rest.dropWhile (· ≠ '#') with
    | _ :: f => some (Percent.encode Percent.fragmentSet f)
    | [] => none
  return ⟨scheme, a.username, a.password, hasAuthority, a.host, a.port, path, query, fragment⟩

end Url
end SearchPolling
