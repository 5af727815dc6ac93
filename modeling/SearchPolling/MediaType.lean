/-!
# Media types

A media type has a type, a subtype which may end in a suffix behind a plus sign, and
parameters.  Letters count the same in either case.
-/

namespace SearchPolling

/-- A media type, up to its parameters, in lower case. -/
structure MediaType where
  type : List Char
  subtype : List Char
  /-- What follows the last plus sign of the subtype, if that is not its first character. -/
  suffix : Option (List Char)
  deriving DecidableEq, Repr

namespace MediaType

/-- A character of a type, a subtype or the name of a parameter. -/
def isToken (c : Char) : Bool :=
  c.isAlphanum || ['!', '#', '$', '%', '&', '\'', '*', '+', '-', '.', '^', '_', '\x60', '|',
    '~'].contains c

/-- A character of a quoted value; a quote is one only in the first place. -/
def isQuotable (c : Char) : Bool :=
  c = '\t' || (0x20 ≤ c.toNat && c.toNat < 0x7F)

/-- Where in its parameters a media type has been read to. -/
inductive Place where
  /-- Between parameters. -/
  | between
  | name
  /-- Behind an equals sign. -/
  | value
  | token
  /-- Within quotes; at first nothing has been read. -/
  | quoted (empty : Bool)
  /-- Behind a quoted value. -/
  | unquoted
  deriving DecidableEq, Repr

namespace Place

/-- Reads one character of the parameters. -/
def step : Place → Char → Option Place
  | between, c => if c = ' ' then some between else if isToken c then some name else none
  | name, c => if c = '=' then some value else if isToken c then some name else none
  | value, c => if c = '"' then some (quoted true) else if isToken c then some token else none
  | token, c => if c = ';' then some between else if isToken c then some token else none
  | quoted empty, c =>
    if c = '"' && !empty then some unquoted
    else if isQuotable c then some (quoted false) else none
  | unquoted, c => if c = ';' then some between else if c = ' ' then some unquoted else none

/-- Whether the parameters may end. -/
def isEnd : Place → Bool
  | between => true
  | value => true
  | token => true
  | unquoted => true
  | _ => false

end Place

/-- Whether a text is a list of parameters. -/
def isParameters (cs : List Char) : Bool :=
  match cs.foldlM Place.step .between with
  | some p => p.isEnd
  | none => false

/-- Cuts a subtype at its last plus sign that is not its first character. -/
def cutSuffix : List Char → List Char × Option (List Char)
  | [] => ([], none)
  | c :: rest =>
    let after := (rest.reverse.takeWhile (· ≠ '+')).reverse
    if rest.contains '+' then (c :: rest.take (rest.length - after.length - 1), some after)
    else (c :: rest, none)

/-- Reads a media type. -/
def ofChars? (cs : List Char) : Option MediaType :=
  let type := cs.takeWhile isToken
  match cs.dropWhile isToken with
  | '/' :: rest =>
    let subtype := rest.takeWhile isToken
    let wellFormed :=
      match rest.dropWhile isToken with
      | [] => true
      | ';' :: parameters => !subtype.isEmpty && isParameters parameters
      | _ => false
    if !type.isEmpty && wellFormed then
      let (main, suffix) := cutSuffix (subtype.map Char.toLower)
      some ⟨type.map Char.toLower, main, suffix⟩
    else none
  | _ => none

/-- The parameters of a text that has them behind its first semicolon: the semicolons
outside of quotes part them. -/
def cutParameters : Bool → List Char → List (List Char)
  | _, [] => [[]]
  | inside, c :: rest =>
    if c = ';' && !inside then [] :: cutParameters false rest
    else
      match cutParameters (if c = '"' then !inside else inside) rest with
      | [] => [[c]]
      | first :: others => (c :: first) :: others

/-- The name and the value of a parameter in lower case, without the quotes. -/
def parameter (cs : List Char) : List Char × List Char :=
  let cs := (cs.filter (· ≠ '"')).map Char.toLower
  let trimmed := ((cs.dropWhile (· = ' ')).reverse.dropWhile (· = ' ')).reverse
  (trimmed.takeWhile (· ≠ '='), (trimmed.dropWhile (· ≠ '=')).drop 1)

/-- The value of the first parameter of a name in the text of a media type. -/
def parameter? (name cs : List Char) : Option (List Char) :=
  if (ofChars? cs).isSome then
    (((cutParameters false cs).drop 1).map parameter).lookup name
  else none

/-- Whether a media type announces JSON. -/
def isJson (m : MediaType) : Bool :=
  m.type = "application".toList &&
    (m.subtype = "json".toList || m.suffix = some "json".toList)

end MediaType
end SearchPolling
