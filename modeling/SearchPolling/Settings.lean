import SearchPolling.Polling.Record
import SearchPolling.Text.Blank
import SearchPolling.Text.Utf8

/-!
# Settings

The service is configured by seven variables of its environment, of which only the
address of the search service has to be set.  A variable whose bytes are not UTF-8
counts as unset.  A file may supply variables that are unset.

Numbers may be surrounded by blanks and have a plus sign in front; they have 64
bits.  Of several faults the one of the first variable in reading order is reported.
-/

namespace SearchPolling

/-- The bytes of each variable that is set. -/
abbrev Environment := String → Option (List UInt8)

namespace Environment

/-- The text of a variable. -/
def text? (env : Environment) (name : String) : Option String :=
  (env name).bind Text.ofUtf8?

/-- The environment in which nothing is set. -/
def empty : Environment :=
  fun _ => none

/-- The environment with one more variable. -/
def set (env : Environment) (name : String) (bytes : List UInt8) : Environment :=
  fun n => if n = name then some bytes else env n

/-- The environment with variables filled in where they have no text; the first of
several values for a variable counts. -/
def fill (env : Environment) : List (String × String) → Environment
  | [] => env
  | (name, value) :: rest =>
    if (env.text? name).isSome then fill env rest
    else fill (env.set name (Text.utf8 value)) rest

end Environment

namespace VariableFile

/-- A character of the name of a variable. -/
def isNameChar (c : Char) : Bool :=
  c.isAlphanum || c = '_' || c = '.'

/-- A blank within a line. -/
def isGap (c : Char) : Bool :=
  c = ' ' || c = '\t'

/-- A value ends at a blank, behind which only a comment may follow. -/
def value? (cs : List Char) : Option (List Char) :=
  let value := cs.takeWhile (!isGap ·)
  match (cs.dropWhile (!isGap ·)).dropWhile isGap with
  | [] => some value
  | c :: _ => if c = '#' then some value else none

/-- A line that is no comment: a name, an equals sign and a value. -/
def binding? (cs : List Char) : Option (String × String) :=
  let name := cs.takeWhile isNameChar
  match Text.trimFront (cs.dropWhile isNameChar) with
  | '=' :: rest =>
    if name.isEmpty || name.head?.any Char.isDigit then none
    else
      match Text.trimFront rest with
      | '#' :: _ => some (String.ofList name, "")
      | value => (value? value).map fun v => (String.ofList name, String.ofList v)
  | _ => none

/-- The bindings of lines.  A line that is none ends the reading. -/
def ofLines : List (List Char) → List (String × String)
  | [] => []
  | line :: rest =>
    match Text.trim line with
    | [] => ofLines rest
    | '#' :: _ => ofLines rest
    | cs =>
      match binding? cs with
      | some b => b :: ofLines rest
      | none => []

/-- The bindings of a file. -/
def ofString (text : String) : List (String × String) :=
  ofLines (text.toList.splitOn '\n')

end VariableFile

/-- How the service is configured. -/
structure Settings where
  searchUrl : String
  searchTimeout : UInt64
  redisUrl : String
  bindAddress : String
  stateKey : String
  defaultInterval : UInt64
  resultBuffer : UInt64
  deriving DecidableEq, Repr

/-- Why an environment does not configure the service. -/
inductive SettingsError where
  | missing (name : String)
  | invalid (name value : String)
  deriving DecidableEq, Repr

namespace SettingsError

def message : SettingsError → String
  | missing name => name ++ " must be set"
  | invalid name value => name ++ " has an invalid value: " ++ value

end SettingsError

namespace Settings

/-- The number of events that are held for a slow subscriber unless another number
is configured. -/
def standardBuffer : UInt64 := 64

/-- The number that one or more decimal digits spell, if it has at most 64 bits. -/
def digitsValue? (cs : List Char) : Option UInt64 :=
  if cs.isEmpty || !cs.all Char.isDigit then none
  else
    let n := cs.foldl (fun n c => n * 10 + (c.toNat - '0'.toNat)) 0
    if n < UInt64.size then some n.toUInt64 else none

/-- The number that a text spells. -/
def number? (text : String) : Option UInt64 :=
  match Text.trim text.toList with
  | '+' :: rest => digitsValue? rest
  | cs => digitsValue? cs

/-- A variable that is a number, or what it is when unset. -/
def number (env : Environment) (name : String) (unset : UInt64) :
    Except SettingsError UInt64 :=
  match env.text? name with
  | none => .ok unset
  | some text =>
    match number? text with
    | some n => .ok n
    | none => .error (.invalid name text)

/-- The interval of a first session, which has to be one that polling accepts. -/
def interval (env : Environment) : Except SettingsError UInt64 := do
  let name := "POLLING_DEFAULT_INTERVAL_SECS"
  let seconds ← number env name Polling.standardInterval
  match Polling.checkInterval seconds with
  | .ok _ => return seconds
  | .error e => throw (.invalid name (String.ofList (Decimal.natDigits e.seconds.toNat)))

/-- The settings that an environment makes. -/
def ofEnvironment (env : Environment) : Except SettingsError Settings := do
  let some searchUrl := env.text? "SEARCH_API_URL"
    | throw (.missing "SEARCH_API_URL")
  let searchTimeout ← number env "SEARCH_TIMEOUT_SECS" 30
  let resultBuffer ← number env "RESULT_BUFFER" standardBuffer
  let defaultInterval ← interval env
  return {
    searchUrl, searchTimeout, resultBuffer, defaultInterval
    redisUrl := (env.text? "REDIS_URL").getD "redis://127.0.0.1/"
    bindAddress := (env.text? "BIND_ADDR").getD "0.0.0.0:3000"
    stateKey := (env.text? "POLLING_STATE_KEY").getD Polling.standardStateKey }

end Settings
end SearchPolling
