import SearchPolling.Json.Fault
import SearchPolling.Polling.Event
import SearchPolling.Polling.Record
import SearchPolling.Store

/-!
# Notices

What polling tells its operator in the course of its work, each with a level and a
line of text.
-/

namespace SearchPolling
namespace Polling

/-- How important a notice is. -/
inductive Level where
  | trace
  | debug
  | info
  | warn
  | error
  deriving DecidableEq, Repr

/-- What an operator is told. -/
inductive Notice where
  /-- The interval of a first session cannot be used. -/
  | intervalReplaced (e : InvalidInterval)
  | intervalRejected (e : InvalidInterval)
  | intervalSet (seconds : UInt64)
  | started (interval : UInt64)
  | stopped (persist : Bool)
  | suppressionSet (suppressed : Bool)
  | cycleDropped
  /-- So many queries of the cycle before will be ignored. -/
  | discarding (count : Nat)
  | tickSuppressed
  /-- The first tick that met an outstanding query. -/
  | congested (outstanding : Nat)
  | stillCongested
  | issuing (origin : Origin) (id : QueryId)
  | discarded (id : QueryId)
  | returned (id : QueryId) (total : UInt64) (elapsedMs : Nat)
  | failed (id : QueryId) (elapsedMs : Nat) (reason : String)
  | unheard
  | restored (record : Record)
  | loadFailed (e : Store.Failure)
  | recordUnreadable (f : Json.Fault)
  | recordInvalid (e : InvalidInterval)
  | saveSkipped (seq : Nat)
  | saved (record : Record)
  | saveFailed (e : Store.Failure)

namespace Level

def name : Level → String
  | trace => "TRACE"
  | debug => "DEBUG"
  | info => "INFO"
  | warn => "WARN"
  | error => "ERROR"

end Level

namespace Notice

/-- The text of a truth value. -/
def flag (b : Bool) : String :=
  if b then "true" else "false"

def digits (n : Nat) : String :=
  String.ofList (Decimal.natDigits n)

/-- The state that a record describes. -/
def describe (r : Record) : String :=
  "(active: " ++ flag r.active ++ ", interval: " ++ digits r.refreshInterval.toNat ++ "s)"

/-- How important a notice is. -/
def level : Notice → Level
  | intervalReplaced _ => .warn
  | intervalRejected _ => .warn
  | intervalSet _ => .info
  | started _ => .info
  | stopped _ => .info
  | suppressionSet _ => .debug
  | cycleDropped => .debug
  | discarding _ => .debug
  | tickSuppressed => .debug
  | congested _ => .warn
  | stillCongested => .debug
  | issuing _ _ => .debug
  | discarded _ => .debug
  | returned _ _ _ => .debug
  | failed _ _ _ => .error
  | unheard => .trace
  | restored _ => .info
  | loadFailed _ => .warn
  | recordUnreadable _ => .warn
  | recordInvalid _ => .warn
  | saveSkipped _ => .debug
  | saved _ => .debug
  | saveFailed _ => .warn

/-- The text of a notice, with queries called by the given names. -/
def message (name : QueryId → String) : Notice → String
  | intervalReplaced e =>
    e.message ++ ", using " ++ digits standardInterval.toNat ++ "s"
  | intervalRejected e => "Rejected refresh interval: " ++ e.message
  | intervalSet seconds => "Refresh interval set to " ++ digits seconds.toNat ++ "s"
  | started interval => "Polling started (interval: " ++ digits interval.toNat ++ "s)"
  | stopped persist => "Polling stopped (persist: " ++ flag persist ++ ")"
  | suppressionSet suppressed => "Polling suppression set to " ++ flag suppressed
  | cycleDropped => "Dropped current cycle, timer re-armed"
  | discarding count =>
    "Discarding " ++ digits count ++ " in-flight query from the previous cycle"
  | tickSuppressed => "Polling suppressed, tick dropped"
  | congested outstanding =>
    "Search backend congested (" ++ digits outstanding ++ " query outstanding), tick dropped"
  | stillCongested => "Still congested, tick dropped"
  | issuing origin id => "Issuing " ++ origin.name ++ " query " ++ name id
  | discarded id => "Query " ++ name id ++ " belongs to a discarded cycle, result dropped"
  | returned id total elapsedMs =>
    "Query " ++ name id ++ " returned " ++ digits total.toNat ++ " hits in " ++
      digits elapsedMs ++ "ms"
  | failed id elapsedMs reason =>
    "Query " ++ name id ++ " failed after " ++ digits elapsedMs ++ "ms: " ++ reason
  | unheard => "No subscribers for poll event"
  | restored record => "Restored polling state " ++ describe record
  | loadFailed e => "Failed to load polling state, using defaults: " ++ e.message
  | recordUnreadable f => "Ignoring unreadable polling state: " ++ f.message
  | recordInvalid e => "Ignoring invalid polling state: " ++ e.message
  | saveSkipped seq => "Skipping stale polling state write #" ++ digits seq
  | saved record => "Persisted polling state " ++ describe record
  | saveFailed e => "Failed to persist polling state: " ++ e.message

def line (name : QueryId → String) (n : Notice) : String :=
  n.level.name ++ " " ++ n.message name

end Notice
end Polling
end SearchPolling
