import SearchPolling.Json.Record

/-!
# The polling record

Whether polling is active and how many seconds lie between two queries: the part of
the state that outlives a session.  An interval lies between one second and one day.
-/

namespace SearchPolling
namespace Polling

open Json (Decoder Shape Field)

/-- The interval used unless another one is configured, in seconds. -/
def standardInterval : UInt64 := 10

/-- The longest interval: one day, in seconds. -/
def longestInterval : UInt64 := 86400

/-- The name under which the record is stored unless another one is configured. -/
def standardStateKey : String := "autoPolling"

/-- An interval that cannot be used, in seconds. -/
structure InvalidInterval where
  seconds : UInt64
  deriving DecidableEq, Repr

namespace InvalidInterval

def message (e : InvalidInterval) : String :=
  "Refresh interval must be between 1 and " ++
    String.ofList (Decimal.natDigits longestInterval.toNat) ++ " seconds, got " ++
    String.ofList (Decimal.natDigits e.seconds.toNat)

end InvalidInterval

/-- Checks an interval. -/
def checkInterval (seconds : UInt64) : Except InvalidInterval Unit :=
  if seconds = 0 ∨ longestInterval < seconds then .error ⟨seconds⟩ else .ok ()

/-- The state of polling that is stored. -/
structure Record where
  active : Bool
  refreshInterval : UInt64
  deriving DecidableEq, Repr

namespace Record

/-- The record of a first session. -/
def standard : Record :=
  ⟨false, standardInterval⟩

instance : Inhabited Record := ⟨standard⟩

/-- Checks the interval of a record. -/
def check (r : Record) : Except InvalidInterval Unit :=
  checkInterval r.refreshInterval

def toJson (r : Record) : Json :=
  .object [("active", .bool r.active), ("refreshInterval", Json.nat r.refreshInterval)]

/-- The fields of a record that have been read. -/
structure Draft where
  active : Option Bool
  refreshInterval : Option UInt64

/-- A record has two members; the first has a second name in older records. -/
def shape : Shape Draft Record where
  name := "PollingConfig"
  fields := [
    (Field.held "active" Draft.active (fun d v => { d with active := some v }) .bool).orNamed
      "isActive",
    .held "refreshInterval" Draft.refreshInterval
      (fun d v => { d with refreshInterval := some v }) .nat]
  empty := ⟨none, none⟩
  complete d := do
    let active ← Json.required "active" d.active
    let interval ← Json.required "refreshInterval" d.refreshInterval
    return ⟨active, interval⟩

def decoder : Decoder Record :=
  shape.decoder

def render (r : Record) : String :=
  r.toJson.render

end Record

/-- What an observer is told about polling. -/
structure Status where
  active : Bool
  refreshInterval : UInt64
  /-- A query of the current cycle is outstanding. -/
  pending : Bool
  /-- A query was outstanding at the last tick. -/
  congested : Bool
  /-- Ticks issue no queries. -/
  suppressed : Bool
  deriving DecidableEq, Repr

namespace Status

def toJson (s : Status) : Json :=
  .object [
    ("active", .bool s.active),
    ("refreshInterval", Json.nat s.refreshInterval),
    ("pending", .bool s.pending),
    ("congested", .bool s.congested),
    ("suppressed", .bool s.suppressed)]

/-- The fields of a status that have been read. -/
structure Draft where
  active : Option Bool
  refreshInterval : Option UInt64
  pending : Option Bool
  congested : Option Bool
  suppressed : Option Bool

/-- No member of a status may be missing. -/
def shape : Shape Draft Status where
  name := "PollingStatus"
  fields := [
    .held "active" Draft.active (fun d v => { d with active := some v }) .bool,
    .held "refreshInterval" Draft.refreshInterval
      (fun d v => { d with refreshInterval := some v }) .nat,
    .held "pending" Draft.pending (fun d v => { d with pending := some v }) .bool,
    .held "congested" Draft.congested (fun d v => { d with congested := some v }) .bool,
    .held "suppressed" Draft.suppressed (fun d v => { d with suppressed := some v }) .bool]
  empty := ⟨none, none, none, none, none⟩
  complete d := do
    let active ← Json.required "active" d.active
    let interval ← Json.required "refreshInterval" d.refreshInterval
    let pending ← Json.required "pending" d.pending
    let congested ← Json.required "congested" d.congested
    let suppressed ← Json.required "suppressed" d.suppressed
    return ⟨active, interval, pending, congested, suppressed⟩

def decoder : Decoder Status :=
  shape.decoder

end Status
end Polling
end SearchPolling
