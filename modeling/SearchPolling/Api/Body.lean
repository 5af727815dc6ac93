import SearchPolling.Json.Record
import SearchPolling.Polling.Record

/-!
# Bodies of the control interface

What clients send to change the interval or the suppression or to stop polling,
and how an error is reported to them.
-/

namespace SearchPolling
namespace Api

open Json (Decoder Field Shape Mismatch)

/-- The wish for another interval. -/
structure IntervalChange where
  seconds : UInt64
  deriving DecidableEq, Repr

namespace IntervalChange

/-- An interval change has one member. -/
def shape : Shape (Option UInt64) IntervalChange where
  name := "SetIntervalRequest"
  fields := [.held "seconds" id (fun _ v => some v) .nat]
  empty := none
  complete d := (Json.required "seconds" d).map IntervalChange.mk

def decoder : Decoder IntervalChange :=
  shape.decoder

/-- Whether the interval lies between one second and one day. -/
def isValid (c : IntervalChange) : Bool :=
  1 ≤ c.seconds && c.seconds ≤ 86400

/-- What is reported of an interval out of range. -/
def refusal : String :=
  "seconds: Refresh interval must be between 1 second and 1 day"

end IntervalChange

/-- The wish to suppress queries, or to no longer suppress them. -/
structure SuppressionChange where
  suppressed : Bool
  deriving DecidableEq, Repr

namespace SuppressionChange

/-- A suppression change has one member. -/
def shape : Shape (Option Bool) SuppressionChange where
  name := "SetSuppressionRequest"
  fields := [.held "suppressed" id (fun _ v => some v) .bool]
  empty := none
  complete d := (Json.required "suppressed" d).map SuppressionChange.mk

def decoder : Decoder SuppressionChange :=
  shape.decoder

end SuppressionChange

/-- How polling is to be stopped. -/
structure StopParams where
  /-- Whether the stop is stored, so that polling does not resume in the next session. -/
  persist : Bool
  deriving DecidableEq, Repr

namespace StopParams

/-- A stop is stored unless something else is asked for. -/
def shape : Shape (Option Bool) StopParams where
  name := "StopParams"
  fields := [(Field.held "persist" id (fun _ v => some v) .bool).orAbsent]
  empty := none
  complete d := .ok ⟨d.getD true⟩

/-- Decodes stop parameters. -/
def decoder : Decoder StopParams :=
  shape.decoder

end StopParams

/-- The report of an error. -/
structure ErrorReport where
  error : String
  message : Option String
  deriving DecidableEq, Repr

namespace ErrorReport

/-- An error report in JSON, without the message if there is none. -/
def toJson (r : ErrorReport) : Json :=
  .object (("error", .string r.error) ::
    match r.message with
    | none => []
    | some m => [("message", .string m)])

/-- The fields of an error report that have been read. -/
structure Draft where
  error : Option String
  message : Option (Option String)

/-- The message may be missing from an object, but not from a list. -/
def shape : Shape Draft ErrorReport where
  name := "ErrorResponse"
  fields := [
    .held "error" Draft.error (fun d v => { d with error := some v }) .string,
    .held "message" Draft.message (fun d v => { d with message := some v })
      (.nullable .string)]
  empty := ⟨none, none⟩
  complete d := do
    let error ← Json.required "error" d.error
    return ⟨error, d.message.getD none⟩

def decoder : Decoder ErrorReport :=
  shape.decoder

end ErrorReport
end Api
end SearchPolling
