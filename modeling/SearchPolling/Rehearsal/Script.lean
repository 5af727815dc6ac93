import SearchPolling.Api.Handler
import SearchPolling.Polling.Engine

/-!
# Scripts

A rehearsal runs the service on a virtual clock, with a search service and a store
that follow a script.  This module holds what a script may say and what is reported of
each of its steps.
-/

namespace SearchPolling
namespace Rehearsal

open Polling (Engine Event Status Command Delivery InvalidInterval)

/-- The answer to a search. -/
abbrev SearchResult := Except Search.Failure Search.Response

/-- How a session is opened. -/
structure Options where
  stateKey : String
  defaultInterval : UInt64
  resultBuffer : Nat
  measured : Bool
  deriving DecidableEq, Repr

namespace Options

/-- How a session is opened unless something else is said. -/
def standard : Options :=
  ⟨Polling.standardStateKey, Polling.standardInterval, 64, true⟩

end Options

/-- One step of a script. -/
inductive Step where
  | command (c : Command)
  | getters
  /-- The clock jumps by so many milliseconds. -/
  | advance (milliseconds : Nat)
  /-- So many waiting queries are answered, each taken from the given place. -/
  | complete (result : SearchResult) (count place : Nat)
  | setManual (manual : Bool)
  | failLoad (fail : Bool)
  | failSave (fail : Bool)
  /-- So many more saves may take place. -/
  | grant (writes : Nat)
  | putRecord (key value : String)
  | record (key : String)
  | setQuery (query : String)
  | setRequest (text : String)
  | getRequest
  | subscribe (name : String)
  | unsubscribe (name : String)
  | receive (name : String) (most : Option Nat)
  /-- The handle of the session goes away. -/
  | drop
  | launch (options : Options)
  | metrics
  | http (r : Api.Request)

/-- A whole script. -/
structure Script where
  request : Search.Request
  options : Options
  manual : Bool
  replies : List SearchResult
  store : Store.Memory
  failLoad : Bool
  failSave : Bool
  /-- The number of saves that may take place, if they are held back at all. -/
  gate : Option Nat
  steps : List Step

/-- What a step gives. -/
inductive Answer where
  | nothing
  /-- The step waits for something that a later step may bring. -/
  | blocked
  | noSession
  | status (s : Status)
  | refused (e : InvalidInterval)
  | getters (s : Status)
  | flags (flags : List Bool)
  | text (text : Option String)
  | fault (f : Json.Fault)
  | request (r : Search.Request)
  | deliveries (entries : List (Delivery Event)) (closed : Bool)
  | noSubscriber
  | metrics (lines : List String)
  | response (r : Api.Response)

/-- An attempt to save a record. -/
structure Save where
  key : String
  value : String
  succeeded : Bool
  deriving DecidableEq, Repr

/-- What is reported of a step. -/
structure Report where
  answer : Answer
  /-- Answers of earlier steps that were blocked until now, in the order of the steps. -/
  unblocked : List (Nat × Answer)
  status : Option Status
  /-- The number of queries that have reached the search service. -/
  issued : Nat
  waiting : Nat
  requests : List Search.Request
  saves : List Save
  /-- What was published, by session. -/
  events : List (Nat × Delivery Event)
  notices : List Polling.Notice

end Rehearsal
end SearchPolling
