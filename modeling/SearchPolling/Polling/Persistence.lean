import SearchPolling.Polling.State

/-!
# Storing and restoring the record

Snapshots are written one at a time.  A snapshot is stale when a newer one has been
claimed for writing before it; it is then skipped.

A session begins with the stored record if it can be read and its interval can be
used, and with a record of its own otherwise.
-/

namespace SearchPolling
namespace Polling

open Json (Decoder)

/-- What those who write snapshots share: the number of the snapshot that was claimed
for writing last. -/
structure Writer where
  lastClaimed : Nat
  deriving DecidableEq, Repr

namespace Writer

/-- Nothing has been claimed for writing. -/
def initial : Writer :=
  ⟨0⟩

/-- Whether a newer snapshot has been claimed. -/
def isStale (w : Writer) (snapshot : Snapshot) : Bool :=
  snapshot.seq < w.lastClaimed

/-- Claims a snapshot for writing, unless it is stale. -/
def claim? (w : Writer) (snapshot : Snapshot) : Option Writer :=
  if w.isStale snapshot then none else some ⟨snapshot.seq⟩

end Writer

/-- The effects of skipping a stale snapshot. -/
def skippedEffects (snapshot : Snapshot) : List Effect :=
  [.note (.saveSkipped snapshot.seq)]

/-- The effects of an attempt to save a record. -/
def savedEffects (record : Record) (result : Except Store.Failure Unit) : List Effect :=
  match result with
  | .ok _ => [.measure (.storeOperation "save" true), .note (.saved record)]
  | .error e => [.measure (.storeOperation "save" false), .note (.saveFailed e)]

/-- The store after an attempt to save a record. -/
def storeAfter (m : Store.Memory) (key : String) (record : Record) :
    Except Store.Failure Unit → Store.Memory
  | .ok _ => m.save key record.render
  | .error _ => m

/-- What was found in the store at the start of a session. -/
inductive Restored where
  | found (record : Record)
  | absent
  | failed (e : Store.Failure)
  | unreadable (f : Json.Fault)
  | invalid (e : InvalidInterval)

namespace Restored

/-- Reads a stored record. -/
def ofText (text : String) : Restored :=
  match Record.decoder.ofString text with
  | .error f => .unreadable f
  | .ok record =>
    match record.check with
    | .error e => .invalid e
    | .ok _ => .found record

/-- What an attempt to load the record found. -/
def ofLoad : Except Store.Failure (Option String) → Restored
  | .error e => .failed e
  | .ok none => .absent
  | .ok (some text) => ofText text

/-- The record that the session begins with, if one was found. -/
def record? : Restored → Option Record
  | found record => some record
  | _ => none

/-- Whether polling goes on at once: the record that was found is active. -/
def isActive (r : Restored) : Bool :=
  r.record?.any (·.active)

/-- Whether the store answered. -/
def isAnswered : Restored → Bool
  | failed _ => false
  | _ => true

/-- The effects of what was found. -/
def effects (r : Restored) : List Effect :=
  .measure (.storeOperation "load" r.isAnswered) ::
    match r with
    | found _ => []
    | absent => []
    | failed e => [.note (.loadFailed e)]
    | unreadable f => [.note (.recordUnreadable f)]
    | invalid e => [.note (.recordInvalid e)]

end Restored

namespace State

/-- The state in which a session begins before anything is restored.  An interval that
cannot be used is replaced. -/
def opening (interval : UInt64) : Change :=
  let (told, interval) : List Effect × UInt64 :=
    match checkInterval interval with
    | .error e => ([.note (.intervalReplaced e)], standardInterval)
    | .ok _ => ([], interval)
  ⟨.initial interval, told ++
    [.measure (.active false), .measure (.suppressed false),
      .measure (.refreshInterval interval)]⟩

/-- Takes over a stored record; polling is started separately if the record is active. -/
def adopt (s : State) (record : Record) : Change :=
  (s.adoptInterval record.refreshInterval).also
    [.measure (.refreshInterval record.refreshInterval), .note (.restored record)]

end State
end Polling
end SearchPolling
