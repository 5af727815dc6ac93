import SearchPolling.Proofs.Resuming.Sequential

/-!
# Handles

A service is owned by those who have a handle of it; a call under way has one too.  It
outlives its owners while a query is on its way, for the task of a query needs it for the
answer, and until the task of a query that was answered has ended.  Commands need a
handle; a timer ticks as long as there is a service to tick.
-/

namespace SearchPolling
namespace Polling

/-- A service with all that keeps it alive. -/
structure Owned (κ : Type) where
  service : Service κ
  handles : Nat
  /-- The number of queries that have been answered but whose tasks have not ended. -/
  lingering : Nat

/-- What may happen to a service and to those who own it. -/
inductive Deed (κ : Type) where
  | act (a : Action κ)
  /-- An owner makes another handle. -/
  | clone
  /-- An owner gives up a handle. -/
  | drop
  /-- A query is answered, and its task does not end at once. -/
  | linger (place : Nat) (result : Except Search.Failure Search.Response)
  /-- The task of a query that was answered ends. -/
  | depart

def Deed.lingers {κ : Type} : Deed κ → Bool
  | .linger _ _ => true
  | _ => false

namespace Owned

variable {κ : Type}

/-- Whether somebody owns the service or has a call under way. -/
def isHeld (o : Owned κ) : Bool :=
  0 < o.handles || !o.service.idle

def isAlive (o : Owned κ) : Bool :=
  o.isHeld || !o.service.flights.isEmpty || 0 < o.lingering

/-- Whether an action can take place. -/
def permits (o : Owned κ) : Action κ → Bool
  | .command _ => 0 < o.handles
  | .subscribe _ => 0 < o.handles
  | .tick _ => o.isAlive
  | _ => true

/-- The action that takes place with a deed. -/
def action? (o : Owned κ) : Deed κ → Option (Action κ)
  | .act a => if o.permits a then some a else none
  | .linger place result => some (.answer place result)
  | _ => none

/-- The number of handles after a deed. -/
def handlesAfter (o : Owned κ) : Deed κ → Nat
  | .clone => if 0 < o.handles then o.handles + 1 else 0
  | .drop => o.handles - 1
  | _ => o.handles

/-- The number of lingering tasks after a deed. -/
def lingeringAfter (o : Owned κ) : Deed κ → Nat
  | .linger place _ => o.lingering + o.service.flights[place]?.toList.length
  | .depart => o.lingering - 1
  | _ => o.lingering

variable [DecidableEq κ]

def step (o : Owned κ) (d : Deed κ) : Owned κ where
  service := o.service.run (o.action? d).toList
  handles := o.handlesAfter d
  lingering := o.lingeringAfter d

def run (o : Owned κ) (ds : List (Deed κ)) : Owned κ :=
  ds.foldl step o

/-- The actions that take place in a run. -/
def actions (o : Owned κ) : List (Deed κ) → List (Action κ)
  | [] => []
  | d :: ds => (o.action? d).toList ++ (o.step d).actions ds

/-- The queries that are issued in a run. -/
def issued (o : Owned κ) (ds : List (Deed κ)) : List Flight :=
  Service.along (fun s a => (s.marks a).issued) o.service (o.actions ds)

/-- A service that has been launched, with one handle. -/
def launched (l : Launch) : Owned κ where
  service := l.run []
  handles := 1
  lingering := 0

/-- What happens to the service is what happens to it in a run of the actions that take
place. -/
theorem service_run (o : Owned κ) (ds : List (Deed κ)) :
    (o.run ds).service = o.service.run (o.actions ds) := by
  induction ds generalizing o with
  | nil => rfl
  | cons d ds ih =>
      have hrun : o.run (d :: ds) = (o.step d).run ds := rfl
      rw [hrun, ih, actions, Service.run_append]
      rfl

theorem service_launched (l : Launch) (ds : List (Deed κ)) :
    ((launched l).run ds).service = l.run ((launched l).actions ds) := by
  rw [service_run, ← List.nil_append ((launched l).actions ds), l.run_append]
  rfl

theorem issued_cons (o : Owned κ) (d : Deed κ) (ds : List (Deed κ)) :
    o.issued (d :: ds) = o.issued [d] ++ (o.step d).issued ds := by
  simp only [issued, actions, List.append_nil, Service.along_append]
  rfl

/-- What a deed issues, the action that takes place with it issues. -/
theorem issued_singleton (o : Owned κ) (d : Deed κ) :
    o.issued [d] = (o.action? d).toList.flatMap fun a => (o.service.marks a).issued := by
  simp only [issued, actions, List.append_nil]
  cases o.action? d with
  | none => rfl
  | some a => rfl

omit [DecidableEq κ] in
theorem isHeld_eq_false_iff {o : Owned κ} :
    o.isHeld = false ↔ o.handles = 0 ∧ o.service.idle = true := by
  simp [isHeld]

omit [DecidableEq κ] in
/-- Without an owner no command can be given. -/
theorem not_permits_command {o : Owned κ} (h : o.isHeld = false) (c : Command) :
    o.permits (.command c) = false := by
  rw [permits, (isHeld_eq_false_iff.mp h).1]
  rfl

end Owned
end Polling
end SearchPolling
