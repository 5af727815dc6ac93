import SearchPolling.Proofs.Service.Turn

/-!
# Runs from a launch

A service is launched with its settings and with what the store answers when it is
asked for the record.  It takes over the interval of the record that it found, if it
found one, and starts polling at once if that record is active.  From then on anything
may happen, in any order.

The records of a run begin with the launch, so that a query or a timer of the first
start counts like any other.
-/

namespace SearchPolling
namespace Polling

/-- How a service is launched. -/
structure Launch where
  stateKey : String
  interval : UInt64
  capacity : Nat
  measured : Bool
  world : Surroundings
  store : Store.Memory
  /-- What the store answers when it is asked for the record. -/
  loaded : Except Store.Failure (Option String)

/-- The first launch: standard settings, and a store that holds nothing. -/
def Launch.standard : Launch where
  stateKey := standardStateKey
  interval := standardInterval
  capacity := 64
  measured := true
  world := { now := 0, descriptor := .standard, registry := .fresh, notices := [], issued := 0 }
  store := .empty
  loaded := .ok none

/-- A view in which nothing has happened yet. -/
def View.fresh (issued : Nat) : View where
  active := false
  outstanding := 0
  cycle := 0
  timer := none
  generation := 0
  flights := []
  issued := issued
  running := []

namespace Launch

variable {κ : Type}

def found (l : Launch) : Restored :=
  .ofLoad l.loaded

def opening (l : Launch) : Engine.Placed κ :=
  Engine.opening l.stateKey l.interval l.capacity l.measured l.world

/-- The service that has taken over what was found, but has not started. -/
def opened (l : Launch) : Service κ where
  placed := Engine.adopt l.opening l.found
  store := l.store
  waiting := []
  writing := none

/-- What happens first: polling starts if the record that was found is active. -/
def first (l : Launch) : List (Action κ) :=
  if l.found.isActive then [.command .start] else []

def course (l : Launch) (as : List (Action κ)) : List (Action κ) :=
  l.first ++ as

theorem course_append (l : Launch) (as bs : List (Action κ)) :
    l.course (as ++ bs) = l.course as ++ bs :=
  (List.append_assoc _ _ _).symm

variable [DecidableEq κ]

/-- The service after a launch and actions, in their order. -/
def run (l : Launch) (as : List (Action κ)) : Service κ :=
  l.opened.run (l.course as)

def along {α : Type} (l : Launch) (f : Service κ → Action κ → List α)
    (as : List (Action κ)) : List α :=
  Service.along f l.opened (l.course as)

/-- The queries that have been issued, in their order. -/
def issued (l : Launch) (as : List (Action κ)) : List Flight :=
  l.along (fun s a => (s.marks a).issued) as

/-- The queries that have been answered, in the order of the answers. -/
def landed (l : Launch) (as : List (Action κ)) : List Flight :=
  l.along (fun s a => (s.marks a).landed) as

/-- The generations of the timers that were ever armed, in their order. -/
def armed (l : Launch) (as : List (Action κ)) : List UInt64 :=
  l.along (fun s a => (s.marks a).armed) as

/-- How many cycles have been opened after the first. -/
def resets (l : Launch) (as : List (Action κ)) : Nat :=
  Service.tally (fun s a => (s.marks a).resets) l.opened (l.course as)

/-- How often the timer has been disposed of. -/
def disposals (l : Launch) (as : List (Action κ)) : Nat :=
  Service.tally (fun s a => (s.marks a).disposes) l.opened (l.course as)

theorem run_append (l : Launch) (as bs : List (Action κ)) :
    l.run (as ++ bs) = (l.run as).run bs := by
  rw [run, run, course_append, Service.run_append]

theorem run_concat (l : Launch) (as : List (Action κ)) (a : Action κ) :
    l.run (as ++ [a]) = (l.run as).step a :=
  l.run_append as [a]

theorem along_append {α : Type} (l : Launch) (f : Service κ → Action κ → List α)
    (as bs : List (Action κ)) :
    l.along f (as ++ bs) = l.along f as ++ Service.along f (l.run as) bs := by
  rw [along, course_append, Service.along_append, along, run]

/-- What a run gives grows with every action by what the action gives. -/
theorem along_concat {α : Type} (l : Launch) (f : Service κ → Action κ → List α)
    (as : List (Action κ)) (a : Action κ) :
    l.along f (as ++ [a]) = l.along f as ++ f (l.run as) a := by
  rw [l.along_append, Service.along, Service.along, List.append_nil]

/-- Before anything happens a service is as a session that has been restored, with the
snapshot of its first start among those that wait. -/
theorem run_nil (l : Launch) :
    (l.run [] : Service κ) =
      ⟨(Engine.restore l.opening l.found).2, l.store,
        (Engine.restore (κ := κ) l.opening l.found).1.toList, none⟩ := by
  cases hactive : l.found.isActive with
  | true =>
      simp only [run, course, first, Engine.restore, hactive, if_true, List.append_nil]
      rfl
  | false =>
      simp only [run, course, first, Engine.restore, hactive, Bool.false_eq_true, if_false]
      rfl

omit [DecidableEq κ] in
theorem viewOf_carryOut (p : Engine.Placed κ) (c : Change)
    (hfoot : Footprint.of c.effects = .none) :
    Service.viewOf (Engine.carryOut p c) =
      Service.viewOf { p with engine.state := c.state } := by
  rw [Engine.carryOut, Service.viewOf_performAll, hfoot, View.leave_none]

omit [DecidableEq κ] in
/-- Nothing has happened to queries and timers when a service has been opened. -/
theorem view_opened (l : Launch) :
    (l.opened : Service κ).view = .fresh l.world.issued := by
  have hopening : Service.viewOf (l.opening : Engine.Placed κ) = .fresh l.world.issued := by
    rw [opening, Engine.opening, viewOf_carryOut]
    · rfl
    · simp only [State.opening]
      split <;> rfl
  have hfound (p : Engine.Placed κ) :
      Service.viewOf (Engine.performAll p l.found.effects) = Service.viewOf p := by
    rw [Service.viewOf_performAll]
    cases l.found <;> exact View.leave_none _ _
  simp only [opened, Engine.adopt]
  cases l.found.record? with
  | none => exact (hfound _).trans hopening
  | some record =>
      have hadopt (p : Engine.Placed κ) :
          Service.viewOf (Engine.carryOut p (p.engine.state.adopt record)) =
            Service.viewOf p := viewOf_carryOut p _ rfl
      exact (hadopt _).trans ((hfound _).trans hopening)

omit [DecidableEq κ] in
theorem timers_opened (l : Launch) : (l.opened : Service κ).timers = [] :=
  List.map_eq_nil_iff.mp (congrArg View.running l.view_opened)

end Launch
end Polling
end SearchPolling
