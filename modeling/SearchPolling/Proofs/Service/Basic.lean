import Mathlib.Algebra.Group.Nat.Defs
import SearchPolling.Polling.Engine

/-!
# The polling service

A service is a session in its surroundings, the store it writes to, and the snapshots
on their way there.  Whatever may happen to it is an action: a command, a tick of any
timer that was ever armed, the answer to any query on its way, the turn of any caller
to write, the end of a save, and what the outside does.  Actions come in any order; one
that cannot happen leaves the service as it is.

The module fixes the vocabulary of runs: what a run leads to, what its effects are, and
what it has issued, answered and armed so far.
-/

namespace SearchPolling
namespace Polling

/-- What may happen to a service. -/
inductive Action (κ : Type) where
  | command (c : Command)
  /-- The timer of a generation ticks, be it obsolete or not. -/
  | tick (generation : UInt64)
  /-- The query at a place among those on their way is answered. -/
  | answer (place : Nat) (result : Except Search.Failure Search.Response)
  /-- The snapshot at a place among those that wait gets its turn to be written. -/
  | claim (place : Nat)
  /-- The save under way ends. -/
  | save (result : Except Store.Failure Unit)
  /-- The caller at a place among those who wait for their turn goes away. -/
  | abandon (place : Nat)
  /-- The caller who saves goes away before the store has taken the record. -/
  | interrupt
  | elapse (milliseconds : Nat)
  | describe (u : Search.Update)
  | subscribe (name : κ)
  | unsubscribe (name : κ)
  | receive (name : κ) (most : Option Nat)

/-- A session at work. -/
structure Service (κ : Type) where
  placed : Engine.Placed κ
  store : Store.Memory
  /-- The snapshots of the callers who wait for their turn to write. -/
  waiting : List Snapshot
  /-- The snapshot that is being written. -/
  writing : Option Snapshot

namespace Service

variable {κ : Type}

abbrev state (s : Service κ) : State :=
  s.placed.engine.state

abbrev world (s : Service κ) : Surroundings :=
  s.placed.world

/-- The queries on their way, the oldest first. -/
abbrev flights (s : Service κ) : List Flight :=
  s.placed.engine.flights

/-- The timers whose loops go on. -/
abbrev timers (s : Service κ) : List Timer :=
  s.placed.engine.timers

abbrev sink (s : Service κ) : Sink κ Event :=
  s.placed.engine.sink

def withSink (s : Service κ) (sink : Sink κ Event) : Service κ :=
  { s with placed.engine.sink := sink }

def withWorld (s : Service κ) (w : Surroundings) : Service κ :=
  { s with placed.world := w }

/-! ## Steps -/

/-- The snapshots that the outcome of a command leaves to be stored. -/
def snapshotsOf : Except InvalidInterval (Option Snapshot) → List Snapshot
  | .ok (some snapshot) => [snapshot]
  | _ => []

/-- The service after a command, with its snapshot among those that wait. -/
def obey (s : Service κ) (c : Command) : Service κ :=
  let (result, p) := Engine.command s.placed c
  { s with placed := p, waiting := s.waiting ++ snapshotsOf result }

/-- The service after an answer to the query at a place. -/
def takeAnswer (s : Service κ) (place : Nat) (result : Except Search.Failure Search.Response) :
    Service κ :=
  match s.flights[place]? with
  | none => s
  | some f => { s with placed := Engine.answer s.placed f result }

/-- The service after the caller at a place got its turn, which it gets only while
nobody writes.  A stale snapshot is skipped, and its caller returns. -/
def takeTurn (s : Service κ) (place : Nat) : Service κ :=
  match s.writing, s.waiting[place]? with
  | none, some snapshot =>
    let (claimed, p) := Engine.claim s.placed snapshot
    { s with
      placed := p
      waiting := s.waiting.eraseIdx place
      writing := if claimed then some snapshot else none }
  | _, _ => s

/-- The service after the end of the save under way, upon which its caller returns. -/
def endSave (s : Service κ) (result : Except Store.Failure Unit) : Service κ :=
  match s.writing with
  | none => s
  | some snapshot =>
    { s with
      placed := Engine.noteSaved s.placed snapshot.record result
      store := storeAfter s.store s.placed.engine.stateKey snapshot.record result
      writing := none }

variable [DecidableEq κ]

def step (s : Service κ) : Action κ → Service κ
  | .command c => s.obey c
  | .tick generation => { s with placed := Engine.tick s.placed generation }
  | .answer place result => s.takeAnswer place result
  | .claim place => s.takeTurn place
  | .save result => s.endSave result
  | .abandon place => { s with waiting := s.waiting.eraseIdx place }
  | .interrupt => { s with writing := none }
  | .elapse ms => s.withWorld { s.world with now := s.world.now + ms }
  | .describe u => s.withWorld { s.world with descriptor := s.world.descriptor.apply u }
  | .subscribe name => s.withSink (s.sink.subscribe name)
  | .unsubscribe name => s.withSink (s.sink.unsubscribe name)
  | .receive name most =>
    match s.sink.receive name most with
    | none => s
    | some (_, sink) => s.withSink sink

/-- The service after actions, in their order. -/
def run (s : Service κ) (as : List (Action κ)) : Service κ :=
  as.foldl step s

/-- The effects of an action, in their order. -/
def effects (s : Service κ) : Action κ → List Effect
  | .command c =>
    match c.call s.state with
    | .error e => [.note (.intervalRejected e)]
    | .ok call => call.effects
  | .tick generation =>
    match s.state.tick generation with
    | none => [.disarm generation]
    | some c => c.effects
  | .answer place result =>
    match s.flights[place]? with
    | none => []
    | some f =>
      (s.state.retire f.cycle).effects ++
        Engine.answerEffects (s.state.isCurrent f.cycle) f s.world.now result
  | .claim place =>
    match s.writing, s.waiting[place]? with
    | none, some snapshot =>
      if s.placed.engine.writer.isStale snapshot then skippedEffects snapshot else []
    | _, _ => []
  | .save result =>
    match s.writing with
    | none => []
    | some snapshot => savedEffects snapshot.record result
  | _ => []

/-! ## Records of a run -/

/-- What the actions of a run give, in their order, each at the service that it meets. -/
def along {α : Type} (f : Service κ → Action κ → List α) (s : Service κ) :
    List (Action κ) → List α
  | [] => []
  | a :: as => f s a ++ along f (s.step a) as

/-- How many actions of a run are of a kind, each at the service that it meets. -/
def tally (p : Service κ → Action κ → Bool) (s : Service κ) : List (Action κ) → Nat
  | [] => 0
  | a :: as => (if p s a then 1 else 0) + tally p (s.step a) as

@[simp] theorem run_nil (s : Service κ) : s.run [] = s := rfl

@[simp] theorem run_cons (s : Service κ) (a : Action κ) (as : List (Action κ)) :
    s.run (a :: as) = (s.step a).run as := rfl

theorem run_append (s : Service κ) (as bs : List (Action κ)) :
    s.run (as ++ bs) = (s.run as).run bs :=
  List.foldl_append

theorem run_concat (s : Service κ) (as : List (Action κ)) (a : Action κ) :
    s.run (as ++ [a]) = (s.run as).step a :=
  s.run_append as [a]

theorem along_append {α : Type} (f : Service κ → Action κ → List α) (s : Service κ)
    (as bs : List (Action κ)) :
    along f s (as ++ bs) = along f s as ++ along f (s.run as) bs := by
  induction as generalizing s with
  | nil => rfl
  | cons a as ih => simp [along, ih]

/-- What a run gives, one of its actions gave. -/
theorem mem_along {α : Type} {f : Service κ → Action κ → List α} {s : Service κ}
    {as : List (Action κ)} {x : α} (h : x ∈ along f s as) :
    ∃ before a after, as = before ++ a :: after ∧ x ∈ f (s.run before) a := by
  induction as generalizing s with
  | nil => cases h
  | cons a as ih =>
      rcases List.mem_append.mp h with hnow | hlater
      · exact ⟨[], a, as, rfl, hnow⟩
      · obtain ⟨before, b, after, has, hx⟩ := ih hlater
        exact ⟨a :: before, b, after, by rw [has, List.cons_append], hx⟩

theorem along_map {α β : Type} (f : Service κ → Action κ → List α) (g : α → β)
    (s : Service κ) (as : List (Action κ)) :
    (along f s as).map g = along (fun s a => (f s a).map g) s as := by
  induction as generalizing s with
  | nil => rfl
  | cons a as ih => simp [along, ih]

theorem along_flatMap {α β : Type} (f : Service κ → Action κ → List α) (g : α → List β)
    (s : Service κ) (as : List (Action κ)) :
    (along f s as).flatMap g = along (fun s a => (f s a).flatMap g) s as := by
  induction as generalizing s with
  | nil => rfl
  | cons a as ih => simp [along, ih]

/-- What every step preserves holds after every run. -/
theorem run_preserves {P : Service κ → Prop} (hstep : ∀ s a, P s → P (s.step a))
    {s : Service κ} (h : P s) (as : List (Action κ)) : P (s.run as) := by
  induction as generalizing s with
  | nil => exact h
  | cons a as ih => exact ih (hstep s a h)

/-- A number of 64 bits that does not come round goes up as a natural number does. -/
theorem toNat_advance {n : UInt64} {b : Bool}
    (h : n.toNat + (if b then 1 else 0) < 2 ^ 64) :
    (n + if b then 1 else 0).toNat = n.toNat + if b then 1 else 0 := by
  cases b with
  | false => simp
  | true =>
      rw [UInt64.toNat_add]
      exact Nat.mod_eq_of_lt h

/-- What every step preserves while a number of 64 bits has not come round holds after
every run in which it does not come round.  The number goes up by one with the actions
of a kind, and what is preserved may depend on what the run has given so far. -/
theorem run_preserves_bounded {α : Type} {P : Service κ → List α → Prop}
    {g : Service κ → Action κ → List α} {n : Service κ → UInt64}
    {b : Service κ → Action κ → Bool}
    (hnext : ∀ s a, n (s.step a) = n s + if b s a then 1 else 0)
    (hstep : ∀ s a l, P s l → (b s a = true → (n s).toNat + 1 < 2 ^ 64) →
      P (s.step a) (l ++ g s a))
    {s : Service κ} {l : List α} (h : P s l) (as : List (Action κ))
    (hbound : (n s).toNat + tally b s as < 2 ^ 64) : P (s.run as) (l ++ along g s as) := by
  induction as generalizing s l with
  | nil => simpa [along] using h
  | cons a as ih =>
      -- The bound covers the actions still to come, so each step uses up its own.
      simp only [tally] at hbound
      have hnow : P (s.step a) (l ++ g s a) := by
        refine hstep s a l h (fun hkind => ?_)
        rw [if_pos hkind] at hbound
        omega
      have hlater : (n (s.step a)).toNat + tally b (s.step a) as < 2 ^ 64 := by
        rw [hnext, toNat_advance (by omega)]
        omega
      simpa [along] using ih hnow hlater

end Service
end Polling
end SearchPolling
