import SearchPolling.Proofs.Keeping.Connections

/-!
# Calls that overlap

A call takes a connection from the slot or opens one, sends its command and waits; if an error
comes back it empties the slot.  Only the first and the last of these steps have the slot to
themselves, and calls of other clones may go on between them.

A call that fails empties the slot of whatever is in it.  This is the connection on which its
command failed just if no other call has emptied the slot since the connection was taken; else
the slot is empty or holds a connection that was opened since, on which nothing need have
failed.  Either way a failure costs one connection at most.
-/

namespace SearchPolling
namespace Redis
namespace StateStore

/-- A call whose command has been sent. -/
structure Ticket where
  /-- Calls are numbered in the order in which they begin. -/
  number : Nat
  /-- The connection on which the command was sent. -/
  connection : Nat
  command : Command
  deriving DecidableEq, Repr

/-- A store on a server, in the hands of calls that overlap. -/
structure Switchboard where
  clones : Nat
  slot : Slot
  /-- The number of calls that have begun. -/
  begun : Nat
  /-- The calls that wait for a reply. -/
  waiting : List Ticket
  /-- The calls that got an error and have not emptied the slot yet. -/
  failed : List Ticket
  deriving DecidableEq, Repr

/-- A step of one of the calls. -/
inductive Move where
  | clone (on : Nat)
  /-- A call through the clone of a number begins, when the server can be reached or not. -/
  | begin (on : Nat) (r : Request) (reachable : Bool)
  /-- One of the calls that wait gets its reply, or learns that the connection is closed. -/
  | reply (i : Nat) (bytes : Option (List UInt8))
  /-- One of the calls that failed empties the slot. -/
  | clear (i : Nat)
  deriving DecidableEq, Repr

/-- What can be told of a step afterwards. -/
inductive Mark where
  /-- A call found no connection and could not open one. -/
  | unreachable (call : Nat)
  /-- A call took the connection in the slot, or one that it opened. -/
  | took (call connection : Nat) (opened : Bool)
  | succeeded (call connection : Nat)
  | failed (call connection : Nat)
  /-- A call that failed on its own connection emptied the slot of what was in it. -/
  | cleared (call own : Nat) (removed : Option Nat)
  deriving DecidableEq, Repr

namespace Switchboard

/-- A store before the first call. -/
def idle : Switchboard :=
  ⟨1, .initial, 0, [], []⟩

/-- Makes a step, if there is one to make. -/
def step (x : Switchboard) : Move → List Mark × Switchboard
  | .clone on => ([], if on < x.clones then { x with clones := x.clones + 1 } else x)
  | .begin on r reachable =>
    if on < x.clones then
      match x.slot.take reachable with
      | (none, slot) => ([.unreachable x.begun], { x with slot, begun := x.begun + 1 })
      | (some n, slot) =>
        ([.took x.begun n x.slot.cached.isNone],
          { x with slot, begun := x.begun + 1
                   waiting := x.waiting ++ [⟨x.begun, n, r.command⟩] })
    else ([], x)
  | .reply i bytes =>
    match x.waiting[i]? with
    | none => ([], x)
    | some t =>
      if (t.command.result bytes).isOk then
        ([.succeeded t.number t.connection], { x with waiting := x.waiting.eraseIdx i })
      else
        ([.failed t.number t.connection],
          { x with waiting := x.waiting.eraseIdx i, failed := x.failed ++ [t] })
  | .clear i =>
    match x.failed[i]? with
    | none => ([], x)
    | some t =>
      ([.cleared t.number t.connection x.slot.cached],
        { x with slot := x.slot.clear, failed := x.failed.eraseIdx i })

/-- Makes steps one after another; gives what can be told of them. -/
def run (x : Switchboard) : List Move → List Mark × Switchboard
  | [] => ([], x)
  | m :: ms =>
    let (marks, y) := x.step m
    let (log, z) := y.run ms
    (marks ++ log, z)

/-- The ways in which a step can go. -/
inductive Turn (x : Switchboard) : List Mark → Switchboard → Prop where
  | quiet (clones : Nat) : Turn x [] { x with clones }
  | unreachable (hcached : x.slot.cached = none) :
    Turn x [.unreachable x.begun] { x with begun := x.begun + 1 }
  | joined {n : Nat} (hcached : x.slot.cached = some n) (c : Command) :
    Turn x [.took x.begun n false]
      { x with begun := x.begun + 1, waiting := x.waiting ++ [⟨x.begun, n, c⟩] }
  | opened (hcached : x.slot.cached = none) (c : Command) :
    Turn x [.took x.begun x.slot.opened true]
      { x with slot := ⟨some x.slot.opened, x.slot.opened + 1⟩, begun := x.begun + 1
               waiting := x.waiting ++ [⟨x.begun, x.slot.opened, c⟩] }
  | succeeded {i : Nat} {t : Ticket} (ht : x.waiting[i]? = some t) :
    Turn x [.succeeded t.number t.connection] { x with waiting := x.waiting.eraseIdx i }
  | failed {i : Nat} {t : Ticket} (ht : x.waiting[i]? = some t) :
    Turn x [.failed t.number t.connection]
      { x with waiting := x.waiting.eraseIdx i, failed := x.failed ++ [t] }
  | cleared {i : Nat} {t : Ticket} (ht : x.failed[i]? = some t) :
    Turn x [.cleared t.number t.connection x.slot.cached]
      { x with slot := x.slot.clear, failed := x.failed.eraseIdx i }

theorem turn_step (x : Switchboard) (m : Move) : x.Turn (x.step m).1 (x.step m).2 := by
  cases m with
  | clone on =>
      rw [step]
      split
      · exact .quiet _
      · exact .quiet _
  | begin on r reachable =>
      rw [step]
      split
      · cases hcached : x.slot.cached with
        | some n =>
            simp only [Slot.take_of_cached hcached, Option.isNone_some]
            exact .joined hcached r.command
        | none =>
            cases reachable with
            | false =>
                simp only [Slot.take, hcached]
                exact .unreachable hcached
            | true =>
                simp only [Slot.take, hcached]
                exact .opened hcached r.command
      · exact .quiet _
  | reply i bytes =>
      rw [step]
      split
      · exact .quiet _
      · rename_i t ht
        split
        · exact .succeeded ht
        · exact .failed ht
  | clear i =>
      rw [step]
      split
      · exact .quiet _
      · rename_i t ht
        exact .cleared ht

/-- A call is under way that was so before, or it has just taken a connection. -/
theorem Turn.ticket {x y : Switchboard} {marks : List Mark} (h : x.Turn marks y) {t : Ticket}
    (ht : t ∈ y.waiting ∨ t ∈ y.failed) :
    ((t ∈ x.waiting ∨ t ∈ x.failed) ∧
      (t ∈ y.failed → t ∈ x.failed ∨ .failed t.number t.connection ∈ marks)) ∨
    (t.number = x.begun ∧ y.begun = x.begun + 1 ∧ y.failed = x.failed ∧
      y.slot.cached = some t.connection ∧
      ∃ opened, marks = [.took t.number t.connection opened]) := by
  cases h with
  | quiet clones => exact .inl ⟨ht, .inl⟩
  | unreachable hcached => exact .inl ⟨ht, .inl⟩
  | joined hcached c =>
      rcases ht with ht | ht
      · rcases List.mem_append.mp ht with ht | ht
        · exact .inl ⟨.inl ht, .inl⟩
        · obtain rfl := List.mem_singleton.mp ht
          exact .inr ⟨rfl, rfl, rfl, hcached, false, rfl⟩
      · exact .inl ⟨.inr ht, .inl⟩
  | opened hcached c =>
      rcases ht with ht | ht
      · rcases List.mem_append.mp ht with ht | ht
        · exact .inl ⟨.inl ht, .inl⟩
        · obtain rfl := List.mem_singleton.mp ht
          exact .inr ⟨rfl, rfl, rfl, rfl, true, rfl⟩
      · exact .inl ⟨.inr ht, .inl⟩
  | succeeded hreplied =>
      refine .inl ⟨?_, .inl⟩
      exact ht.imp_left List.mem_of_mem_eraseIdx
  | @failed i failing hreplied =>
      have hfailing : t ∈ x.failed ++ [failing] → t ∈ x.failed ∨ t = failing := by
        intro ht
        simpa using ht
      refine .inl ⟨?_, ?_⟩
      · rcases ht with ht | ht
        · exact .inl (List.mem_of_mem_eraseIdx ht)
        · rcases hfailing ht with ht | rfl
          · exact .inr ht
          · exact .inl (List.mem_of_getElem? hreplied)
      · intro ht
        rcases hfailing ht with ht | rfl
        · exact .inl ht
        · exact .inr (List.mem_singleton_self _)
  | cleared hcleared =>
      refine .inl ⟨?_, fun ht => .inl (List.mem_of_mem_eraseIdx ht)⟩
      exact ht.imp_right List.mem_of_mem_eraseIdx

/-- Only a call that has failed empties the slot. -/
theorem Turn.ticket_of_cleared {x y : Switchboard} {call own : Nat} {removed : Option Nat}
    (h : x.Turn [.cleared call own removed] y) :
    ∃ t ∈ x.failed, call = t.number ∧ own = t.connection ∧ removed = x.slot.cached := by
  cases h with
  | cleared ht => exact ⟨_, List.mem_of_getElem? ht, rfl, rfl, rfl⟩

theorem Turn.begun_le {x y : Switchboard} {marks : List Mark} (h : x.Turn marks y) :
    x.begun ≤ y.begun := by
  cases h with
  | unreachable | joined | opened => exact Nat.le_succ _
  | _ => exact Nat.le_refl _

/-- A call with nothing else under way goes as the call of a network does. -/
theorem run_of_goes {r : Request} {slot slot' : Slot} {call : Call} {es : List Network.Event}
    (h : Network.Goes r.command slot call slot' es) (begun : Nat) :
    ∃ moves log, run ⟨1, slot, begun, [], []⟩ moves = (log, ⟨1, slot', begun + 1, [], []⟩) ∧
      ∀ n, call.connection = some n ↔ ∃ opened, .took begun n opened ∈ log := by
  cases h with
  | nowhere hcached =>
      refine ⟨[.begin 0 r false], [.unreachable begun], ?_, by simp⟩
      simp [run, step, Slot.take, hcached]
  | onCached n hcached reply =>
      cases hok : (r.command.result reply).isOk with
      | true =>
          refine ⟨[.begin 0 r true, .reply 0 reply], [.took begun n false, .succeeded begun n], ?_,
            by simp [eq_comm]⟩
          simp [run, step, hcached, hok]
      | false =>
          refine ⟨[.begin 0 r true, .reply 0 reply, .clear 0],
            [.took begun n false, .failed begun n, .cleared begun n (some n)], ?_,
            by simp [eq_comm]⟩
          simp [run, step, hcached, hok, Slot.settle]
  | onOpened hcached reply =>
      cases hok : (r.command.result reply).isOk with
      | true =>
          refine ⟨[.begin 0 r true, .reply 0 reply],
            [.took begun slot.opened true, .succeeded begun slot.opened], ?_, by simp [eq_comm]⟩
          simp [run, step, Slot.take, hcached, hok]
      | false =>
          refine ⟨[.begin 0 r true, .reply 0 reply, .clear 0],
            [.took begun slot.opened true, .failed begun slot.opened,
              .cleared begun slot.opened (some slot.opened)], ?_, by simp [eq_comm]⟩
          simp [run, step, Slot.take, hcached, hok, Slot.settle]

end Switchboard

/-! ## Since a connection was taken -/

namespace Mark

def isOpening : Mark → Bool
  | took _ _ opened => opened
  | _ => false

def isFailure : Mark → Bool
  | failed _ _ => true
  | _ => false

def isClearing : Mark → Bool
  | cleared _ _ _ => true
  | _ => false

end Mark

/-- No call has emptied the slot. -/
def Undisturbed (since : List Mark) : Prop :=
  ∀ mark ∈ since, mark.isClearing = false

instance (since : List Mark) : Decidable (Undisturbed since) :=
  List.decidableBAll (fun mark : Mark => mark.isClearing = false) since

@[simp] theorem undisturbed_nil : Undisturbed [] :=
  nofun

@[simp] theorem undisturbed_append {marks more : List Mark} :
    Undisturbed (marks ++ more) ↔ Undisturbed marks ∧ Undisturbed more :=
  List.forall_mem_append

@[simp] theorem undisturbed_singleton {mark : Mark} :
    Undisturbed [mark] ↔ mark.isClearing = false :=
  List.forall_mem_singleton

/-- The slot, when a call has not emptied it yet that took its connection so long ago. -/
inductive Since (t : Ticket) (since : List Mark) (slot : Slot) : Prop where
  /-- It holds the connection still. -/
  | kept (h : Undisturbed since) (hcached : slot.cached = some t.connection)
  /-- It is empty, or holds a connection that a later call has opened. -/
  | lost (h : ¬Undisturbed since) (hlt : t.connection < slot.opened)
    (hnewer : ∀ n, slot.cached = some n → t.connection < n ∧ ∃ first other rest,
      since = first ++ .took other n true :: rest ∧ t.number < other ∧
        ¬Undisturbed first ∧ Undisturbed rest)

namespace Since

variable {t : Ticket} {since marks : List Mark} {slot : Slot}

/-- Nothing changes while the slot is left alone. -/
theorem append (h : Since t since slot) (hmarks : Undisturbed marks) :
    Since t (since ++ marks) slot := by
  cases h with
  | kept h hcached => exact .kept (undisturbed_append.mpr ⟨h, hmarks⟩) hcached
  | lost h hlt hnewer =>
      refine .lost (fun hall => h (undisturbed_append.mp hall).1) hlt ?_
      intro n hn
      obtain ⟨hless, first, other, rest, rfl, hother, hfirst, hrest⟩ := hnewer n hn
      refine ⟨hless, first, other, rest ++ marks, ?_, hother, hfirst,
        undisturbed_append.mpr ⟨hrest, hmarks⟩⟩
      rw [List.append_assoc, List.cons_append]

theorem turn {x y : Switchboard} (h : Since t since x.slot) (hturn : x.Turn marks y)
    (hcached : ∀ n, x.slot.cached = some n → n < x.slot.opened) (hnumber : t.number < x.begun) :
    Since t (since ++ marks) y.slot := by
  cases hturn with
  | quiet clones => exact h.append undisturbed_nil
  | unreachable => exact h.append (by simp [Mark.isClearing])
  | joined => exact h.append (by simp [Mark.isClearing])
  | succeeded => exact h.append (by simp [Mark.isClearing])
  | failed => exact h.append (by simp [Mark.isClearing])
  | opened hnone c =>
      cases h with
      | kept h hsome =>
          rw [hnone] at hsome
          cases hsome
      | lost h hlt hnewer =>
          refine .lost (fun hall => h (undisturbed_append.mp hall).1) (Nat.lt_succ_of_lt hlt) ?_
          intro n hn
          obtain rfl := Option.some.inj hn
          exact ⟨hlt, since, x.begun, [], rfl, hnumber, h, undisturbed_nil⟩
  | @cleared i failing ht =>
      have hdisturbed : ¬Undisturbed
          (since ++ [.cleared failing.number failing.connection x.slot.cached]) := by
        simp [Mark.isClearing]
      refine .lost hdisturbed ?_ nofun
      cases h with
      | kept h hsome => exact hcached _ hsome
      | lost h hlt hnewer => exact hlt

/-- The slot holds the connection of the call just if nobody has emptied it. -/
theorem cached_iff (h : Since t since slot) :
    slot.cached = some t.connection ↔ Undisturbed since := by
  cases h with
  | kept h hcached => exact iff_of_true hcached h
  | lost h hlt hnewer =>
      refine iff_of_false ?_ h
      intro hcached
      exact Nat.lt_irrefl _ (hnewer _ hcached).1

end Since

/-! ## The log of a run -/

/-- What is in a log since a call took its connection. -/
def TakenSince (log : List Mark) (t : Ticket) (since : List Mark) : Prop :=
  ∃ earlier opened, log = earlier ++ .took t.number t.connection opened :: since

theorem TakenSince.append {log since : List Mark} {t : Ticket} (h : TakenSince log t since)
    (marks : List Mark) : TakenSince (log ++ marks) t (since ++ marks) := by
  obtain ⟨earlier, opened, rfl⟩ := h
  exact ⟨earlier, opened, by rw [List.append_assoc, List.cons_append]⟩

/-- What a log tells of the calls that are under way, and of their number. -/
structure Chronicle (log : List Mark) (x : Switchboard) : Prop where
  cached_lt (n : Nat) (hn : x.slot.cached = some n) : n < x.slot.opened
  number_lt (t : Ticket) (ht : t ∈ x.waiting ∨ t ∈ x.failed) : t.number < x.begun
  taken (t : Ticket) (ht : t ∈ x.waiting ∨ t ∈ x.failed) :
    ∃ since, TakenSince log t since ∧ Since t since x.slot ∧
      (t ∈ x.failed → .failed t.number t.connection ∈ since)
  failures_eq : log.countP Mark.isFailure = log.countP Mark.isClearing + x.failed.length
  openings_le : log.countP Mark.isOpening ≤
    log.countP Mark.isClearing + if x.slot.cached.isSome then 1 else 0

namespace Chronicle

variable {log marks : List Mark} {x y : Switchboard}

theorem idle : Chronicle [] .idle := by
  constructor <;> simp [Switchboard.idle, Slot.initial]

theorem turn (h : Chronicle log x) (hturn : x.Turn marks y) : Chronicle (log ++ marks) y where
  cached_lt := by
    intro n hn
    cases hturn with
    | opened hnone c =>
        obtain rfl := Option.some.inj hn
        exact Nat.lt_succ_self _
    | cleared ht => cases hn
    | _ => exact h.cached_lt n hn
  number_lt := by
    intro t ht
    rcases hturn.ticket ht with ⟨ht, -⟩ | ⟨hnumber, hbegun, -⟩
    · exact Nat.lt_of_lt_of_le (h.number_lt t ht) hturn.begun_le
    · rw [hnumber, hbegun]
      exact Nat.lt_succ_self _
  taken := by
    intro t ht
    rcases hturn.ticket ht with ⟨ht, hfailed⟩ | ⟨hnumber, -, hsame, hcached, opened, rfl⟩
    · obtain ⟨since, htaken, hsince, hmark⟩ := h.taken t ht
      refine ⟨since ++ marks, htaken.append marks,
        hsince.turn hturn h.cached_lt (h.number_lt t ht), ?_⟩
      intro hnow
      rcases hfailed hnow with hbefore | hnew
      · exact List.mem_append_left _ (hmark hbefore)
      · exact List.mem_append_right _ hnew
    · refine ⟨[], ⟨log, opened, rfl⟩, .kept undisturbed_nil hcached, ?_⟩
      intro hfailed
      rw [hsame] at hfailed
      have hlt := h.number_lt t (.inr hfailed)
      rw [hnumber] at hlt
      exact absurd hlt (Nat.lt_irrefl _)
  failures_eq := by
    have hcount := h.failures_eq
    rw [List.countP_append, List.countP_append]
    cases hturn with
    | @cleared i failing ht =>
        have hlt : i < x.failed.length := (List.getElem?_eq_some_iff.mp ht).1
        simp [Mark.isFailure, Mark.isClearing, List.length_eraseIdx_of_lt hlt]
        omega
    | _ =>
        simp [Mark.isFailure, Mark.isClearing]
        omega
  openings_le := by
    have hcount := h.openings_le
    rw [List.countP_append, List.countP_append]
    cases hturn with
    | @cleared i failing ht =>
        have hone : (if x.slot.cached.isSome then 1 else 0) ≤ 1 := by
          split <;> omega
        simp [Mark.isOpening, Mark.isClearing, Slot.clear]
        omega
    | opened hnone c =>
        rw [hnone] at hcount
        simpa [Mark.isOpening, Mark.isClearing] using hcount
    | _ => simpa [Mark.isOpening, Mark.isClearing] using hcount

theorem run (h : Chronicle log x) (moves : List Move) :
    Chronicle (log ++ (x.run moves).1) (x.run moves).2 := by
  induction moves generalizing log x with
  | nil =>
      rw [Switchboard.run, List.append_nil]
      exact h
  | cons m ms ih =>
      have hms := ih (h.turn (x.turn_step m))
      rw [List.append_assoc] at hms
      exact hms

/-- There are no more failures than connections and clearings allow. -/
theorem openings_le_failures (h : Chronicle log x) :
    log.countP Mark.isOpening ≤ log.countP Mark.isFailure + 1 := by
  have hopenings := h.openings_le
  have hfailures := h.failures_eq
  have hone : (if x.slot.cached.isSome then 1 else 0) ≤ 1 := by
    split <;> omega
  omega

end Chronicle

/-- What a log tells of a call when it empties the slot of what is in it. -/
def Accounts (before : List Mark) (call own : Nat) (removed : Option Nat) : Prop :=
  ∃ earlier opened since, before = earlier ++ .took call own opened :: since ∧
    .failed call own ∈ since ∧
    (removed = some own ↔ Undisturbed since) ∧
    ∀ n, removed = some n → n ≠ own → own < n ∧ ∃ first other rest,
      since = first ++ .took other n true :: rest ∧ call < other ∧
        ¬Undisturbed first ∧ Undisturbed rest

theorem Chronicle.accounts {log : List Mark} {x : Switchboard} (h : Chronicle log x) {t : Ticket}
    (ht : t ∈ x.failed) : Accounts log t.number t.connection x.slot.cached := by
  obtain ⟨since, ⟨earlier, opened, hlog⟩, hsince, hfailed⟩ := h.taken t (.inr ht)
  refine ⟨earlier, opened, since, hlog, hfailed ht, hsince.cached_iff, ?_⟩
  intro n hn hother
  cases hsince with
  | kept hall hcached =>
      rw [hcached] at hn
      exact absurd (Option.some.inj hn).symm hother
  | lost hall hlt hnewer => exact hnewer n hn

namespace Switchboard

theorem Turn.marks {x y : Switchboard} {marks : List Mark} (h : x.Turn marks y) :
    marks = [] ∨ ∃ mark, marks = [mark] := by
  cases h with
  | quiet => exact .inl rfl
  | _ => exact .inr ⟨_, rfl⟩

/-- What is told in a run is told of one of its steps. -/
theorem exists_step_of_run {x : Switchboard} {moves : List Move} {before after : List Mark}
    {mark : Mark} (h : (x.run moves).1 = before ++ mark :: after) :
    ∃ first m, (x.run first).1 = before ∧ ((x.run first).2.step m).1 = [mark] := by
  induction moves generalizing x before with
  | nil => cases before <;> cases h
  | cons m ms ih =>
      have hrun : (x.step m).1 ++ ((x.step m).2.run ms).1 = before ++ mark :: after := h
      have hlater : ∀ earlier, before = (x.step m).1 ++ earlier →
          ((x.step m).2.run ms).1 = earlier ++ mark :: after →
          ∃ first m, (x.run first).1 = before ∧ ((x.run first).2.step m).1 = [mark] := by
        intro earlier hbefore hms
        obtain ⟨first, m', hfirst, hm'⟩ := ih hms
        refine ⟨m :: first, m', ?_, hm'⟩
        rw [hbefore, ← hfirst]
        rfl
      rcases (x.turn_step m).marks with hmarks | ⟨told, hmarks⟩
      · rw [hmarks] at hrun
        exact hlater before (by rw [hmarks, List.nil_append]) hrun
      · rw [hmarks] at hrun
        cases before with
        | nil =>
            obtain ⟨rfl, -⟩ := List.cons.inj hrun
            exact ⟨[], m, rfl, hmarks⟩
        | cons head earlier =>
            obtain ⟨rfl, hms⟩ := List.cons.inj hrun
            exact hlater earlier (by rw [hmarks, List.singleton_append]) hms

end Switchboard

/-- Whatever calls overlap, a call that fails removes its own connection just if no other has
emptied the slot since it took it; what else it removes is a connection that a later call has
opened since then.  No failure costs more than one connection. -/
theorem removes_own_iff_undisturbed (moves : List Move) :
    (∀ before call own removed after,
      (Switchboard.idle.run moves).1 = before ++ .cleared call own removed :: after →
        Accounts before call own removed) ∧
    (Switchboard.idle.run moves).1.countP Mark.isOpening ≤
      (Switchboard.idle.run moves).1.countP Mark.isFailure + 1 := by
  constructor
  · intro before call own removed after hlog
    obtain ⟨first, m, rfl, hm⟩ := Switchboard.exists_step_of_run hlog
    have hturn := (Switchboard.idle.run first).2.turn_step m
    rw [hm] at hturn
    obtain ⟨t, ht, rfl, rfl, rfl⟩ := hturn.ticket_of_cleared
    exact (Chronicle.idle.run first).accounts ht
  · exact (Chronicle.idle.run moves).openings_le_failures

/-- Two calls share a connection that is closed on both; before the second empties the slot, a
third has opened another. -/
def crossed : List Move :=
  [.begin 0 (.get "a") true, .clone 0, .begin 1 (.get "a") true, .reply 0 none, .reply 0 none,
    .clear 0, .begin 0 (.get "a") true, .reply 0 (some "$-1\r\n".toUTF8.toList), .clear 0]

theorem removes_own_iff_undisturbed_crossed :
    Accounts [.took 0 0 true, .took 1 0 false, .failed 0 0, .failed 1 0, .cleared 0 0 (some 0),
        .took 2 1 true, .succeeded 2 1] 1 0 (some 1) :=
  (removes_own_iff_undisturbed crossed).1 _ 1 0 (some 1) [] (by decide +kernel)

/-- A connection on which every command has succeeded is dropped by a call that failed on
another. -/
theorem healthy_connection_removed :
    .cleared 1 0 (some 1) ∈ (Switchboard.idle.run crossed).1 ∧
      ∀ call, .failed call 1 ∉ (Switchboard.idle.run crossed).1 := by
  have hlog : (Switchboard.idle.run crossed).1 = [.took 0 0 true, .took 1 0 false, .failed 0 0,
      .failed 1 0, .cleared 0 0 (some 0), .took 2 1 true, .succeeded 2 1,
      .cleared 1 0 (some 1)] := by decide +kernel
  rw [hlog]
  constructor
  · decide
  · intro call
    simp

end StateStore
end Redis
end SearchPolling
