import SearchPolling.Proofs.Keeping.Clones

/-!
# Connections that failed

The connection in the slot is the one on which the last call succeeded.  A call that fails
empties the slot, whether no connection could be had, the connection was closed, or the reply
was an error or could not be read; the next call opens a connection with a number that none had
before.  So no command is sent on a connection on which a command has failed, and a connection
that is lost costs one call.
-/

namespace SearchPolling
namespace Redis

namespace Network

variable {σ : Type}

/-- What can be seen on the way to a server. -/
inductive Event where
  /-- A connection was asked for and opened. -/
  | connected
  /-- A connection was asked for in vain. -/
  | unreachable
  /-- Bytes were sent, and others came back unless the connection was closed. -/
  | sent (bytes : List UInt8) (reply : Option (List UInt8))
  deriving DecidableEq, Repr

/-- A network on which somebody notes what can be seen. -/
def watched (net : Network σ) : Network (σ × List Event) where
  connect x :=
    let (reachable, s) := net.connect x.1
    (reachable, s, x.2 ++ [if reachable then .connected else .unreachable])
  send bytes x :=
    let (reply, s) := net.send bytes x.1
    (reply, s, x.2 ++ [.sent bytes reply])

/-- The ways in which a call can go: what comes of it, the slot behind it, and what can be seen
of it. -/
inductive Goes (c : Command) (slot : Slot) : Call → Slot → List Event → Prop where
  | onCached (n : Nat) (hcached : slot.cached = some n) (reply : Option (List UInt8)) :
    Goes c slot ⟨some n, c.result reply⟩ (slot.settle (!(c.result reply).isOk))
      [.sent c.encode reply]
  | nowhere (hcached : slot.cached = none) :
    Goes c slot ⟨none, .error .unreachable⟩ slot [.unreachable]
  | onOpened (hcached : slot.cached = none) (reply : Option (List UInt8)) :
    Goes c slot ⟨some slot.opened, c.result reply⟩
      (Slot.settle ⟨some slot.opened, slot.opened + 1⟩ (!(c.result reply).isOk))
      [.connected, .sent c.encode reply]

/-- To be watched changes nothing, and what is seen is how the call goes. -/
theorem call_watched (net : Network σ) (c : Command) (slot : Slot) (s : σ) :
    ∃ es, net.watched.call c slot (s, []) =
        ((net.call c slot s).1, (net.call c slot s).2.1, (net.call c slot s).2.2, es) ∧
      Goes c slot (net.call c slot s).1 (net.call c slot s).2.1 es := by
  cases hcached : slot.cached with
  | some n =>
      refine ⟨[.sent c.encode (net.send c.encode s).1], ?_, ?_⟩
      · simp [call, reach, hcached, watched]
      · have hcall := Goes.onCached (c := c) n hcached (net.send c.encode s).1
        simpa [call, reach, hcached] using hcall
  | none =>
      cases hreachable : (net.connect s).1 with
      | false =>
          refine ⟨[.unreachable], ?_, ?_⟩
          · simp [call, reach, hcached, watched, hreachable, Slot.take]
          · have hcall := Goes.nowhere (c := c) hcached
            simpa [call, reach, hcached, hreachable, Slot.take] using hcall
      | true =>
          refine ⟨[.connected, .sent c.encode (net.send c.encode (net.connect s).2).1], ?_, ?_⟩
          · simp [call, reach, hcached, watched, hreachable, Slot.take]
          · have hcall := Goes.onOpened (c := c) hcached (net.send c.encode (net.connect s).2).1
            simpa [call, reach, hcached, hreachable, Slot.take] using hcall

end Network

namespace StateStore

variable {σ : Type}

/-- The calls of a store. -/
inductive Request where
  | ping
  | get (key : String)
  | set (key value : String)
  | load (key : String)
  | save (key value : String)
  deriving DecidableEq, Repr

/-- The command that a call sends. -/
def Request.command : Request → Command
  | ping => .ping
  | get key => .get key
  | set key value => .set key value
  | load key => .get key
  | save key value => .set key value

/-- Makes a call. -/
def perform (net : Address → Network σ) (store : StateStore) (s : σ) :
    Request → Outcome σ (Option String)
  | .ping => store.call net .ping s
  | .get key => store.call net (.get key) s
  | .set key value => store.call net (.set key value) s
  | .load key => store.load net key s
  | .save key value =>
    let o := store.save net key value s
    ⟨o.result.map fun _ => none, o.store, o.network⟩

/-- The connection in the slot of a store. -/
def cached : StateStore → Option Nat
  | server _ slot => slot.cached
  | memory _ => none

/-- The connection on which a command is sent. -/
def connection (net : Address → Network σ) (c : Command) (store : StateStore) (s : σ) :
    Option Nat :=
  match store with
  | server a slot => ((net a).call c slot s).1.connection
  | memory _ => none

/-- Every call of a store on a server is one command on the network. -/
theorem perform_server (net : Address → Network σ) (a : Address) (slot : Slot) (s : σ)
    (r : Request) :
    let o := (server a slot).perform net s r
    let call := (net a).call r.command slot s
    o.result.isOk = call.1.result.isOk ∧ o.store = server a call.2.1 ∧ o.network = call.2.2 := by
  cases r with
  | save key value =>
      refine ⟨?_, rfl, rfl⟩
      simp only [perform, save, StateStore.call, Request.command]
      cases ((net a).call (.set key value) slot s).1.result <;> rfl
  | ping | get key | set key value | load key =>
      refine ⟨?_, rfl, rfl⟩
      simp only [perform, load, StateStore.call, Request.command]
      cases ((net a).call _ slot s).1.result <;> rfl

/-- What can be told of a call afterwards. -/
structure Contact where
  request : Request
  /-- The connection that was in the slot. -/
  found : Option Nat
  events : List Network.Event
  /-- The connection on which the command was sent. -/
  connection : Option Nat
  failed : Bool
  /-- The connection that stayed in the slot. -/
  left : Option Nat
  deriving DecidableEq, Repr

/-- What is done with a store through the clone of a number. -/
inductive Dealing where
  | clone (on : Nat)
  | call (on : Nat) (r : Request)
  deriving DecidableEq, Repr

namespace Shared

variable (net : Address → Network σ)

/-- Makes a call and watches it. -/
def contact (x : Shared σ) (r : Request) : Contact × Shared σ :=
  let watched := fun a => (net a).watched
  let o := x.store.perform watched (x.network, []) r
  (⟨r, x.store.cached, o.network.2, x.store.connection watched r.command (x.network, []),
      !o.result.isOk, o.store.cached⟩,
    { x with store := o.store, network := o.network.1 })

/-- Clones a store or makes a call, if there is a clone of the number. -/
def deal (x : Shared σ) : Dealing → List Contact × Shared σ
  | .clone on => ([], if on < x.clones then { x with clones := x.clones + 1 } else x)
  | .call on r =>
    if on < x.clones then
      let (c, y) := x.contact net r
      ([c], y)
    else ([], x)

/-- Deals with a store again and again; gives what can be told of the calls. -/
def talk (x : Shared σ) : List Dealing → List Contact × Shared σ
  | [] => ([], x)
  | d :: ds =>
    let (log, y) := x.deal net d
    let (rest, z) := y.talk ds
    (log ++ rest, z)

end Shared

namespace Contact

/-- The connections that were asked for in a call, whether or not they were opened. -/
def attempts (c : Contact) : Nat :=
  c.events.countP (· matches .connected | .unreachable)

/-- The bytes that were sent in a call. -/
def commands (c : Contact) : List (List UInt8) :=
  c.events.filterMap fun
    | .sent bytes _ => some bytes
    | _ => none

/-- A call by the slots before and behind it. -/
structure Tells (slot : Slot) (c : Contact) (slot' : Slot) : Prop where
  found_eq : c.found = slot.cached
  left_eq : c.left = slot'.cached
  goes : ∃ result, Network.Goes c.request.command slot ⟨c.connection, result⟩ slot' c.events ∧
    c.failed = !result.isOk

/-- A call by the calls before it. -/
structure Follows (before : List Contact) (c : Contact) : Prop where
  /-- The slot is empty for the first call and for one behind a call that failed. -/
  found_eq_none_iff :
    c.found = none ↔ ∀ last, before.getLast? = some last → last.failed = true
  /-- A call that succeeded has left its connection. -/
  found_eq (last : Contact) (hlast : before.getLast? = some last) (hok : last.failed = false) :
    c.found = last.connection
  /-- A connection is asked for if there is none in the slot, and then once. -/
  attempts_eq : c.attempts = if c.found = none then 1 else 0
  /-- The call sends its command if it has a connection, and nothing else. -/
  commands_eq :
    c.commands = if c.connection = none then [] else [c.request.command.encode]
  connection_eq (n : Nat) (hn : c.found = some n) : c.connection = some n
  /-- A connection that is opened for the call is none of those before. -/
  reconnects (hfound : c.found = none) (hreached : .unreachable ∉ c.events) :
    ∃ n, c.connection = some n ∧ c.events.head? = some .connected ∧
      ∀ d ∈ before, d.connection ≠ some n
  /-- Where no connection can be had, nothing is sent and nothing is left. -/
  unreachable (hreached : .unreachable ∈ c.events) :
    c.found = none ∧ c.connection = none ∧ c.commands = [] ∧ c.failed = true ∧ c.left = none
  /-- A call fails without a connection or by what it makes of the reply. -/
  failed_iff : c.failed = true ↔ .unreachable ∈ c.events ∨
    ∃ reply, .sent c.request.command.encode reply ∈ c.events ∧
      (c.request.command.result reply).isOk = false
  left_eq : c.left = if c.failed then none else c.connection
  /-- Nothing is sent on a connection on which a command failed. -/
  not_failed (d : Contact) (hd : d ∈ before) (hfailed : d.failed = true) (n : Nat)
    (hn : d.connection = some n) : c.connection ≠ some n

end Contact

theorem Shared.tells_contact (net : Address → Network σ) {x : Shared σ} {a : Address}
    {slot : Slot} (hx : x.store = .server a slot) (r : Request) :
    ∃ slot', (x.contact net r).2.store = .server a slot' ∧
      (x.contact net r).1.Tells slot slot' := by
  obtain ⟨clones, store, s⟩ := x
  obtain rfl : store = .server a slot := hx
  obtain ⟨hresult, hstore, hnetwork⟩ :=
    perform_server (fun a => (net a).watched) a slot (s, []) r
  obtain ⟨es, hcall, hgoes⟩ := (net a).call_watched r.command slot s
  simp only [hcall] at hresult hstore hnetwork
  refine ⟨((net a).call r.command slot s).2.1, hstore, rfl, ?_, ?_⟩
  · simp only [contact, hstore, cached]
  · simp only [contact, connection, hresult, hnetwork, hcall]
    exact ⟨_, hgoes, rfl⟩

/-- The three ways of a call, by what can be told of it. -/
theorem Contact.Tells.cases {slot slot' : Slot} {c : Contact} (hc : c.Tells slot slot') :
    (∃ n reply, slot.cached = some n ∧ c.connection = some n ∧
      c.events = [.sent c.request.command.encode reply] ∧
      c.failed = !(c.request.command.result reply).isOk ∧ slot' = slot.settle c.failed) ∨
    (slot.cached = none ∧ c.connection = none ∧ c.events = [.unreachable] ∧ c.failed = true ∧
      slot' = slot) ∨
    (∃ reply, slot.cached = none ∧ c.connection = some slot.opened ∧
      c.events = [.connected, .sent c.request.command.encode reply] ∧
      c.failed = !(c.request.command.result reply).isOk ∧
      slot' = Slot.settle ⟨some slot.opened, slot.opened + 1⟩ c.failed) := by
  obtain ⟨-, -, result, hgoes, hfailed⟩ := hc
  generalize hcall : (⟨c.connection, result⟩ : Call) = call at hgoes
  generalize hevents : c.events = es at hgoes ⊢
  cases hgoes with
  | onCached n hcached reply =>
      obtain ⟨hconnection, rfl⟩ := Call.mk.inj hcall
      exact .inl ⟨n, reply, hcached, hconnection, rfl, hfailed, by rw [hfailed]⟩
  | nowhere hcached =>
      obtain ⟨hconnection, rfl⟩ := Call.mk.inj hcall
      exact .inr (.inl ⟨hcached, hconnection, rfl, hfailed, rfl⟩)
  | onOpened hcached reply =>
      obtain ⟨hconnection, rfl⟩ := Call.mk.inj hcall
      exact .inr (.inr ⟨reply, hcached, hconnection, rfl, hfailed, by rw [hfailed]⟩)

namespace Contact.Tells

variable {slot slot' : Slot} {c : Contact}

theorem attempts_eq (hc : c.Tells slot slot') :
    c.attempts = if c.found = none then 1 else 0 := by
  rw [attempts, hc.found_eq]
  rcases hc.cases with ⟨n, reply, hcached, -, hevents, -⟩ | ⟨hcached, -, hevents, -⟩ |
    ⟨reply, hcached, -, hevents, -⟩
  all_goals simp [hevents, hcached]

theorem commands_eq (hc : c.Tells slot slot') :
    c.commands = if c.connection = none then [] else [c.request.command.encode] := by
  rw [commands]
  rcases hc.cases with ⟨n, reply, -, hconnection, hevents, -⟩ | ⟨-, hconnection, hevents, -⟩ |
    ⟨reply, -, hconnection, hevents, -⟩
  all_goals simp [hevents, hconnection]

theorem connection_eq (hc : c.Tells slot slot') {n : Nat} (hn : c.found = some n) :
    c.connection = some n := by
  rw [hc.found_eq] at hn
  rcases hc.cases with ⟨m, reply, hcached, hconnection, -⟩ | ⟨hcached, -⟩ | ⟨reply, hcached, -⟩
  · rw [hconnection, ← hcached, hn]
  · simp [hcached] at hn
  · simp [hcached] at hn

/-- The connection of a call is the one in the slot, or the next that is opened. -/
theorem cached_or_opened (hc : c.Tells slot slot') {n : Nat} (hn : c.connection = some n) :
    (slot.cached = some n ∧ slot'.opened = slot.opened) ∨
      (n = slot.opened ∧ slot'.opened = slot.opened + 1) := by
  rcases hc.cases with ⟨m, reply, hcached, hconnection, -, -, rfl⟩ | ⟨-, hconnection, -⟩ |
    ⟨reply, -, hconnection, -, -, rfl⟩
  · refine .inl ⟨by rw [hcached, ← hconnection, hn], ?_⟩
    cases c.failed <;> rfl
  · simp [hconnection] at hn
  · refine .inr ⟨Option.some.inj (hn.symm.trans hconnection), ?_⟩
    cases c.failed <;> rfl

theorem opened_le (hc : c.Tells slot slot') : slot.opened ≤ slot'.opened := by
  rcases hc.cases with ⟨n, reply, -, -, -, -, rfl⟩ | ⟨-, -, -, -, rfl⟩ |
    ⟨reply, -, -, -, -, rfl⟩
  · cases c.failed <;> exact Nat.le_refl _
  · exact Nat.le_refl _
  · cases c.failed <;> exact Nat.le_succ _

theorem unreachable (hc : c.Tells slot slot') (hreached : .unreachable ∈ c.events) :
    c.found = none ∧ c.connection = none ∧ c.commands = [] ∧ c.failed = true ∧ c.left = none := by
  rw [hc.commands_eq, hc.found_eq, hc.left_eq]
  rcases hc.cases with ⟨n, reply, -, -, hevents, -⟩ |
    ⟨hcached, hconnection, -, hfailed, rfl⟩ | ⟨reply, -, -, hevents, -⟩
  · simp [hevents] at hreached
  · simp [hcached, hconnection, hfailed]
  · simp [hevents] at hreached

theorem failed_iff (hc : c.Tells slot slot') :
    c.failed = true ↔ .unreachable ∈ c.events ∨
      ∃ reply, .sent c.request.command.encode reply ∈ c.events ∧
        (c.request.command.result reply).isOk = false := by
  rcases hc.cases with ⟨n, reply, -, -, hevents, hfailed, -⟩ | ⟨-, -, hevents, hfailed, -⟩ |
    ⟨reply, -, -, hevents, hfailed, -⟩
  all_goals simp [hevents, hfailed]

theorem left_eq_of_failed (hc : c.Tells slot slot') :
    c.left = if c.failed then none else c.connection := by
  rw [hc.left_eq]
  rcases hc.cases with ⟨n, reply, hcached, hconnection, -, -, rfl⟩ |
    ⟨hcached, -, -, hfailed, rfl⟩ | ⟨reply, -, hconnection, -, -, rfl⟩
  · rw [hconnection, ← hcached]
    cases c.failed <;> rfl
  · rw [hcached, hfailed]
    rfl
  · rw [hconnection]
    cases c.failed <;> rfl

/-- A call without a connection fails. -/
theorem connection_ne_none (hc : c.Tells slot slot') (hok : c.failed = false) :
    c.connection ≠ none := by
  rcases hc.cases with ⟨n, reply, -, hconnection, -⟩ | ⟨-, -, -, hfailed, -⟩ |
    ⟨reply, -, hconnection, -⟩
  · simp [hconnection]
  · simp [hfailed] at hok
  · simp [hconnection]

/-- Where there is no connection in the slot but one can be had, it is opened first of all. -/
theorem reconnects (hc : c.Tells slot slot') (hfound : c.found = none)
    (hreached : .unreachable ∉ c.events) :
    c.connection = some slot.opened ∧ c.events.head? = some .connected := by
  rw [hc.found_eq] at hfound
  rcases hc.cases with ⟨n, reply, hcached, -⟩ | ⟨-, -, hevents, -⟩ |
    ⟨reply, -, hconnection, hevents, -⟩
  · simp [hcached] at hfound
  · simp [hevents] at hreached
  · exact ⟨hconnection, by simp [hevents]⟩

end Contact.Tells

/-! ## Calls one after another -/

/-- What the slot holds, and how many connections were opened, after some calls. -/
structure History (log : List Contact) (slot : Slot) : Prop where
  cached_eq : slot.cached = log.getLast?.bind Contact.left
  left_eq (c : Contact) (hc : c ∈ log) :
    c.left = (if c.failed then none else c.connection) ∧ (c.failed = false → c.connection.isSome)
  lt_opened (c : Contact) (hc : c ∈ log) (n : Nat) (hn : c.connection = some n) : n < slot.opened
  not_failed (c : Contact) (hc : c ∈ log) (hfailed : c.failed = true) (n : Nat)
    (hn : c.connection = some n) : slot.cached ≠ some n

namespace History

variable {log : List Contact} {slot slot' : Slot} {c : Contact}

theorem initial : History [] .initial := by
  constructor <;> simp [Slot.initial]

/-- The slot is empty at the start and behind a failure. -/
theorem cached_eq_none_iff (h : History log slot) :
    slot.cached = none ↔ ∀ last, log.getLast? = some last → last.failed = true := by
  rw [h.cached_eq]
  cases hlast : log.getLast? with
  | none => simp
  | some last =>
      obtain ⟨hleft, hok⟩ := h.left_eq last (List.mem_of_getLast? hlast)
      cases hfailed : last.failed with
      | true => simp [hleft, hfailed]
      | false =>
          have hsome : last.connection ≠ none := Option.isSome_iff_ne_none.mp (hok hfailed)
          simp [hleft, hfailed, hsome]

theorem cached_of_last (h : History log slot) {last : Contact} (hlast : log.getLast? = some last)
    (hok : last.failed = false) : slot.cached = last.connection := by
  rw [h.cached_eq, hlast, Option.bind_some, (h.left_eq last (List.mem_of_getLast? hlast)).1, hok]
  rfl

theorem cached_lt (h : History log slot) {n : Nat} (hn : slot.cached = some n) :
    n < slot.opened := by
  rw [h.cached_eq] at hn
  obtain ⟨last, hlast, hleft⟩ := Option.bind_eq_some_iff.mp hn
  have hmem : last ∈ log := List.mem_of_getLast? hlast
  refine h.lt_opened last hmem n ?_
  rw [(h.left_eq last hmem).1] at hleft
  split at hleft
  · cases hleft
  · exact hleft

/-- A new connection has a number that no call before has had. -/
theorem connection_ne_opened (h : History log slot) {d : Contact} (hd : d ∈ log) :
    d.connection ≠ some slot.opened :=
  fun hn => Nat.lt_irrefl _ (h.lt_opened d hd _ hn)

theorem connection_ne (h : History log slot) (hc : c.Tells slot slot') {d : Contact}
    (hd : d ∈ log) (hfailed : d.failed = true) {n : Nat} (hn : d.connection = some n) :
    c.connection ≠ some n := by
  intro hsame
  rcases hc.cached_or_opened hsame with ⟨hcached, -⟩ | ⟨rfl, -⟩
  · exact h.not_failed d hd hfailed n hn hcached
  · exact h.connection_ne_opened hd hn

theorem follows (h : History log slot) (hc : c.Tells slot slot') : c.Follows log where
  found_eq_none_iff := by rw [hc.found_eq, h.cached_eq_none_iff]
  found_eq last hlast hok := by rw [hc.found_eq, h.cached_of_last hlast hok]
  attempts_eq := hc.attempts_eq
  commands_eq := hc.commands_eq
  connection_eq _ hn := hc.connection_eq hn
  reconnects hfound hreached := by
    obtain ⟨hconnection, hhead⟩ := hc.reconnects hfound hreached
    exact ⟨slot.opened, hconnection, hhead, fun _ hd => h.connection_ne_opened hd⟩
  unreachable := hc.unreachable
  failed_iff := hc.failed_iff
  left_eq := hc.left_eq_of_failed
  not_failed _ hd hfailed _ hn := h.connection_ne hc hd hfailed hn

theorem concat (h : History log slot) (hc : c.Tells slot slot') :
    History (log ++ [c]) slot' where
  cached_eq := by
    rw [List.getLast?_concat, Option.bind_some, hc.left_eq]
  left_eq d hd := by
    rcases List.mem_append.mp hd with hd | hd
    · exact h.left_eq d hd
    · obtain rfl := List.mem_singleton.mp hd
      exact ⟨hc.left_eq_of_failed, fun hok =>
        Option.isSome_iff_ne_none.mpr (hc.connection_ne_none hok)⟩
  lt_opened d hd n hn := by
    rcases List.mem_append.mp hd with hd | hd
    · exact Nat.lt_of_lt_of_le (h.lt_opened d hd n hn) hc.opened_le
    · obtain rfl := List.mem_singleton.mp hd
      rcases hc.cached_or_opened hn with ⟨hcached, hopened⟩ | ⟨rfl, hopened⟩
      · exact hopened ▸ h.cached_lt hcached
      · exact hopened ▸ Nat.lt_succ_self slot.opened
  not_failed d hd hfailed n hn := by
    rw [← hc.left_eq, hc.left_eq_of_failed]
    rcases List.mem_append.mp hd with hd | hd
    · split
      · simp
      · exact h.connection_ne hc hd hfailed hn
    · obtain rfl := List.mem_singleton.mp hd
      simp [hfailed]

end History

namespace Shared

variable (net : Address → Network σ) {a : Address}

/-- After some calls, each of the calls that follow is made on those before it. -/
theorem follows_talk {x : Shared σ} {slot : Slot} {past : List Contact}
    (hx : x.store = .server a slot) (hpast : History past slot) (ds : List Dealing) :
    ∀ before c after, (x.talk net ds).1 = before ++ c :: after → c.Follows (past ++ before) := by
  induction ds generalizing x slot past with
  | nil =>
      intro before c after hlog
      simp [talk] at hlog
  | cons d ds ih =>
      intro before c after hlog
      cases d with
      | clone on =>
          refine ih (x := (x.deal net (.clone on)).2) ?_ hpast before c after hlog
          rw [← hx, deal]
          split <;> rfl
      | call on r =>
          by_cases hon : on < x.clones
          · obtain ⟨slot', hstore, htells⟩ := tells_contact net hx r
            simp only [talk, deal, if_pos hon, List.singleton_append] at hlog
            cases before with
            | nil =>
                obtain ⟨rfl, -⟩ := List.cons.inj hlog
                rw [List.append_nil]
                exact hpast.follows htells
            | cons first before =>
                obtain ⟨rfl, hrest⟩ := List.cons.inj hlog
                rw [List.append_cons]
                exact ih hstore (hpast.concat htells) before c after hrest
          · simp only [talk, deal, if_neg hon, List.nil_append] at hlog
            exact ih hx hpast before c after hlog

end Shared

/-- Whatever the network does, each call through the clones of a store asks for a connection
just if it is the first one or the one before it failed, sends its own command if it has a
connection, and never sends one on a connection on which a command failed. -/
theorem failed_connection_not_reused (net : Address → Network σ) (a : Address) (s : σ)
    (ds : List Dealing) :
    ∀ before c after, ((Shared.alone (.ofAddress a) s).talk net ds).1 = before ++ c :: after →
      c.Follows before :=
  Shared.follows_talk net rfl .initial ds

/-- A network that connects, and replies, as it is told beforehand. -/
def rehearsed : Network (List Bool × List (Option (List UInt8))) where
  connect s := (s.1.headD false, s.1.tail, s.2)
  send _ s := (s.2.headD none, s.1, s.2.tail)

/-- The first call finds no server, the second one gets an error for a reply, the connection of
the third one is closed, and the rest go well. -/
def mishaps : List Contact :=
  [⟨.ping, none, [.unreachable], none, true, none⟩,
    ⟨.get "a", none,
      [.connected, .sent (Command.get "a").encode (some (Reply.line '-' "ERR".toList))],
      some 0, true, none⟩,
    ⟨.load "a", none, [.connected, .sent (Command.get "a").encode none], some 1, true, none⟩,
    ⟨.save "a" "b", none,
      [.connected, .sent (Command.set "a" "b").encode (some (Reply.line '+' "OK".toList))],
      some 2, false, some 2⟩,
    ⟨.get "a", some 2,
      [.sent (Command.get "a").encode (some (Reply.line '$' "-1".toList))],
      some 2, false, some 2⟩]

theorem failed_connection_not_reused_mishaps :
    ∃ before c after, mishaps = before ++ c :: after ∧ c.request = .save "a" "b" ∧
      before.map Contact.failed = [true, true, true] ∧ c.connection = some 2 ∧
      c.Follows before := by
  have hlog : mishaps = ((Shared.alone
      (.ofAddress ⟨.host (.name "cache".toList) 6379, 0, none, none⟩)
      ([false, true, true, true], [some (Reply.line '-' "ERR".toList), none,
        some (Reply.line '+' "OK".toList), some (Reply.line '$' "-1".toList)])).talk
      (fun _ => rehearsed) [.call 0 .ping, .clone 0, .call 1 (.get "a"), .call 0 (.load "a"),
        .call 1 (.save "a" "b"), .call 0 (.get "a")]).1 := by
    decide +kernel
  refine ⟨mishaps.take 3, _, mishaps.drop 4, rfl, rfl, rfl, rfl, ?_⟩
  exact failed_connection_not_reused _ _ _ _ _ _ _ hlog.symm
end StateStore
end Redis
end SearchPolling
