import SearchPolling.Proofs.Keeping.Framing
import SearchPolling.Redis.StateStore

/-!
# State stores and their clones

A store may be used through any of its clones, which share what it is made of.  A store on a
server that keeps texts under keys cannot be told from a store in memory, whatever the keys
and the texts hold: commands and replies arrive as they were sent, the first call opens the
one connection that all clones use, and no call fails.
-/

namespace SearchPolling

namespace Store
namespace Memory

/-- Every text that is kept is one that a machine can hold. -/
def IsAddressable (m : Memory) : Prop :=
  ∀ key value, m.load key = some value → Text.IsAddressable value

theorem IsAddressable.save {m : Memory} (h : m.IsAddressable) (key : String) {value : String}
    (hvalue : Text.IsAddressable value) : (m.save key value).IsAddressable := by
  intro other found hfound
  by_cases hother : other = key
  · subst hother
    rw [load_save_self] at hfound
    exact Option.some.inj hfound ▸ hvalue
  · rw [load_save_of_ne m hother] at hfound
    exact h other found hfound

end Memory
end Store

namespace Redis

namespace Command

/-- What a command reads, and what is kept after it, where texts are kept under keys. -/
def onMemory (m : Store.Memory) : Command → Option String × Store.Memory
  | ping => (none, m)
  | get key => (m.load key, m)
  | set key value => (none, m.save key value)

end Command

/-- What lies behind the network is a server that can always be reached and keeps texts under
keys. -/
structure Network.Serves {σ : Type} (net : Network σ) (kept : σ → Store.Memory) : Prop where
  connects (s : σ) : (net.connect s).1 = true
  kept_connect (s : σ) : kept (net.connect s).2 = kept s
  /-- A command is recognized by its bytes. -/
  replies {bytes : List UInt8} {c : Command} (h : Command.ofBytes? bytes = some c) (s : σ) :
    (net.send bytes s).1 = some (Server.reply (kept s) c).1
  kept_send {bytes : List UInt8} {c : Command} (h : Command.ofBytes? bytes = some c) (s : σ) :
    kept (net.send bytes s).2 = (Server.reply (kept s) c).2

namespace Server

theorem reply_snd (m : Store.Memory) (c : Command) : (reply m c).2 = (c.onMemory m).2 := by
  cases c with
  | ping => rfl
  | set key value => rfl
  | get key =>
      simp only [reply]
      split <;> rfl

/-- A client makes of a reply what is kept. -/
theorem result_reply {m : Store.Memory} (hm : m.IsAddressable) (c : Command) :
    c.result (some (reply m c).1) = .ok (c.onMemory m).1 := by
  cases c with
  | ping =>
      simp only [Command.result, reply, Reply.ofBytes?_pong]
      rfl
  | set key value =>
      simp only [Command.result, reply, Reply.ofBytes?_ok]
      rfl
  | get key =>
      simp only [reply, Command.onMemory]
      cases hload : m.load key with
      | none =>
          simp only [Command.result, Reply.ofBytes?_nil]
          rfl
      | some value =>
          have hbytes := Reply.ofBytes?_encodeBytes (hm key value hload)
          have htext := Text.ofUtf8?_utf8 value
          simp only [Command.result, hbytes, Reply.isError, Command.text?, Reply.text?, htext]
          rfl

/-- The server that keeps texts under keys is one. -/
theorem serves : network.Serves id where
  connects _ := rfl
  kept_connect _ := rfl
  replies h s := by
    simp only [network, answer, h]
    rfl
  kept_send h s := by
    simp only [network, answer, h]
    rfl

end Server

namespace StateStore

variable {σ : Type} {net : Address → Network σ} {kept : σ → Store.Memory} {a : Address}

theorem call_memory (m : Store.Memory) (c : Command) (s : σ) :
    (memory m).call net c s = ⟨.ok (c.onMemory m).1, .memory (c.onMemory m).2, s⟩ := by
  cases c <;> rfl

/-- A call on a server gives what a call in memory gives, and opens a connection only if there
is none. -/
theorem call_server (h : (net a).Serves kept) {c : Command} (hc : c.IsAddressable) {s : σ}
    (hs : (kept s).IsAddressable) (slot : Slot) :
    ∃ s', (server a slot).call net c s =
        ⟨.ok (c.onMemory (kept s)).1, .server a (slot.take true).2, s'⟩ ∧
      kept s' = (c.onMemory (kept s)).2 := by
  have hbytes := Command.ofBytes?_encode hc
  obtain ⟨t, hreach, hkept⟩ : ∃ t, (net a).reach slot s = (true, t) ∧ kept t = kept s := by
    rw [Network.reach]
    split
    · exact ⟨s, rfl, rfl⟩
    · exact ⟨_, Prod.ext (h.connects s) rfl, h.kept_connect s⟩
  obtain ⟨n, htake⟩ : ∃ n, slot.take true = (some n, (slot.take true).2) := by
    rw [Slot.take]
    split <;> exact ⟨_, rfl⟩
  have hresult : c.result ((net a).send c.encode t).1 = .ok (c.onMemory (kept s)).1 := by
    rw [h.replies hbytes, hkept, Server.result_reply hs]
  refine ⟨((net a).send c.encode t).2, ?_, ?_⟩
  · simp only [call, Network.call, hreach]
    rw [htake]
    simp only [hresult]
    rfl
  · rw [h.kept_send hbytes, hkept, Server.reply_snd]

/-! ## Clones -/

/-- What is done with a store through the clone of a number; the first one is number zero. -/
inductive Use where
  | clone (on : Nat)
  | load (on : Nat) (key : String)
  | save (on : Nat) (key value : String)
  deriving DecidableEq, Repr

/-- What comes of it. -/
inductive Answer where
  /-- There is no clone of this number. -/
  | absent
  | cloned
  | loaded (result : Except Store.Failure (Option String))
  | saved (result : Except Store.Failure Unit)

/-- A store in the hands of its clones. -/
structure Shared (σ : Type) where
  clones : Nat
  store : StateStore
  network : σ

namespace Shared

variable (net : Address → Network σ)

/-- The store before it is cloned. -/
def alone (store : StateStore) (s : σ) : Shared σ :=
  ⟨1, store, s⟩

/-- Uses a store through one of its clones. -/
def use (x : Shared σ) : Use → Answer × Shared σ
  | .clone on =>
    if on < x.clones then (.cloned, { x with clones := x.clones + 1 }) else (.absent, x)
  | .load on key =>
    if on < x.clones then
      let o := x.store.load net key x.network
      (.loaded o.result, { x with store := o.store, network := o.network })
    else (.absent, x)
  | .save on key value =>
    if on < x.clones then
      let o := x.store.save net key value x.network
      (.saved o.result, { x with store := o.store, network := o.network })
    else (.absent, x)

/-- Uses a store again and again; gives every use with its answer. -/
def run (x : Shared σ) : List Use → List (Use × Answer) × Shared σ
  | [] => ([], x)
  | u :: us =>
    let (answer, y) := x.use net u
    let (log, z) := y.run us
    ((u, answer) :: log, z)

end Shared

/-- Whether a use failed. -/
def Answer.isFailure : Answer → Bool
  | absent => false
  | cloned => false
  | loaded result => !result.isOk
  | saved result => !result.isOk

/-- The text that a use has put under a key. -/
def savedUnder (key : String) : Use × Answer → Option String
  | (.save _ other value, .saved (.ok _)) => if other = key then some value else none
  | _ => none

/-- The text that was put under a key last. -/
def lastSaved (key : String) : List (Use × Answer) → Option String
  | [] => none
  | entry :: log => (lastSaved key log).or (savedUnder key entry)

/-- Uses whose texts a machine can hold. -/
def Use.IsAddressable : Use → Prop
  | clone _ => True
  | load _ key => Text.IsAddressable key
  | save _ key value => Text.IsAddressable key ∧ Text.IsAddressable value

instance (u : Use) : Decidable u.IsAddressable :=
  match u with
  | .clone _ => .isTrue trivial
  | .load _ key => inferInstanceAs (Decidable (Text.IsAddressable key))
  | .save _ key value =>
    inferInstanceAs (Decidable (Text.IsAddressable key ∧ Text.IsAddressable value))

/-- A store on a server beside one in memory that keeps the same and has as many clones.  The
one on the server has opened a connection at most once, and not dropped it. -/
inductive Mirrors (kept : σ → Store.Memory) (a : Address) : Shared σ → Shared σ → Prop where
  | intro (clones : Nat) (slot : Slot) (s t : σ) (hslot : slot = .initial ∨ slot = ⟨some 0, 1⟩)
      (hkept : (kept s).IsAddressable) :
    Mirrors kept a ⟨clones, .server a slot, s⟩ ⟨clones, .memory (kept s), t⟩

theorem Mirrors.opened_le_one {x y : Shared σ} (h : Mirrors kept a x y) : x.store.opened ≤ 1 := by
  obtain ⟨clones, slot, s, t, rfl | rfl, hkept⟩ := h
  · exact Nat.zero_le 1
  · exact Nat.le_refl 1

theorem Mirrors.store_eq {x y : Shared σ} (h : Mirrors kept a x y) :
    y.store = .memory (kept x.network) := by
  cases h
  rfl

/-- The connection that the first call leaves is the one that every call takes. -/
theorem take_initial_or {slot : Slot} (h : slot = .initial ∨ slot = ⟨some 0, 1⟩) :
    (slot.take true).2 = ⟨some 0, 1⟩ := by
  rcases h with rfl | rfl <;> rfl

/-- No use tells a store on a server from one in memory. -/
theorem Mirrors.use {x y : Shared σ} (h : Mirrors kept a x y) (hnet : (net a).Serves kept)
    {u : Use} (hu : u.IsAddressable) :
    (x.use net u).1 = (y.use net u).1 ∧
      Mirrors kept a (x.use net u).2 (y.use net u).2 := by
  obtain ⟨clones, slot, s, t, hslot, hkept⟩ := h
  cases u with
  | clone on =>
      simp only [Shared.use]
      split
      · exact ⟨rfl, .intro _ _ _ _ hslot hkept⟩
      · exact ⟨rfl, .intro _ _ _ _ hslot hkept⟩
  | load on key =>
      simp only [Shared.use]
      split
      · have hc : (Command.get key).IsAddressable := Command.isAddressable_get hu
        obtain ⟨s', hcall, hkept'⟩ := call_server hnet hc hkept slot
        rw [load, load, hcall, call_memory, ← hkept', take_initial_or hslot]
        refine ⟨rfl, .intro _ _ _ _ (.inr rfl) ?_⟩
        rw [hkept']
        exact hkept
      · exact ⟨rfl, .intro _ _ _ _ hslot hkept⟩
  | save on key value =>
      simp only [Shared.use]
      split
      · have hc : (Command.set key value).IsAddressable := Command.isAddressable_set hu.1 hu.2
        obtain ⟨s', hcall, hkept'⟩ := call_server hnet hc hkept slot
        rw [save, save, hcall, call_memory, ← hkept', take_initial_or hslot]
        refine ⟨rfl, .intro _ _ _ _ (.inr rfl) ?_⟩
        rw [hkept']
        exact hkept.save key hu.2
      · exact ⟨rfl, .intro _ _ _ _ hslot hkept⟩

/-- What is kept in memory is answered and changed by every use as by a load or save. -/
theorem Shared.use_memory (net : Address → Network σ) {x : Shared σ} {m : Store.Memory}
    (hx : x.store = .memory m) (u : Use) :
    ∃ m', (x.use net u).2.store = .memory m' ∧
      (x.use net u).1.isFailure = false ∧
      (∀ on key result, u = .load on key → (x.use net u).1 = .loaded result →
        result = .ok (m.load key)) ∧
      ∀ key, m'.load key = (savedUnder key (u, (x.use net u).1)).or (m.load key) := by
  obtain ⟨clones, store, network⟩ := x
  obtain rfl : store = .memory m := hx
  cases u with
  | clone on =>
      simp only [use]
      split <;> exact ⟨m, rfl, rfl, nofun, fun _ => rfl⟩
  | load on key =>
      simp only [use]
      split
      · refine ⟨m, rfl, rfl, ?_, fun _ => rfl⟩
        rintro _ _ _ ⟨⟩ ⟨⟩
        rfl
      · exact ⟨m, rfl, rfl, nofun, fun _ => rfl⟩
  | save on key value =>
      simp only [use]
      split
      · refine ⟨m.save key value, rfl, rfl, nofun, ?_⟩
        intro other
        by_cases hother : other = key
        · subst hother
          rw [Store.Memory.load_save_self]
          simp [savedUnder, save, call, Except.map]
        · rw [Store.Memory.load_save_of_ne m hother]
          simp [savedUnder, save, call, Except.map, Ne.symm hother]
      · exact ⟨m, rfl, rfl, nofun, fun _ => rfl⟩

/-- A run gives every load the text that was saved last, or else the first one. -/
theorem Shared.run_memory (net : Address → Network σ) {x : Shared σ} {m : Store.Memory}
    (hx : x.store = .memory m) (uses : List Use) :
    ∃ m', (x.run net uses).2.store = .memory m' ∧
      (∀ entry ∈ (x.run net uses).1, entry.2.isFailure = false) ∧
      (∀ before on key result after,
        (x.run net uses).1 = before ++ (.load on key, .loaded result) :: after →
        result = .ok ((lastSaved key before).or (m.load key))) ∧
      ∀ key, m'.load key = (lastSaved key (x.run net uses).1).or (m.load key) := by
  induction uses generalizing x m with
  | nil => exact ⟨m, hx, by simp [run], by simp [run], fun _ => rfl⟩
  | cons u us ih =>
      obtain ⟨m₁, hstore, hanswer, hload, hkeep⟩ := Shared.use_memory net hx u
      obtain ⟨m₂, hlast, hanswers, hloads, hkeeps⟩ := ih hstore
      have hlog : (x.run net (u :: us)).1 =
          (u, (x.use net u).1) :: ((x.use net u).2.run net us).1 := rfl
      refine ⟨m₂, hlast, ?_, ?_, ?_⟩
      · rw [hlog]
        simp only [List.mem_cons, forall_eq_or_imp]
        exact ⟨hanswer, hanswers⟩
      · intro before on key result after hsplit
        rw [hlog] at hsplit
        cases before with
        | nil =>
            obtain ⟨hentry, -⟩ := List.cons.inj hsplit
            obtain ⟨hu, hresult⟩ := Prod.mk.inj hentry
            exact hload on key result hu hresult
        | cons entry before =>
            obtain ⟨rfl, hrest⟩ := List.cons.inj hsplit
            rw [hloads before on key result after hrest, hkeep, lastSaved, Option.or_assoc]
      · intro key
        rw [hkeeps, hkeep, hlog, lastSaved, Option.or_assoc]

/-- Runs of the two give the same answers. -/
theorem Mirrors.run {x y : Shared σ} (h : Mirrors kept a x y) (hnet : (net a).Serves kept)
    {uses : List Use} (huses : ∀ u ∈ uses, u.IsAddressable) :
    (x.run net uses).1 = (y.run net uses).1 ∧
      Mirrors kept a (x.run net uses).2 (y.run net uses).2 := by
  induction uses generalizing x y with
  | nil => exact ⟨rfl, h⟩
  | cons u us ih =>
      obtain ⟨hanswer, hnext⟩ := h.use hnet (huses u List.mem_cons_self)
      obtain ⟨hlog, hlast⟩ := ih hnext fun u' hu' => huses u' (List.mem_cons_of_mem u hu')
      refine ⟨?_, hlast⟩
      simp only [Shared.run, hanswer, hlog]

/-- The clones of a store on a server answer as those of a store in memory that keeps at the
start what the server keeps: no use fails, a load gives the text that was last saved under its
key, or else the one that was kept at the start, and all clones together open one connection. -/
theorem clones_answer_as_memory (hnet : (net a).Serves kept) {s : σ}
    (hs : (kept s).IsAddressable) {uses : List Use} (huses : ∀ u ∈ uses, u.IsAddressable) :
    ∃ log x y,
      (Shared.alone (.ofAddress a) s).run net uses = (log, x) ∧
      (Shared.alone (.memory (kept s)) s).run net uses = (log, y) ∧
      (∀ entry ∈ log, entry.2.isFailure = false) ∧
      (∀ before on key result after, log = before ++ (.load on key, .loaded result) :: after →
        result = .ok ((lastSaved key before).or ((kept s).load key))) ∧
      (∀ key, (kept x.network).load key = (lastSaved key log).or ((kept s).load key)) ∧
      y.store = .memory (kept x.network) ∧
      x.store.opened ≤ 1 := by
  have hstart : Mirrors kept a (Shared.alone (.ofAddress a) s)
      (Shared.alone (.memory (kept s)) s) := .intro 1 .initial s s (.inl rfl) hs
  obtain ⟨hlog, hend⟩ := hstart.run hnet huses
  obtain ⟨m, hstore, hanswers, hloads, hkeeps⟩ :=
    Shared.run_memory net (x := Shared.alone (.memory (kept s)) s) rfl uses
  have hm : m = kept ((Shared.alone (.ofAddress a) s).run net uses).2.network :=
    StateStore.memory.inj (hstore.symm.trans hend.store_eq)
  refine ⟨_, _, ((Shared.alone (.memory (kept s)) s).run net uses).2, rfl,
    Prod.ext hlog.symm rfl, ?_, ?_, ?_, hend.store_eq, hend.opened_le_one⟩
  · rw [hlog]
    exact hanswers
  · intro before on key result after hsplit
    exact hloads before on key result after (hlog.symm.trans hsplit)
  · intro key
    rw [← hm, hlog]
    exact hkeeps key

/-- Two clones at work on keys that differ by an end of line only, and on texts that are empty or
hold an end of line, a zero or quotes. -/
def quotedLog : List (Use × Answer) :=
  [(.load 0 "a", .loaded (.ok (some ""))),
    (.clone 0, .cloned),
    (.save 1 "a\r\n" "$-1\r\n", .saved (.ok ())),
    (.save 0 "" "\"\x00\"", .saved (.ok ())),
    (.load 1 "a", .loaded (.ok (some ""))),
    (.load 0 "a\r\n", .loaded (.ok (some "$-1\r\n"))),
    (.load 1 "", .loaded (.ok (some "\"\x00\""))),
    (.load 0 "b", .loaded (.ok none))]

theorem clones_answer_as_memory_quotedLog :
    ∃ x, (Shared.alone (.ofAddress ⟨.host (.name "cache".toList) 6379, 0, none, none⟩)
        ⟨[("a", "")]⟩).run (fun _ => Server.network) (quotedLog.map (·.1)) = (quotedLog, x) ∧
      x.store.opened ≤ 1 := by
  have hkept : Store.Memory.IsAddressable ⟨[("a", "")]⟩ := by
    intro key value hvalue
    have hempty : value = "" := by
      simp only [Store.Memory.load, Dictionary.get?] at hvalue
      split at hvalue
      · exact (Option.some.inj hvalue).symm
      · cases hvalue
    subst hempty
    decide +kernel
  have huses : ∀ u ∈ quotedLog.map (·.1), u.IsAddressable := by decide +kernel
  obtain ⟨log, x, y, hx, hy, -, -, -, -, hopened⟩ :=
    @clones_answer_as_memory _ (fun _ => Server.network) id
      ⟨.host (.name "cache".toList) 6379, 0, none, none⟩ Server.serves _ hkept _ huses
  have hlog : quotedLog = log := congrArg Prod.fst hy
  exact ⟨x, hlog ▸ hx, hopened⟩

end StateStore
end Redis
end SearchPolling
