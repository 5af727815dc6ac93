import Mathlib.Algebra.GroupWithZero.Nat
import SearchPolling.Proofs.Publishing.Receivers

/-!
# Inboxes

A run of a sink is a list of uses, in any order, each with what came of it.  What a receiver is
told depends on what is published and on what the receiver itself does.  For this an inbox is
enough, which holds the events that the receiver has not read.

As long as a receiver stays, what it is told and what is left in its inbox are all events that
came in.  It gets an event, or the event is one of those that it is told are lost, or it has
yet to read it; and what it is told follows the order in which the events were published.
-/

namespace SearchPolling
namespace Polling

namespace Sink

variable {κ α : Type}

/-! ## Entries and the events they stand for -/

/-- Entries tell of events, in their order: each event is given or is one of the lost. -/
inductive Covers : List (Delivery α) → List α → Prop where
  | nil : Covers [] []
  | event (e : α) {entries : List (Delivery α)} {es : List α} (h : Covers entries es) :
    Covers (.event e :: entries) (e :: es)
  | lagged {lost : List α} (hlost : lost ≠ []) {entries : List (Delivery α)} {es : List α}
      (h : Covers entries es) :
    Covers (.lagged lost.length :: entries) (lost ++ es)

/-- The events that entries give. -/
def given (entries : List (Delivery α)) : List α :=
  entries.filterMap fun
    | .event e => some e
    | .lagged _ => none

/-- How many events are lost as entries tell. -/
def lost (entries : List (Delivery α)) : Nat :=
  (entries.map fun
    | .event _ => 0
    | .lagged count => count).sum

theorem span_eq (entries : List (Delivery α)) :
    span entries = (given entries).length + lost entries := by
  induction entries with
  | nil => rfl
  | cons entry entries ih =>
      cases entry <;> simp [span, given, lost] at ih ⊢ <;> omega

namespace Covers

variable {entries more : List (Delivery α)} {es fs : List α}

theorem span_eq (h : Covers entries es) : span entries = es.length := by
  induction h with
  | nil => rfl
  | event e _ ih => rw [span, ih, List.length_cons, Nat.add_comm]
  | lagged _ _ ih => rw [span, ih, List.length_append]

theorem append (h : Covers entries es) (h' : Covers more fs) :
    Covers (entries ++ more) (es ++ fs) := by
  induction h with
  | nil => exact h'
  | event e _ ih => exact .event e ih
  | lagged hlost _ ih =>
      rw [List.append_assoc]
      exact .lagged hlost ih

end Covers

theorem covers_events (es : List α) : Covers (es.map .event) es := by
  induction es with
  | nil => exact .nil
  | cons e es ih => exact .event e ih

/-- What a receiver is told stands for the first of the events that were unread. -/
theorem covers_toldUpTo (slots : Nat) (most : Option Nat) (unread : List α) :
    Covers (toldUpTo slots most unread)
      (unread.take (span (toldUpTo slots most unread))) := by
  obtain ⟨n, hn⟩ := exists_toldUpTo_eq_take slots most unread
  obtain ⟨read, hprefix, hcovers⟩ :
      ∃ read, read <+: unread ∧ Covers ((told slots unread).take n) read := by
    rw [told]
    split
    · exact ⟨unread.take n, List.take_prefix n unread, List.map_take ▸ covers_events _⟩
    · next hover =>
        cases n with
        | zero => exact ⟨[], List.nil_prefix, .nil⟩
        | succ n =>
            have hlength : (unread.take (unread.length - slots)).length =
                unread.length - slots := by
              rw [List.length_take]
              omega
            have hlost : unread.take (unread.length - slots) ≠ [] := by
              rw [← List.length_pos_iff, hlength]
              omega
            refine ⟨unread.take (unread.length - slots) ++
              (unread.drop (unread.length - slots)).take n, ?_, ?_⟩
            · rw [← List.take_add]
              exact List.take_prefix _ _
            · have hall := Covers.lagged hlost
                (covers_events ((unread.drop (unread.length - slots)).take n))
              rwa [hlength, List.map_take] at hall
  rw [hn, hcovers.span_eq, ← List.prefix_iff_eq_take.mp hprefix]
  exact hcovers

/-! ## Runs -/

/-- What may be done with a sink. -/
inductive Use (κ α : Type) where
  | subscribe (name : κ)
  | unsubscribe (name : κ)
  | publish (e : α)
  | receive (name : κ) (most : Option Nat)

/-- What comes of it. -/
inductive Answer (α : Type) where
  /-- So many receivers are there, or are reached. -/
  | receivers (count : Nat)
  | received (entries : List (Delivery α))
  /-- There is no receiver of the name. -/
  | unknown

namespace Use

/-- The receiver that a use is about. -/
def receiver? : Use κ α → Option κ
  | subscribe name => some name
  | unsubscribe name => some name
  | publish _ => none
  | receive name _ => some name

/-- The receiver that a use brings or takes away. -/
def turnover? : Use κ α → Option κ
  | subscribe name => some name
  | unsubscribe name => some name
  | _ => none

def event? : Use κ α → Option α
  | publish e => some e
  | _ => none

end Use

/-- The entries of an answer. -/
def Answer.entries : Answer α → List (Delivery α)
  | received entries => entries
  | _ => []

variable [DecidableEq κ]

def use (s : Sink κ α) : Use κ α → Answer α × Sink κ α
  | .subscribe name => (.receivers (s.subscribe name).subscriberCount, s.subscribe name)
  | .unsubscribe name => (.receivers (s.unsubscribe name).subscriberCount, s.unsubscribe name)
  | .publish e => (.receivers (s.publish e).1, (s.publish e).2)
  | .receive name most =>
    match s.receive name most with
    | none => (.unknown, s)
    | some (entries, s') => (.received entries, s')

def run (s : Sink κ α) (uses : List (Use κ α)) : Sink κ α :=
  uses.foldl (fun s u => (s.use u).2) s

/-- The uses of a sink with what came of them. -/
def log (s : Sink κ α) : List (Use κ α) → List (Use κ α × Answer α)
  | [] => []
  | u :: uses => (u, (s.use u).1) :: log (s.use u).2 uses

theorem run_cons (s : Sink κ α) (u : Use κ α) (uses : List (Use κ α)) :
    s.run (u :: uses) = (s.use u).2.run uses := rfl

theorem run_append (s : Sink κ α) (uses uses' : List (Use κ α)) :
    s.run (uses ++ uses') = (s.run uses).run uses' :=
  List.foldl_append

/-- What has been published, in its order. -/
def published (uses : List (Use κ α)) : List α :=
  uses.filterMap Use.event?

/-- The uses that publish or are about a receiver. -/
def own (name : κ) (uses : List (Use κ α)) : List (Use κ α) :=
  uses.filter fun u => u.receiver? = none ∨ u.receiver? = some name

/-- What came of a use if a receiver of this name was to receive. -/
def reply? (name : κ) : Use κ α × Answer α → Option (Answer α)
  | (.receive other _, answer) => if other = name then some answer else none
  | _ => none

/-- What came of it whenever a receiver of this name was to receive. -/
def replies (name : κ) (entries : List (Use κ α × Answer α)) : List (Answer α) :=
  entries.filterMap (reply? name)

/-- All entries that receivers of a name got. -/
def stream (name : κ) (entries : List (Use κ α × Answer α)) : List (Delivery α) :=
  (replies name entries).flatMap Answer.entries

/-! ## Inboxes -/

/-- What the receiver of a name has not read, if there is one. -/
abbrev Inbox (α : Type) := Option (List α)

namespace Inbox

variable (slots : Nat) (name : κ)

def use (inbox : Inbox α) : Use κ α → Inbox α
  | .subscribe other => if other = name then some [] else inbox
  | .unsubscribe other => if other = name then none else inbox
  | .publish e => inbox.map (· ++ [e])
  | .receive other most =>
    if other = name then
      inbox.map fun unread => unread.drop (span (toldUpTo slots most unread))
    else inbox

/-- What a receiver with an inbox is told. -/
def reply? (inbox : Inbox α) : Use κ α → Option (Answer α)
  | .receive other most =>
    if other = name then
      some (inbox.elim .unknown fun unread => .received (toldUpTo slots most unread))
    else none
  | _ => none

def run (inbox : Inbox α) (uses : List (Use κ α)) : Inbox α :=
  uses.foldl (use slots name) inbox

def replies (inbox : Inbox α) : List (Use κ α) → List (Answer α)
  | [] => []
  | u :: uses => (reply? slots name inbox u).toList ++ replies (use slots name inbox u) uses

variable {slots} {name}

/-- As long as a receiver stays it is told of all that it had not read and all that is published,
up to what it still has to read, and whenever it asks. -/
theorem accounts (unread : List α) {uses : List (Use κ α)}
    (hstays : ∀ u ∈ uses, u.turnover? ≠ some name) :
    ∃ told rest, unread ++ published uses = told ++ rest ∧
      Covers ((replies slots name (some unread) uses).flatMap Answer.entries) told ∧
      run slots name (some unread) uses = some rest ∧
      ∀ answer ∈ replies slots name (some unread) uses, ∃ entries, answer = .received entries := by
  induction uses generalizing unread with
  | nil => exact ⟨[], unread, List.append_nil unread, .nil, rfl, nofun⟩
  | cons u uses ih =>
      have hlater : ∀ u' ∈ uses, u'.turnover? ≠ some name :=
        fun u' hu' => hstays u' (List.mem_cons_of_mem u hu')
      have hnow := hstays u List.mem_cons_self
      cases u with
      | subscribe other =>
          have hother : other ≠ name := fun h => hnow (congrArg some h)
          simpa [replies, run, use, reply?, published, Use.event?, List.filterMap_cons, hother]
            using ih unread hlater
      | unsubscribe other =>
          have hother : other ≠ name := fun h => hnow (congrArg some h)
          simpa [replies, run, use, reply?, published, Use.event?, List.filterMap_cons, hother]
            using ih unread hlater
      | publish e =>
          simpa [replies, run, use, reply?, published, Use.event?] using
            ih (unread ++ [e]) hlater
      | receive other most =>
          by_cases hother : other = name
          · subst hother
            -- The events that are told of leave the unread ones.
            have htold := covers_toldUpTo slots most unread
            generalize hread : span (toldUpTo slots most unread) = read at htold
            obtain ⟨told, rest, hsplit, hcovers, hlast, hanswers⟩ :=
              ih (unread.drop read) hlater
            refine ⟨unread.take read ++ told, rest, ?_, ?_, ?_, ?_⟩
            · calc unread ++ published (.receive other most :: uses)
                  = unread.take read ++ (unread.drop read ++ published uses) := by
                    rw [← List.append_assoc, List.take_append_drop]
                    rfl
                _ = unread.take read ++ told ++ rest := by rw [hsplit, List.append_assoc]
            · simpa [replies, use, reply?, hread, Answer.entries] using htold.append hcovers
            · simpa [run, use, hread] using hlast
            · simpa [replies, use, reply?, hread] using hanswers
          · simpa [replies, run, use, reply?, published, Use.event?, List.filterMap_cons, hother]
              using ih unread hlater

/-- A receiver that never has more to read than there are slots is told of no loss. -/
theorem not_lagged {unread : List α} {uses : List (Use κ α)}
    (hstays : ∀ u ∈ uses, u.turnover? ≠ some name)
    (hfew : ∀ early, early <+: uses →
      ∀ left, run slots name (some unread) early = some left → left.length ≤ slots)
    (count : Nat) :
    .lagged count ∉ (replies slots name (some unread) uses).flatMap Answer.entries := by
  induction uses generalizing unread with
  | nil => exact List.not_mem_nil
  | cons u uses ih =>
      have hlater : ∀ u' ∈ uses, u'.turnover? ≠ some name :=
        fun u' hu' => hstays u' (List.mem_cons_of_mem u hu')
      have hnow := hstays u List.mem_cons_self
      have hfit : unread.length ≤ slots := hfew [] List.nil_prefix unread rfl
      obtain ⟨next, hnext⟩ : ∃ next, use slots name (some unread) u = some next := by
        have honly : ∀ v ∈ [u], v.turnover? ≠ some name := by simpa using hnow
        obtain ⟨-, rest, -, -, hrest, -⟩ := @accounts κ α _ slots name unread [u] honly
        exact ⟨rest, hrest⟩
      have hrest := @ih next hlater fun early hearly left hleft =>
        hfew (u :: early) (List.cons_prefix_cons.mpr ⟨rfl, hearly⟩) left
          (by rwa [run, List.foldl_cons, hnext])
      rw [replies, hnext, List.flatMap_append, List.mem_append, not_or]
      refine ⟨?_, hrest⟩
      cases u with
      | receive other most =>
          obtain ⟨n, hn⟩ := exists_toldUpTo_eq_take slots most unread
          rw [told_of_le hfit, ← List.map_take] at hn
          by_cases hother : other = name
          · simp [reply?, hother, Answer.entries, hn, -List.map_take]
          · simp [reply?, hother]
      | _ => exact List.not_mem_nil

/-- What a receiver is told depends on nothing but what is published and its own doing. -/
theorem replies_own (inbox : Inbox α) (uses : List (Use κ α)) :
    replies slots name inbox (own name uses) = replies slots name inbox uses := by
  induction uses generalizing inbox with
  | nil => rfl
  | cons u uses ih =>
      by_cases hown : u.receiver? = none ∨ u.receiver? = some name
      · rw [own, List.filter_cons_of_pos (by simpa using hown), replies, replies]
        exact congrArg _ (ih _)
      · rw [own, List.filter_cons_of_neg (by simpa using hown), replies]
        cases u with
        | publish e => exact absurd (.inl rfl) hown
        | subscribe other | unsubscribe other | receive other most =>
            have hother : other ≠ name := fun h => hown (.inr (congrArg some h))
            simp only [use, reply?, if_neg hother]
            exact ih inbox

end Inbox

end Sink
end Polling
end SearchPolling
