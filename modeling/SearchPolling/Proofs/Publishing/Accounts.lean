import Mathlib.Data.Finset.Card
import Mathlib.Order.Bounds.Basic
import SearchPolling.Proofs.Publishing.Inboxes

/-!
# Accounts of receivers

Whatever is done with a sink, in any order, a receiver is told of every event that is published
while it is there.  A receiver of a sink cannot be told from one with an inbox of its own, so
receivers do not affect one another.
-/

namespace SearchPolling
namespace Polling

/-! ## Slots -/

/-- A sink has as many slots as the least power of two that is not below its capacity. -/
theorem isLeast_powerOfTwoFrom (n : Nat) :
    IsLeast {m | (∃ k, m = 2 ^ k) ∧ n ≤ m} (powerOfTwoFrom n) := by
  rw [powerOfTwoFrom]
  split
  · next hle =>
      refine ⟨⟨⟨0, rfl⟩, hle⟩, ?_⟩
      rintro m ⟨⟨k, rfl⟩, -⟩
      exact Nat.one_le_two_pow
  · next hlt =>
      rw [Nat.one_shiftLeft]
      have habove : n - 1 < 2 ^ ((n - 1).log2 + 1) := Nat.lt_log2_self
      refine ⟨⟨⟨_, rfl⟩, by omega⟩, ?_⟩
      rintro m ⟨⟨k, rfl⟩, hm⟩
      have hlog : (n - 1).log2 < k := (Nat.log2_lt (by omega)).mpr (by omega)
      exact Nat.pow_le_pow_right (by decide) hlog

namespace Sink

variable {κ α : Type} [DecidableEq κ]

/-! ## Receivers and their inboxes -/

/-- How many events a receiver of this name has not read. -/
def unreadCount (s : Sink κ α) (name : κ) : Nat :=
  match s.cursor? name with
  | some position => s.sent - position
  | none => 0

theorem Follows.unreadCount_eq {s : Sink κ α} {name : κ} {unread : List α}
    (h : s.Follows name unread) : s.unreadCount name = unread.length := by
  obtain ⟨past, hholds, hcursor⟩ := h
  simp only [unreadCount, hcursor, hholds.sent_eq, List.length_append]
  exact Nat.add_sub_cancel_left past.length unread.length

/-- A sink whose receiver of a name has unread what is in an inbox. -/
def Tracks (s : Sink κ α) (name : κ) : Inbox α → Prop
  | none => (∃ history, s.Holds history) ∧ s.cursor? name = none
  | some unread => s.Follows name unread

theorem slots_use (s : Sink κ α) (u : Use κ α) : (s.use u).2.slots = s.slots := by
  cases u with
  | subscribe name => rfl
  | unsubscribe name => rfl
  | publish e => exact s.slots_publish e
  | receive name most =>
      simp only [use]
      split
      · rfl
      · next hreceive =>
          obtain ⟨position, rfl⟩ := exists_moveCursor_of_receive hreceive
          rfl

namespace Tracks

variable {s : Sink κ α} {name : κ} {inbox : Inbox α}

theorem holds (h : s.Tracks name inbox) : ∃ history, s.Holds history := by
  cases inbox with
  | none => exact h.1
  | some unread =>
      obtain ⟨past, hholds, -⟩ := h
      exact ⟨_, hholds⟩

theorem subscribe (h : s.Tracks name inbox) (other : κ) :
    (s.subscribe other).Tracks name (if other = name then some [] else inbox) := by
  obtain ⟨history, hholds⟩ := h.holds
  by_cases hother : other = name
  · subst hother
    rw [if_pos rfl]
    exact follows_subscribe hholds other
  · rw [if_neg hother]
    cases inbox with
    | none =>
        refine ⟨⟨history, hholds.sent_eq, hholds.recent_eq⟩, ?_⟩
        rw [cursor?_subscribe, if_neg (Ne.symm hother)]
        exact h.2
    | some unread => exact Follows.subscribe_other h (Ne.symm hother)

theorem unsubscribe (h : s.Tracks name inbox) (other : κ) :
    (s.unsubscribe other).Tracks name (if other = name then none else inbox) := by
  obtain ⟨history, hholds⟩ := h.holds
  by_cases hother : other = name
  · subst hother
    rw [if_pos rfl]
    refine ⟨⟨history, hholds.sent_eq, hholds.recent_eq⟩, ?_⟩
    rw [cursor?_unsubscribe, if_pos rfl]
  · rw [if_neg hother]
    cases inbox with
    | none =>
        refine ⟨⟨history, hholds.sent_eq, hholds.recent_eq⟩, ?_⟩
        rw [cursor?_unsubscribe, if_neg (Ne.symm hother)]
        exact h.2
    | some unread => exact Follows.unsubscribe_other h (Ne.symm hother)

theorem publish (h : s.Tracks name inbox) (e : α) :
    (s.publish e).2.Tracks name (inbox.map (· ++ [e])) := by
  cases inbox with
  | none =>
      obtain ⟨history, hholds⟩ := h.1
      exact ⟨⟨_, hholds.publish e⟩, (s.cursor?_publish name e).trans h.2⟩
  | some unread => exact Follows.publish h e

theorem moveCursor_other (h : s.Tracks name inbox) {other : κ} (hother : name ≠ other)
    (position : Nat) : (s.moveCursor other position).Tracks name inbox := by
  cases inbox with
  | none =>
      obtain ⟨history, hholds⟩ := h.1
      refine ⟨⟨history, hholds.sent_eq, hholds.recent_eq⟩, ?_⟩
      rw [cursor?_moveCursor, if_neg hother]
      exact h.2
  | some unread => exact Follows.moveCursor_other h hother position

/-- A use does to a receiver what it does to its inbox. -/
theorem use (h : s.Tracks name inbox) (u : Use κ α) :
    (s.use u).2.Tracks name (Inbox.use s.slots name inbox u) ∧
      Sink.reply? name (u, (s.use u).1) = Inbox.reply? s.slots name inbox u := by
  cases u with
  | subscribe other => exact ⟨h.subscribe other, rfl⟩
  | unsubscribe other => exact ⟨h.unsubscribe other, rfl⟩
  | publish e => exact ⟨h.publish e, rfl⟩
  | receive other most =>
      by_cases hother : other = name
      · subst hother
        simp only [Sink.use, Sink.reply?, Inbox.use, Inbox.reply?, if_true]
        cases inbox with
        | none =>
            have hnobody : s.receive other most = none := by
              rw [receive.eq_def, h.2]
              rfl
            rw [hnobody]
            exact ⟨h, rfl⟩
        | some unread =>
            obtain ⟨s', hreceive, hrest⟩ := Follows.receive h most
            rw [hreceive]
            exact ⟨hrest, rfl⟩
      · simp only [Sink.use, Sink.reply?, Inbox.use, Inbox.reply?, if_neg hother, and_true]
        split
        · exact h
        · next hreceive =>
            obtain ⟨position, rfl⟩ := exists_moveCursor_of_receive hreceive
            exact h.moveCursor_other (Ne.symm hother) position

/-- A run does to a receiver what it does to its inbox. -/
theorem run (h : s.Tracks name inbox) (uses : List (Use κ α)) :
    (s.run uses).Tracks name (Inbox.run s.slots name inbox uses) ∧
      Sink.replies name (s.log uses) = Inbox.replies s.slots name inbox uses := by
  induction uses generalizing s inbox with
  | nil => exact ⟨h, rfl⟩
  | cons u uses ih =>
      obtain ⟨hnext, hreply⟩ := h.use u
      obtain ⟨hlast, hreplies⟩ := ih hnext
      rw [s.slots_use u] at hlast hreplies
      refine ⟨hlast, ?_⟩
      rw [Inbox.replies, ← hreply, ← hreplies, Sink.replies, Sink.replies, log,
        List.filterMap_cons]
      cases Sink.reply? name (u, (s.use u).1) <;> rfl

end Tracks

/-! ## Those who are there -/

/-- The receivers that there are after a use. -/
def Use.subscribers (names : Finset κ) : Use κ α → Finset κ
  | subscribe name => insert name names
  | unsubscribe name => names.erase name
  | _ => names

/-- The receivers that there are after uses. -/
def subscribers (uses : List (Use κ α)) : Finset κ :=
  uses.foldl Use.subscribers ∅

/-- A sink that has one cursor for each of these names. -/
def Serves (s : Sink κ α) (names : Finset κ) : Prop :=
  (s.cursors.map Prod.fst).Nodup ∧ (s.cursors.map Prod.fst).toFinset = names

namespace Serves

variable {s : Sink κ α} {names : Finset κ}

theorem publish (h : s.Serves names) (e : α) : (s.publish e).1 = names.card := by
  have hcount : s.cursors.length = names.card := by
    rw [← h.2, List.toFinset_card_of_nodup h.1, List.length_map]
  rw [Sink.publish]
  split
  · next hnobody => rw [← hcount, List.isEmpty_iff.mp hnobody, List.length_nil]
  · exact hcount

theorem unsubscribe (h : s.Serves names) (name : κ) :
    (s.unsubscribe name).Serves (names.erase name) := by
  have hnames : (s.unsubscribe name).cursors.map Prod.fst =
      (s.cursors.map Prod.fst).filter (· ≠ name) := by
    rw [List.filter_map]
    rfl
  refine ⟨hnames ▸ h.1.filter _, ?_⟩
  rw [hnames, List.toFinset_filter, h.2, ← Finset.filter_ne' names name]
  simp

theorem subscribe (h : s.Serves names) (name : κ) :
    (s.subscribe name).Serves (insert name names) := by
  obtain ⟨hnodup, hnames⟩ := h.unsubscribe name
  have hcons : (s.subscribe name).cursors.map Prod.fst =
      name :: (s.unsubscribe name).cursors.map Prod.fst := rfl
  rw [Serves, hcons]
  refine ⟨List.nodup_cons.mpr ⟨?_, hnodup⟩, ?_⟩
  · rw [← List.mem_toFinset, hnames]
    exact Finset.notMem_erase name names
  · rw [List.toFinset_cons, hnames]
    by_cases hmem : name ∈ names
    · rw [Finset.insert_erase hmem, Finset.insert_eq_of_mem hmem]
    · rw [Finset.erase_eq_of_notMem hmem]

theorem moveCursor (h : s.Serves names) (name : κ) (position : Nat) :
    (s.moveCursor name position).Serves names := by
  have hsame : (s.moveCursor name position).cursors.map Prod.fst = s.cursors.map Prod.fst := by
    rw [Sink.moveCursor, List.map_map]
    refine List.map_congr_left fun c _ => ?_
    simp only [Function.comp]
    split <;> rfl
  rw [Serves, hsame]
  exact h

theorem use (h : s.Serves names) (u : Use κ α) : (s.use u).2.Serves (u.subscribers names) := by
  cases u with
  | subscribe name => exact h.subscribe name
  | unsubscribe name => exact h.unsubscribe name
  | publish e =>
      simp only [Sink.use, Sink.publish]
      split <;> exact h
  | receive name most =>
      simp only [Sink.use]
      split
      · exact h
      · next hreceive =>
          obtain ⟨position, rfl⟩ := exists_moveCursor_of_receive hreceive
          exact h.moveCursor name position

theorem run (h : s.Serves names) (uses : List (Use κ α)) :
    (s.run uses).Serves (uses.foldl Use.subscribers names) := by
  induction uses generalizing s names with
  | nil => exact h
  | cons u uses ih => exact ih (h.use u)

end Serves

theorem tracks_ofCapacity (c : Nat) (name : κ) :
    (ofCapacity c : Sink κ α).Tracks name none :=
  ⟨⟨[], holds_ofCapacity c⟩, rfl⟩

theorem slots_run (s : Sink κ α) (uses : List (Use κ α)) : (s.run uses).slots = s.slots := by
  induction uses generalizing s with
  | nil => rfl
  | cons u uses ih => rw [run_cons, ih, slots_use]

/-- A receiver is told of all events that are published from when it subscribes, in their order
and without gap or repetition, up to those that it has not read; whenever it asks it is
answered.  If it never has more to read than there are slots it loses nothing.  Publishing
reaches all who are there, and what a receiver is told does not depend on what others do. -/
theorem receivers_lose_nothing_silently {c : Nat} {sink : Sink κ α}
    (hsink : ofCapacity? c = some sink) {name : κ} (before : List (Use κ α))
    {after : List (Use κ α)} (hstays : ∀ u ∈ after, u.turnover? ≠ some name) :
    let s := sink.run (before ++ [.subscribe name])
    let entries := stream name (s.log after)
    IsLeast {m | (∃ k, m = 2 ^ k) ∧ max c 1 ≤ m} s.slots ∧
      (∃ told unread, published after = told ++ unread ∧ Covers entries told ∧
        (s.run after).unreadCount name = unread.length) ∧
      (given entries).length + lost entries + (s.run after).unreadCount name =
        (published after).length ∧
      (∀ answer ∈ replies name (s.log after), ∃ entries, answer = .received entries) ∧
      ((∀ early, early <+: after → (s.run early).unreadCount name ≤ s.slots) →
        ∀ count, .lagged count ∉ entries) ∧
      (∀ uses e, ((sink.run uses).publish e).1 = (subscribers uses).card) ∧
      ∀ uses uses', own name uses = own name uses' →
        replies name (sink.log uses) = replies name (sink.log uses') := by
  intro s entries
  obtain rfl : sink = ofCapacity c := by
    rw [ofCapacity?] at hsink
    split at hsink
    · exact (Option.some.inj hsink).symm
    · cases hsink
  have htracks := tracks_ofCapacity (α := α) c name
  -- Right after it has subscribed the receiver has an empty inbox.
  have hnew : s.Tracks name (some []) := by
    have hsubscribed := (htracks.run before).1.subscribe name
    rw [if_pos rfl] at hsubscribed
    have hs : s = ((ofCapacity c : Sink κ α).run before).subscribe name := by
      rw [show s = _ from run_append _ before [.subscribe name]]
      rfl
    rwa [hs]
  have hslots : s.slots = powerOfTwoFrom (max c 1) := slots_run _ _
  have hreplies (uses : List (Use κ α)) := (hnew.run uses).2
  obtain ⟨told, unread, hsplit, hcovers, hlast, hanswers⟩ :=
    @Inbox.accounts κ α _ s.slots name [] after hstays
  rw [List.nil_append] at hsplit
  have hentries : Covers entries told := by
    rw [← hreplies after] at hcovers
    exact hcovers
  have hunread : (s.run after).unreadCount name = unread.length := by
    have hend := (hnew.run after).1
    rw [hlast] at hend
    exact Follows.unreadCount_eq hend
  refine ⟨hslots ▸ isLeast_powerOfTwoFrom _, ⟨told, unread, hsplit, hentries, hunread⟩, ?_, ?_,
    ?_, ?_, ?_⟩
  · rw [← span_eq, hentries.span_eq, hunread, hsplit, List.length_append]
  · rw [hreplies after]
    exact hanswers
  · intro hfew count
    have hroom : ∀ early, early <+: after → ∀ left,
        Inbox.run s.slots name (some []) early = some left → left.length ≤ s.slots := by
      intro early hearly left hleft
      have hnow := (hnew.run early).1
      rw [hleft] at hnow
      have hcount := hfew early hearly
      rwa [Follows.unreadCount_eq hnow] at hcount
    have hnone := @Inbox.not_lagged κ α _ s.slots name [] after hstays hroom count
    rwa [← hreplies after] at hnone
  · intro uses e
    have hnobody : (ofCapacity c : Sink κ α).Serves ∅ := ⟨List.nodup_nil, rfl⟩
    exact (hnobody.run uses).publish e
  · intro uses uses' hown
    rw [(htracks.run uses).2, (htracks.run uses').2, ← Inbox.replies_own, hown,
      Inbox.replies_own]

/-- A receiver falls behind in a sink of four slots while another keeps up, loses two events, and
goes on; it has one event left to read. -/
theorem two_lost_of_eight :
    let sink : Sink Nat Nat := ofCapacity 3
    let before : List (Use Nat Nat) := [.subscribe 1, .publish 0]
    let after : List (Use Nat Nat) := [.publish 1, .publish 2, .receive 1 none, .publish 3,
      .publish 4, .publish 5, .receive 1 (some 9), .publish 6, .receive 0 (some 2),
      .unsubscribe 1, .publish 7, .receive 0 none, .publish 8]
    let s := sink.run (before ++ [.subscribe 0])
    let entries := stream 0 (s.log after)
    (∀ u ∈ after, u.turnover? ≠ some 0) ∧ IsLeast {m | (∃ k, m = 2 ^ k) ∧ 3 ≤ m} s.slots ∧
      given entries = [3, 4, 5, 6, 7] ∧ lost entries = 2 ∧
      (given entries).length + lost entries + (s.run after).unreadCount 0 = 8 ∧
      ((sink.run (before ++ [.subscribe 0])).publish 9).1 = 2 := by
  intro sink before after s entries
  have hsink : ofCapacity? 3 = some sink := if_pos (by decide)
  have hstays : ∀ u ∈ after, u.turnover? ≠ some 0 := by decide
  obtain ⟨hslots, -, hcount, -, -, hreached, -⟩ :=
    receivers_lose_nothing_silently hsink before hstays
  have hgiven : given entries = [3, 4, 5, 6, 7] ∧ lost entries = 2 := by decide +kernel
  exact ⟨hstays, hslots, hgiven.1, hgiven.2, hcount, (hreached _ 9).trans (by decide)⟩

end Sink
end Polling
end SearchPolling
