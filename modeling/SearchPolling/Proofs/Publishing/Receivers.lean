import Mathlib.Data.List.Basic
import SearchPolling.Polling.Sink

/-!
# What receivers get

A sink remembers the latest of the events that were put into it, and a receiver remembers how
many there were when it last looked.  What a receiver has not read is therefore the end of the
history of the sink.  It gets these events in their order, unless they are more than the sink
holds: then it is told how many are lost, and gets the rest.
-/

namespace SearchPolling
namespace Polling
namespace Sink

variable {κ α : Type}

/-- A sink into which events were put in this order, the oldest first. -/
structure Holds (s : Sink κ α) (history : List α) : Prop where
  sent_eq : s.sent = history.length
  recent_eq : s.recent = history.reverse.take s.slots

/-- What is told to a receiver that has not read these events: the latest of them, as many as
there are slots, and before them how many are lost. -/
def told (slots : Nat) (unread : List α) : List (Delivery α) :=
  if unread.length ≤ slots then unread.map .event
  else .lagged (unread.length - slots) :: (unread.drop (unread.length - slots)).map .event

theorem told_of_le {slots : Nat} {unread : List α} (h : unread.length ≤ slots) :
    told slots unread = unread.map .event :=
  if_pos h

/-- What is told if no more than a number of entries is asked for. -/
def toldUpTo (slots : Nat) (most : Option Nat) (unread : List α) : List (Delivery α) :=
  match most with
  | some n => (told slots unread).take n
  | none => told slots unread

theorem exists_toldUpTo_eq_take (slots : Nat) (most : Option Nat) (unread : List α) :
    ∃ n, toldUpTo slots most unread = (told slots unread).take n := by
  cases most with
  | none => exact ⟨_, List.take_length.symm⟩
  | some n => exact ⟨n, rfl⟩

/-- How many events entries stand for. -/
def span : List (Delivery α) → Nat
  | [] => 0
  | .event _ :: entries => 1 + span entries
  | .lagged count :: entries => count + span entries

@[simp] theorem span_events (es : List α) : span (es.map .event) = es.length := by
  induction es with
  | nil => rfl
  | cons e es ih => rw [List.map_cons, span, ih, List.length_cons, Nat.add_comm]

theorem length_told_le (slots : Nat) (unread : List α) :
    (told slots unread).length ≤ min slots unread.length + 1 := by
  rw [told]
  split
  · rw [List.length_map]
    omega
  · rw [List.length_cons, List.length_map, List.length_drop]
    omega

/-- Entries do not stand for more events than were unread. -/
theorem span_toldUpTo_le (slots : Nat) (most : Option Nat) (unread : List α) :
    span (toldUpTo slots most unread) ≤ unread.length := by
  obtain ⟨n, hn⟩ := exists_toldUpTo_eq_take slots most unread
  rw [hn, told]
  split
  · rw [← List.map_take, span_events, List.length_take]
    omega
  · cases n with
    | zero => exact Nat.zero_le _
    | succ n =>
        rw [List.take_succ_cons, span, ← List.map_take, span_events, List.length_take,
          List.length_drop]
        omega

theorem holds_ofCapacity (capacity : Nat) : (ofCapacity capacity : Sink κ α).Holds [] where
  sent_eq := rfl
  recent_eq := (List.take_nil).symm

theorem slots_publish (s : Sink κ α) (e : α) : (s.publish e).2.slots = s.slots := by
  rw [publish]
  split <;> rfl

namespace Holds

variable {s : Sink κ α} {history past unread : List α}

theorem oldest_eq (h : s.Holds history) : s.oldest = history.length - s.slots := by
  rw [oldest, h.sent_eq, h.recent_eq, List.length_take, List.length_reverse]
  omega

theorem entryBound_eq (h : s.Holds history) :
    s.entryBound = min s.slots history.length + 1 := by
  rw [entryBound, h.recent_eq, List.length_take, List.length_reverse]

theorem put (h : s.Holds history) (e : α) :
    Holds { s with sent := s.sent + 1, recent := (e :: s.recent).take s.slots }
      (history ++ [e]) where
  sent_eq := by
    rw [List.length_append, List.length_singleton, ← h.sent_eq]
  recent_eq := by
    rw [h.recent_eq, List.reverse_concat]
    cases hslots : s.slots with
    | zero => rfl
    | succ n => simp [List.take_take]

/-- An event that nobody would receive is not put in. -/
theorem publish (h : s.Holds history) (e : α) :
    (s.publish e).2.Holds (if s.cursors = [] then history else history ++ [e]) := by
  rw [Sink.publish]
  by_cases hnobody : s.cursors = []
  · rw [if_pos hnobody, if_pos (List.isEmpty_iff.mpr hnobody)]
    exact h
  · rw [if_neg hnobody, if_neg (fun hempty => hnobody (List.isEmpty_iff.mp hempty))]
    exact h.put e

/-! ## Reading -/

/-- An event that is held is found by its position. -/
theorem next?_held {e : α} (h : s.Holds (past ++ e :: unread)) (hfit : unread.length < s.slots) :
    s.next? past.length = some (.event e, past.length + 1) := by
  have hoff : s.sent - 1 - past.length = unread.length := by
    rw [h.sent_eq, List.length_append, List.length_cons]
    omega
  have hheld : ¬past.length < s.oldest := by
    rw [h.oldest_eq, List.length_append, List.length_cons]
    omega
  have hsent : past.length < s.sent := by
    rw [h.sent_eq, List.length_append, List.length_cons]
    omega
  have hentry : s.recent[unread.length]? = some e := by
    rw [h.recent_eq, List.getElem?_take_of_lt hfit, List.reverse_append, List.reverse_cons,
      List.append_assoc, List.getElem?_append_right (by simp)]
    simp
  rw [next?, if_neg hheld, if_pos hsent, hoff, hentry]
  rfl

theorem next?_end (h : s.Holds history) : s.next? history.length = none := by
  have hheld : ¬history.length < s.oldest := by
    rw [h.oldest_eq]
    omega
  rw [next?, if_neg hheld, if_neg (by rw [h.sent_eq]; omega)]

theorem next?_lost (h : s.Holds (past ++ unread)) (hlost : s.slots < unread.length) :
    s.next? past.length =
      some (.lagged (unread.length - s.slots), past.length + (unread.length - s.slots)) := by
  have holdest : s.oldest = past.length + (unread.length - s.slots) := by
    rw [h.oldest_eq, List.length_append]
    omega
  rw [next?, holdest, if_pos (by omega), Nat.add_sub_cancel_left]

/-- Events that are all held are received one after another. -/
theorem collect_held (h : s.Holds (past ++ unread)) (hfit : unread.length ≤ s.slots) (n : Nat) :
    s.collect n past.length =
      ((unread.take n).map .event, past.length + min n unread.length) := by
  -- Each event that is read moves from the unread ones to the past.
  induction unread generalizing past n with
  | nil =>
      rw [List.append_nil] at h
      cases n with
      | zero => rfl
      | succ n => rw [collect, h.next?_end]; simp
  | cons e unread ih =>
      cases n with
      | zero => simp [collect]
      | succ n =>
          rw [List.length_cons] at hfit
          have hrest : s.Holds ((past ++ [e]) ++ unread) := by simpa using h
          have hcollect := ih hrest (by omega) n
          rw [List.length_append, List.length_singleton] at hcollect
          rw [collect, h.next?_held (by omega)]
          simp only [hcollect, List.take_succ_cons, List.map_cons, List.length_cons]
          rw [Nat.succ_min_succ, Nat.add_right_comm, Nat.add_assoc]

/-- A receiver gets what it is to be told, as far as it asks for it, and reads on after that. -/
theorem collect (h : s.Holds (past ++ unread)) (n : Nat) :
    s.collect n past.length = ((told s.slots unread).take n,
      past.length + span ((told s.slots unread).take n)) := by
  rw [told]
  split
  · next hfit =>
      rw [h.collect_held hfit, ← List.map_take, span_events, List.length_take]
  · next hlost =>
      cases n with
      | zero => rfl
      | succ n =>
          -- What is lost is counted among the past; the rest fits the slots.
          have hsplit : unread.take (unread.length - s.slots) ++
              unread.drop (unread.length - s.slots) = unread := List.take_append_drop _ _
          have hrest : s.Holds ((past ++ unread.take (unread.length - s.slots)) ++
              unread.drop (unread.length - s.slots)) := by
            rw [List.append_assoc, hsplit]
            exact h
          have hcollect := hrest.collect_held (by rw [List.length_drop]; omega) n
          rw [List.length_append, List.length_take, Nat.min_eq_left (by omega)] at hcollect
          rw [Sink.collect, h.next?_lost (by omega)]
          simp only [hcollect, List.take_succ_cons, span, ← List.map_take, span_events,
            List.length_take, Nat.add_assoc]

end Holds

/-! ## Cursors -/

section

variable [DecidableEq κ] {name other : κ}

theorem cursor?_unsubscribe (s : Sink κ α) (name other : κ) :
    (s.unsubscribe other).cursor? name = if name = other then none else s.cursor? name := by
  simp only [cursor?, unsubscribe]
  induction s.cursors with
  | nil => simp
  | cons c cursors ih =>
      by_cases hother : c.1 = other
      · rw [List.filter_cons_of_neg (by simpa using hother), ih, List.lookup_cons]
        by_cases hname : name = other
        · rw [if_pos hname, if_pos hname]
        · have hne : (name == c.1) = false := beq_eq_false_iff_ne.mpr (hother ▸ hname)
          rw [if_neg hname, if_neg hname, hne]
      · rw [List.filter_cons_of_pos (by simpa using hother), List.lookup_cons, List.lookup_cons, ih]
        by_cases hname : name = c.1
        · subst hname
          simp [hother]
        · have hne : (name == c.1) = false := beq_eq_false_iff_ne.mpr hname
          rw [hne]

theorem cursor?_subscribe (s : Sink κ α) (name other : κ) :
    (s.subscribe other).cursor? name = if name = other then some s.sent else s.cursor? name := by
  have hrest := s.cursor?_unsubscribe name other
  rw [cursor?] at hrest
  by_cases hname : name = other
  · subst hname
    rw [cursor?, subscribe, List.lookup_cons, beq_self_eq_true, if_pos rfl]
  · rw [cursor?, subscribe, List.lookup_cons, beq_eq_false_iff_ne.mpr hname, hrest,
      if_neg hname, if_neg hname]

theorem cursor?_publish (s : Sink κ α) (name : κ) (e : α) :
    (s.publish e).2.cursor? name = s.cursor? name := by
  rw [publish]
  split <;> rfl

theorem cursor?_moveCursor (s : Sink κ α) (name other : κ) (position : Nat) :
    (s.moveCursor other position).cursor? name =
      if name = other then (s.cursor? name).map fun _ => position else s.cursor? name := by
  simp only [cursor?, moveCursor]
  induction s.cursors with
  | nil => simp
  | cons c cursors ih =>
      rw [List.map_cons, List.lookup_cons, List.lookup_cons, ih]
      by_cases hname : name = c.1
      · subst hname
        by_cases hother : c.1 = other <;> simp [hother]
      · have hne : (name == c.1) = false := beq_eq_false_iff_ne.mpr hname
        have hkey : (if c.1 = other then (c.1, position) else c).1 = c.1 := by split <;> rfl
        rw [hkey, hne]

/-- A receiver moves its own cursor only. -/
theorem exists_moveCursor_of_receive {s s' : Sink κ α} {most : Option Nat}
    {entries : List (Delivery α)} (h : s.receive name most = some (entries, s')) :
    ∃ position, s' = s.moveCursor name position := by
  simp only [receive, Option.map_eq_some_iff] at h
  obtain ⟨position, -, hmoved⟩ := h
  exact ⟨_, (Prod.mk.inj hmoved).2.symm⟩

/-- A receiver that subscribed has not read these events. -/
def Follows (s : Sink κ α) (name : κ) (unread : List α) : Prop :=
  ∃ past, s.Holds (past ++ unread) ∧ s.cursor? name = some past.length

variable {s : Sink κ α} {history unread : List α}

theorem follows_subscribe (h : s.Holds history) (name : κ) :
    (s.subscribe name).Follows name [] := by
  refine ⟨history, ?_, ?_⟩
  · rw [List.append_nil]
    exact ⟨h.sent_eq, h.recent_eq⟩
  · rw [cursor?_subscribe, if_pos rfl, h.sent_eq]

namespace Follows

theorem publish (h : s.Follows name unread) (e : α) :
    (s.publish e).2.Follows name (unread ++ [e]) := by
  obtain ⟨past, hholds, hcursor⟩ := h
  have hsomebody : s.cursors ≠ [] := by
    intro hnobody
    rw [cursor?, hnobody] at hcursor
    cases hcursor
  refine ⟨past, ?_, (s.cursor?_publish name e).trans hcursor⟩
  have hput := hholds.publish e
  rwa [if_neg hsomebody, List.append_assoc] at hput

theorem publishAll (h : s.Follows name unread) (es : List α) :
    (es.foldl (fun k e => (k.publish e).2) s).Follows name (unread ++ es) := by
  induction es generalizing s unread with
  | nil => rwa [List.append_nil]
  | cons e es ih =>
      have hrest := ih (h.publish e)
      rwa [List.append_assoc] at hrest

theorem unsubscribe_other (h : s.Follows name unread) (hne : name ≠ other) :
    (s.unsubscribe other).Follows name unread := by
  obtain ⟨past, hholds, hcursor⟩ := h
  exact ⟨past, ⟨hholds.sent_eq, hholds.recent_eq⟩, by rwa [cursor?_unsubscribe, if_neg hne]⟩

theorem subscribe_other (h : s.Follows name unread) (hne : name ≠ other) :
    (s.subscribe other).Follows name unread := by
  obtain ⟨past, hholds, hcursor⟩ := h
  exact ⟨past, ⟨hholds.sent_eq, hholds.recent_eq⟩, by rwa [cursor?_subscribe, if_neg hne]⟩

theorem moveCursor_other (h : s.Follows name unread) (hne : name ≠ other) (position : Nat) :
    (s.moveCursor other position).Follows name unread := by
  obtain ⟨past, hholds, hcursor⟩ := h
  exact ⟨past, ⟨hholds.sent_eq, hholds.recent_eq⟩, by rwa [cursor?_moveCursor, if_neg hne]⟩

/-- What others receive is not taken from a receiver. -/
theorem receive_other (h : s.Follows name unread) (hne : name ≠ other) {most : Option Nat}
    {entries : List (Delivery α)} {s' : Sink κ α}
    (hreceive : s.receive other most = some (entries, s')) : s'.Follows name unread := by
  obtain ⟨position, rfl⟩ := exists_moveCursor_of_receive hreceive
  exact h.moveCursor_other hne position

/-- A receiver gets what it is to be told, as far as it asks for it, and what this stands for
is no longer unread. -/
theorem receive (h : s.Follows name unread) (most : Option Nat) :
    ∃ s' : Sink κ α, s.receive name most = some (toldUpTo s.slots most unread, s') ∧
      s'.Follows name (unread.drop (span (toldUpTo s.slots most unread))) := by
  obtain ⟨past, hholds, hcursor⟩ := h
  have hreceive : s.receive name most = some (toldUpTo s.slots most unread,
      s.moveCursor name (past.length + span (toldUpTo s.slots most unread))) := by
    have hall : (told s.slots unread).take s.entryBound = told s.slots unread := by
      have hlength := length_told_le s.slots unread
      have hbound := hholds.entryBound_eq
      rw [List.length_append] at hbound
      exact List.take_of_length_le (by omega)
    simp only [Sink.receive, hcursor, Option.map_some, hholds.collect]
    cases most with
    | none => simp only [hall, toldUpTo]
    | some n => simp only [← List.take_take, hall, toldUpTo]
  have hread := span_toldUpTo_le s.slots most unread
  generalize span (toldUpTo s.slots most unread) = read at hreceive hread ⊢
  refine ⟨_, hreceive, past ++ unread.take read, ?_, ?_⟩
  · rw [List.append_assoc, List.take_append_drop]
    exact ⟨hholds.sent_eq, hholds.recent_eq⟩
  · rw [cursor?_moveCursor, if_pos rfl, hcursor, List.length_append, List.length_take,
      Nat.min_eq_left hread]
    rfl

end Follows
end

end Sink
end Polling
end SearchPolling
