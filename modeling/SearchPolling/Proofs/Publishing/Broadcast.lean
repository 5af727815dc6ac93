import SearchPolling.Proofs.Publishing.Receivers
import SearchPolling.Proofs.Queries.Publication

/-!
# Receivers of a service

What a service publishes goes into its sink, in its order, as long as there are receivers.
Without receivers the sink stays as it is.  A receiver has unread what was published since it
last looked, whatever others do.
-/

namespace SearchPolling
namespace Polling

/-- The receiver that an action is about. -/
def Action.receiver? {κ : Type} : Action κ → Option κ
  | .subscribe name => some name
  | .unsubscribe name => some name
  | .receive name _ => some name
  | _ => none

namespace Sink

variable {κ α : Type}

theorem publish_of_nobody {s : Sink κ α} (h : s.cursors = []) (e : α) : (s.publish e).2 = s := by
  rw [publish, if_pos (List.isEmpty_iff.mpr h)]

theorem slots_publishAll (s : Sink κ α) (es : List α) :
    (es.foldl (fun k e => (k.publish e).2) s).slots = s.slots := by
  induction es generalizing s with
  | nil => rfl
  | cons e es ih => rw [List.foldl_cons, ih, slots_publish]

theorem publishAll_of_nobody {s : Sink κ α} (h : s.cursors = []) (es : List α) :
    es.foldl (fun k e => (k.publish e).2) s = s := by
  induction es with
  | nil => rfl
  | cons e es ih => rw [List.foldl_cons, publish_of_nobody h, ih]

end Sink

namespace Service

variable {κ : Type} [DecidableEq κ] {s : Service κ} {a : Action κ}

/-- What a step publishes goes into the sink, unless the step is about a receiver. -/
theorem sink_step (h : a.receiver? = none) :
    (s.step a).sink = (s.published a).foldl (fun k e => (k.publish e).2) s.sink := by
  have hbase : (s.base a).engine.sink = s.sink := by
    cases a with
    | command c =>
        simp only [base]
        split <;> rfl
    | tick generation =>
        simp only [base]
        split <;> rfl
    | answer place result =>
        simp only [base]
        split <;> rfl
    | claim place =>
        simp only [base]
        split <;> rfl
    | subscribe name => cases h
    | unsubscribe name => cases h
    | receive name most => cases h
    | _ => rfl
  rw [sink, step_placed, Engine.performAll_sink, hbase]
  rfl

omit [DecidableEq κ] in
/-- A step that is about a receiver publishes nothing. -/
theorem published_of_receiver {name : κ} (h : a.receiver? = some name) : s.published a = [] := by
  cases a with
  | subscribe name => rfl
  | unsubscribe name => rfl
  | receive name most => rfl
  | _ => cases h

theorem slots_step (s : Service κ) (a : Action κ) : (s.step a).sink.slots = s.sink.slots := by
  cases hreceiver : a.receiver? with
  | none => rw [sink_step hreceiver, Sink.slots_publishAll]
  | some name =>
      cases a with
      | subscribe name => rfl
      | unsubscribe name => rfl
      | receive name most =>
          simp only [step]
          split
          · rfl
          · next hreceive =>
              obtain ⟨position, rfl⟩ := Sink.exists_moveCursor_of_receive hreceive
              rfl
      | _ => cases hreceiver

theorem slots_run (s : Service κ) (as : List (Action κ)) :
    (s.run as).sink.slots = s.sink.slots :=
  run_preserves (P := fun t => t.sink.slots = s.sink.slots)
    (fun t a ht => (t.slots_step a).trans ht) rfl as

/-- Where nobody listens, what is published leaves no trace in the sink. -/
theorem sink_run_of_nobody (h : s.sink.cursors = []) {as : List (Action κ)}
    (has : ∀ a ∈ as, a.receiver? = none) : (s.run as).sink = s.sink := by
  induction as generalizing s with
  | nil => rfl
  | cons a as ih =>
      have hstep : (s.step a).sink = s.sink := by
        rw [sink_step (has a List.mem_cons_self), Sink.publishAll_of_nobody h]
      rw [run_cons, ih (by rw [hstep]; exact h) fun b hb => has b (List.mem_cons_of_mem a hb),
        hstep]

variable {name : κ} {unread : List Event}

/-- A step adds what it publishes to what a receiver has not read, unless it is about this
receiver. -/
theorem follows_step (h : s.sink.Follows name unread) (ha : a.receiver? ≠ some name) :
    (s.step a).sink.Follows name (unread ++ s.published a) := by
  cases hreceiver : a.receiver? with
  | none =>
      rw [sink_step hreceiver]
      exact h.publishAll _
  | some other =>
      have hne : name ≠ other := by
        rintro rfl
        exact ha hreceiver
      rw [published_of_receiver hreceiver, List.append_nil]
      cases a with
      | subscribe name =>
          obtain rfl := Option.some.inj hreceiver
          exact h.subscribe_other hne
      | unsubscribe name =>
          obtain rfl := Option.some.inj hreceiver
          exact h.unsubscribe_other hne
      | receive name most =>
          obtain rfl := Option.some.inj hreceiver
          simp only [step]
          split
          · exact h
          · next hreceive => exact h.receive_other hne hreceive
      | _ => cases hreceiver

theorem follows_run (h : s.sink.Follows name unread) {as : List (Action κ)}
    (has : ∀ a ∈ as, a.receiver? ≠ some name) :
    (s.run as).sink.Follows name (unread ++ along published s as) := by
  induction as generalizing s unread with
  | nil => simpa [along] using h
  | cons a as ih =>
      have hrest := ih (follows_step h (has a List.mem_cons_self)) fun b hb =>
        has b (List.mem_cons_of_mem a hb)
      simpa [along] using hrest

end Service
end Polling
end SearchPolling
