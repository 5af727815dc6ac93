import SearchPolling.Proofs.Publishing.Broadcast
import SearchPolling.Proofs.Resuming.Continuity

/-!
# Before a launch returns

A launch that finds an active record starts polling and returns once the start has been
stored.  Until then nobody has a handle of the service.  But its query is on its way, its timer
is armed, and the store takes its time: queries may be answered before the launch returns, and
their events are published to nobody.

A receiver that subscribes when the launch has returned gets what is published from then on.
It has missed something just when a query was answered before.
-/

namespace SearchPolling
namespace Polling

/-- Whether an action may happen to a service of which nobody has a handle yet. -/
def Action.isUnattended {κ : Type} : Action κ → Bool
  | .tick _ => true
  | .answer _ _ => true
  | .claim _ => true
  | .save _ => true
  | .elapse _ => true
  | .describe _ => true
  | _ => false

theorem Action.receiver?_of_isUnattended {κ : Type} {a : Action κ} (h : a.isUnattended = true) :
    a.receiver? = none := by
  cases a with
  | subscribe name => cases h
  | unsubscribe name => cases h
  | receive name most => cases h
  | _ => rfl

/-- All queries on their way are of the current cycle. -/
def View.Current (v : View) : Prop :=
  ∀ f ∈ v.flights, f.cycle = v.cycle

namespace Service

variable {κ : Type} {s : Service κ} {a : Action κ}

theorem resets_of_isUnattended (h : a.isUnattended = true) : s.resets a = false := by
  cases a with
  | command c => cases h
  | _ => rfl

/-- Where all queries are of the current cycle, what is answered is published. -/
theorem ids_published (h : s.view.Current) (a : Action κ) :
    (s.published a).map (·.id) = (s.landed a).map (·.id) := by
  rcases s.landed_cases a with hnone | ⟨place, result, f, rfl, hplace, hlanded⟩
  · rw [(s.published_eq_flatMap a).1, settlements, hnone]
    rfl
  · have hcycle : s.state.cycle = f.cycle := (h f (List.mem_of_getElem? hplace)).symm
    rw [(s.published_eq_flatMap _).1, settlements_answer hplace, if_pos hcycle, hlanded]
    rfl

variable [DecidableEq κ]

theorem current_step (h : s.view.Current) (hresets : s.resets a = false) :
    (s.step a).view.Current := by
  apply preserved_of_queries (P := View.Current) h a
  · intro v w hv _ hcycle hflights _ f hf
    rw [hcycle]
    exact hv f (hflights ▸ hf)
  · intro origin f hf
    rcases List.mem_append.mp hf with hold | hnew
    · exact h f hold
    · rw [List.mem_singleton.mp hnew]
      rfl
  · intro f _ g hg
    exact h g (List.mem_of_mem_filter hg)
  · intro hnow
    rw [show (s.marks a).resets = s.resets a from rfl, hresets] at hnow
    cases hnow

theorem ids_along (h : s.view.Current) {as : List (Action κ)}
    (has : ∀ a ∈ as, ∀ t : Service κ, t.resets a = false) :
    (along published s as).map (·.id) = (along landed s as).map (·.id) := by
  induction as generalizing s with
  | nil => rfl
  | cons a as ih =>
      have hrest := ih (current_step h (has a List.mem_cons_self s)) fun b hb =>
        has b (List.mem_cons_of_mem a hb)
      rw [along, along, List.map_append, List.map_append, ids_published h, hrest]

/-- An unattended service that does not poll issues no query and goes on so. -/
theorem dormant_step (h : s.state.record.active = false) (ha : a.isUnattended = true) :
    (s.step a).state.record.active = false ∧ (s.marks a).issued = [] := by
  have hrecord : (s.step a).state.record = s.state.record := by
    rw [record_step]
    cases a with
    | command c => cases ha
    | _ => rfl
  refine ⟨by rw [hrecord]; exact h, ?_⟩
  cases s.turn a with
  | ticked _ hactive _ _ =>
      rw [h] at hactive
      cases hactive
  | started haction _ _ _ =>
      rw [haction] at ha
      cases ha
  | quiet _ hmarks => rw [hmarks]
  | obsolete _ _ _ _ hmarks => rw [hmarks]
  | stopped _ hmarks => rw [hmarks]
  | reset _ _ hmarks => rw [hmarks]
  | answered _ _ _ hmarks => rw [hmarks]

theorem issued_of_dormant (h : s.state.record.active = false) {as : List (Action κ)}
    (has : ∀ a ∈ as, a.isUnattended = true) :
    along (fun s a => (s.marks a).issued) s as = [] := by
  induction as generalizing s with
  | nil => rfl
  | cons a as ih =>
      obtain ⟨hstep, hissued⟩ := dormant_step h (has a List.mem_cons_self)
      rw [along, hissued, ih hstep fun b hb => has b (List.mem_cons_of_mem a hb)]
      rfl

end Service

namespace Launch

variable {κ : Type}

theorem sink_opened (l : Launch) : (l.opened : Service κ).sink = .ofCapacity l.capacity := by
  have hperform (p : Engine.Placed κ) {es : List Effect} (hes : es.filterMap Effect.event? = []) :
      (Engine.performAll p es).engine.sink = p.engine.sink := by
    rw [Engine.performAll_sink, hes]
    rfl
  have hopening : (l.opening : Engine.Placed κ).engine.sink = .ofCapacity l.capacity := by
    rw [opening, Engine.opening, Engine.carryOut]
    apply hperform
    simp only [State.opening]
    split <;> rfl
  have hfound : l.found.effects.filterMap Effect.event? = [] := by
    cases l.found <;> rfl
  simp only [Service.sink, opened, Engine.adopt]
  cases l.found.record? with
  | none => exact (hperform _ hfound).trans hopening
  | some record => exact (hperform _ rfl).trans ((hperform _ hfound).trans hopening)

/-- Of what happens before the launch returns only the start is a command. -/
theorem cases_of_mem_course {l : Launch} {as : List (Action κ)}
    (has : ∀ a ∈ as, a.isUnattended = true) {a : Action κ} (ha : a ∈ l.course as) :
    a = .command .start ∨ a.isUnattended = true := by
  rcases List.mem_append.mp ha with hfirst | hlater
  · rw [first] at hfirst
    split at hfirst
    · exact .inl (List.mem_singleton.mp hfirst)
    · cases hfirst
  · exact .inr (has a hlater)

variable [DecidableEq κ] {as : List (Action κ)}

/-- Nothing has been put into the sink while the service was unattended. -/
theorem sink_run (l : Launch) (has : ∀ a ∈ as, a.isUnattended = true) :
    (l.run as).sink = .ofCapacity l.capacity := by
  rw [run, Service.sink_run_of_nobody, sink_opened]
  · rw [sink_opened]
    rfl
  · intro a ha
    rcases cases_of_mem_course has ha with rfl | hunattended
    · rfl
    · exact Action.receiver?_of_isUnattended hunattended

/-- Every query that is answered while the service is unattended has its event published. -/
theorem ids_published (l : Launch) (has : ∀ a ∈ as, a.isUnattended = true) :
    (l.published as).map (·.id) = (l.landed as).map (·.id) := by
  apply Service.ids_along
  · intro f hf
    rw [view_opened] at hf
    cases hf
  · intro a ha s
    rcases cases_of_mem_course has ha with rfl | hunattended
    · rfl
    · exact Service.resets_of_isUnattended hunattended

theorem published_eq_nil_iff (l : Launch) (has : ∀ a ∈ as, a.isUnattended = true) :
    l.published as = [] ↔ l.landed as = [] := by
  rw [← List.map_eq_nil_iff (f := (·.id)), l.ids_published has, List.map_eq_nil_iff]

/-- Without an active record there is nothing to answer. -/
theorem landed_of_inactive {l : Launch} (hinactive : l.found.isActive = false)
    (has : ∀ a ∈ as, a.isUnattended = true) : l.landed as = [] := by
  have hdormant : (l.opened : Service κ).state.record.active = false := by
    rw [record_opened]
    rfl
  have hissued : l.issued as = [] := by
    rw [issued, along, course, first, hinactive]
    exact Service.issued_of_dormant hdormant has
  have hsplit := (l.ledger as).split
  rw [hissued] at hsplit
  exact (List.append_eq_nil_iff.mp hsplit.nil_eq.symm).1

/-- A launch that finds an active record has one query on its way from its beginning. -/
theorem flights_nil {l : Launch} (hactive : l.found.isActive = true) :
    ∃ f, (l.run [] : Service κ).flights = [f] ∧ f.origin = .eager ∧
      l.landed ([] : List (Action κ)) = [] := by
  have hstopped : (l.opened : Service κ).state.record.active = false := by
    rw [record_opened]
    rfl
  have hlanded : l.landed ([] : List (Action κ)) = [] := by
    rw [landed, along, course, first, hactive]
    rfl
  have hissued : l.issued ([] : List (Action κ)) = [(l.opened : Service κ).next .eager] := by
    rw [issued, along, course, first, hactive]
    exact congrArg (· ++ []) (Service.issued_start hstopped)
  have hsplit := (l.ledger ([] : List (Action κ))).split
  rw [hissued, hlanded, List.nil_append] at hsplit
  exact ⟨_, (List.singleton_perm.mp hsplit).symm, rfl, hlanded⟩

/-- Whatever the active record that is found, its query may be answered before the launch
returns. -/
theorem eager_may_land {l : Launch} (hactive : l.found.isActive = true)
    (result : Except Search.Failure Search.Response) :
    ∃ as : List (Action κ), (∀ a ∈ as, a.isUnattended = true) ∧ (l.run as).idle = true ∧
      (l.landed as).map (·.origin) = [.eager] := by
  obtain ⟨f, hflights, horigin, hnone⟩ := flights_nil (κ := κ) hactive
  -- The source is faster than the store: the answer comes before the start is written.
  refine ⟨.answer 0 result :: returning, ?_, ?_, ?_⟩
  · intro a ha
    rcases List.mem_cons.mp ha with rfl | ha
    · rfl
    · rcases List.mem_pair.mp ha with rfl | rfl <;> rfl
  · have hrun : l.run (.answer 0 result :: returning : List (Action κ)) =
        ((l.run []).step (.answer 0 result)).run returning := l.run_append [] _
    have hsettled : (l.run [] : Service κ).Settled := l.settled_nil
    rw [hrun]
    exact idle_run_returning (hsettled.step (a := .answer 0 result) rfl (l.orderly []).last_le)
  · have hsplit : l.landed (.answer 0 result :: returning) =
        l.landed ([] : List (Action κ)) ++ Service.along (fun s a => (s.marks a).landed)
          (l.run []) (.answer 0 result :: returning) :=
      l.along_append _ [] _
    rw [hsplit, hnone]
    simp [Service.along, Service.marks, Service.landed, returning, hflights, horigin]

end Launch

variable {κ : Type} [DecidableEq κ]

/-- A receiver that subscribes after a launch gets what is published from then on, as far as
it fits, and nothing of what was published before.  That is the events of all queries that were
answered before, so it has missed something just when there is such a query; and there is none
unless the record that was found is active. -/
theorem receivers_get_what_follows (l : Launch) {as bs : List (Action κ)} {name : κ}
    (has : ∀ a ∈ as, a.isUnattended = true) (hbs : ∀ a ∈ bs, a.receiver? ≠ some name) :
    let course := as ++ .subscribe name :: bs
    let later := Service.along Service.published ((l.run as).step (.subscribe name)) bs
    l.published course = l.published as ++ later ∧
      (l.run as).sink = .ofCapacity l.capacity ∧
      ((l.run course).sink.receive name none).map Prod.fst =
        some (Sink.told (l.run as).sink.slots later) ∧
      (l.published as).map (·.id) = (l.landed as).map (·.id) ∧
      (later = l.published course ↔ l.landed as = []) ∧
      (l.found.isActive = false → l.landed as = []) := by
  intro course later
  have hsink := l.sink_run has
  have hpublished : l.published course = l.published as ++ later := by
    rw [Launch.published, Launch.along_append, Service.along]
    rfl
  refine ⟨hpublished, hsink, ?_, l.ids_published has, ?_, fun hinactive =>
    Launch.landed_of_inactive hinactive has⟩
  · have hholds : (l.run as).sink.Holds [] := by
      rw [hsink]
      exact Sink.holds_ofCapacity l.capacity
    have hfollows : ((l.run as).step (.subscribe name)).sink.Follows name [] :=
      Sink.follows_subscribe hholds name
    have hunread := Service.follows_run hfollows hbs
    rw [List.nil_append] at hunread
    obtain ⟨s', hreceive, -⟩ := hunread.receive none
    rw [l.run_append, Service.run_cons, hreceive, Service.slots_run, Service.slots_step]
    rfl
  · rw [← l.published_eq_nil_iff has, hpublished, List.self_eq_append_left]

/-- A launch over a store whose record says to poll every ten seconds. -/
def Launch.resumed : Launch :=
  let store := Store.Memory.empty.save standardStateKey (Record.render ⟨true, 10⟩)
  { Launch.standard with store, loaded := .ok (store.load standardStateKey) }

/-- A query that is answered after a launch has returned is received. -/
theorem first_event_received :
    let as : List (Action Unit) := [.elapse 5, .claim 0, .save (.ok ())]
    let bs : List (Action Unit) := [.answer 0 (.error .timeout)]
    let course := as ++ .subscribe () :: bs
    (∀ a ∈ as, a.isUnattended = true) ∧ (∀ a ∈ bs, a.receiver? ≠ some ()) ∧
      (Launch.resumed.run as).idle = true ∧ (Launch.resumed.published course).length = 1 ∧
      ((Launch.resumed.run course).sink.receive () none).map Prod.fst =
        some ((Launch.resumed.published course).map .event) := by
  intro as bs course
  have has : ∀ a ∈ as, a.isUnattended = true := by decide
  have hbs : ∀ a ∈ bs, a.receiver? ≠ some () := by decide
  obtain ⟨-, -, hreceived, -, hcomplete, -⟩ := receivers_get_what_follows Launch.resumed has hbs
  have hlater := hcomplete.mpr (by decide +kernel)
  have hone : (Launch.resumed.published course).length = 1 := by decide +kernel
  have hslots : (Launch.resumed.run as).sink.slots = 64 := by decide +kernel
  refine ⟨has, hbs, by decide +kernel, hone, ?_⟩
  rw [hlater, hslots, Sink.told_of_le] at hreceived
  · exact hreceived
  · rw [hone]
    decide

/-- An answer that comes before a launch has returned is published to nobody. -/
theorem eager_event_missed :
    let as : List (Action Unit) := [.answer 0 (.error .timeout), .claim 0, .save (.ok ())]
    Launch.resumed.found.isActive = true ∧ (Launch.resumed.run as).idle = true ∧
      (Launch.resumed.published as).map (·.origin) = [.eager] ∧
      ((Launch.resumed.run (as ++ [.subscribe ()])).sink.receive () none).map (·.1.length) =
        some 0 := by
  decide +kernel

end Polling
end SearchPolling
