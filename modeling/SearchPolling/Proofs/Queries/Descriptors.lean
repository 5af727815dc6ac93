import SearchPolling.Proofs.Control.Refusals
import SearchPolling.Proofs.Control.Traffic
import SearchPolling.Proofs.Service.Launch

/-!
# The descriptor and the queries

The descriptor is changed by those who hold it, among them the clients that put a search
request, and by nobody else.  A query takes the request from the descriptor when it is issued;
its task, which passes that request to the search service, may begin at any time later.  So what
a query asks for is what all changes before it was issued have made of the first descriptor, and
no change that comes later gets to it.
-/

namespace SearchPolling
namespace Polling

/-! ## Changes of the descriptor -/

/-- How an action changes the descriptor. -/
def Action.updates {κ : Type} : Action κ → List Search.Update
  | .describe u => [u]
  | _ => []

namespace Engine

variable {κ : Type}

@[simp] theorem performAll_descriptor (p : Placed κ) (es : List Effect) :
    (performAll p es).world.descriptor = p.world.descriptor := by
  refine performAll_preserves (·.world.descriptor) (fun p e => ?_) p es
  cases e with
  | measure m =>
      simp only [perform]
      split <;> rfl
  | publish e =>
      simp only [perform, publish]
      split <;> rfl
  | _ => rfl

@[simp] theorem carryOut_descriptor (p : Placed κ) (c : Change) :
    (carryOut p c).world.descriptor = p.world.descriptor :=
  performAll_descriptor _ _

end Engine

theorem Launch.descriptor_opened {κ : Type} (l : Launch) :
    (l.opened : Service κ).world.descriptor = l.world.descriptor := by
  simp only [opened, Engine.adopt, opening, Engine.opening]
  split <;> simp [Service.world]

namespace Service

variable {κ : Type} [DecidableEq κ]

/-- Polling itself does not change the descriptor. -/
theorem descriptor_step (s : Service κ) (a : Action κ) :
    (s.step a).world.descriptor = s.world.descriptor.applyAll a.updates := by
  have hbase : (s.base a).world.descriptor = s.world.descriptor.applyAll a.updates := by
    cases a with
    | command c =>
        simp only [base]
        split <;> rfl
    | tick generation =>
        simp only [base]
        split <;> rfl
    | answer place result =>
        simp only [base]
        split <;> rfl
    | claim place =>
        simp only [base]
        split <;> rfl
    | receive name most =>
        simp only [base, step]
        split <;> rfl
    | _ => rfl
  rw [world, step_placed, Engine.performAll_descriptor, hbase]

/-- A step issues no query, or one that has the next number and the request of the
descriptor. -/
theorem flights_step (s : Service κ) (a : Action κ) :
    ((s.step a).world.issued = s.world.issued ∧ ∀ f ∈ (s.step a).flights, f ∈ s.flights) ∨
      ∃ f, f.number = s.world.issued + 1 ∧ f.request = s.world.descriptor.request ∧
        (s.step a).world.issued = s.world.issued + 1 ∧ (s.step a).flights = s.flights ++ [f] := by
  have hissued : (s.step a).world.issued = (s.step a).view.issued := rfl
  have hflights : (s.step a).flights = (s.step a).view.flights := rfl
  rw [hissued, hflights]
  cases s.turn a with
  | quiet hview _ =>
      rw [hview]
      exact .inl ⟨rfl, fun _ hf => hf⟩
  | obsolete _ _ _ hview _ =>
      rw [hview]
      exact .inl ⟨rfl, fun _ hf => hf⟩
  | ticked _ _ hview _ =>
      rw [hview]
      exact .inr ⟨s.next .tick, rfl, rfl, rfl, rfl⟩
  | started _ _ hview _ =>
      rw [hview]
      exact .inr ⟨s.next .eager, rfl, rfl, rfl, rfl⟩
  | stopped hview _ =>
      rw [hview]
      exact .inl ⟨rfl, fun _ hf => hf⟩
  | reset _ hview _ =>
      rw [hview]
      exact .inl ⟨rfl, fun _ hf => hf⟩
  | answered f _ hview _ =>
      rw [hview]
      exact .inl ⟨rfl, fun _ hf => List.mem_of_mem_filter hf⟩

end Service
end Polling

namespace Api
namespace Request

/-- How a request changes the descriptor: it puts a search request, which its body has to be. -/
def update? (r : Request) : Option Search.Update :=
  if r.route? = some .query ∧ r.method = "PUT" then
    match r.decoded Search.Request.decoder with
    | .ok q => some (.request q)
    | .error _ => none
  else none

/-- A request asks for another search if it puts one. -/
theorem action_eq_setRequest_iff (r : Request) (q : Search.Request) :
    r.action = .setRequest q ↔ r.update? = some (.request q) := by
  constructor
  · intro haction
    obtain ⟨route, hroute, haccepts, hrouted⟩ := action_of_changes (r := r) (by rw [haction]; rfl)
    rw [haction] at hrouted
    cases route with
    | query =>
        have hmethod : r.method = "PUT" := by simpa [Route.method, Method.accepts] using haccepts
        simp only [routedAction, withBody] at hrouted
        split at hrouted
        · next body hbody =>
            obtain rfl := Action.setRequest.inj hrouted
            simp [update?, hroute, hmethod, hbody]
        · cases hrouted
    | stop =>
        simp only [routedAction, stopAction] at hrouted
        split at hrouted <;> cases hrouted
    | interval =>
        simp only [routedAction, withBody] at hrouted
        split at hrouted
        · split at hrouted <;> cases hrouted
        · cases hrouted
    | suppression =>
        simp only [routedAction, withBody] at hrouted
        split at hrouted <;> cases hrouted
    | _ => cases hrouted
  · intro hupdate
    rw [update?] at hupdate
    split at hupdate
    · next hput =>
        obtain ⟨hroute, hmethod⟩ := hput
        split at hupdate
        · next body hbody =>
            obtain rfl := Search.Update.request.inj (Option.some.inj hupdate)
            simp [action, hroute, hmethod, Route.method, Method.accepts, routedAction, withBody,
              hbody]
        · cases hupdate
    · cases hupdate

/-- A request that changes the descriptor is a search request in whole, and asks for it. -/
theorem exists_of_update {r : Request} {u : Search.Update} (h : r.update? = some u) :
    ∃ q, u = .request q ∧ r.action = .setRequest q := by
  have hrequest : ∃ q, u = .request q := by
    rw [update?] at h
    split at h
    · split at h
      · exact ⟨_, (Option.some.inj h).symm⟩
      · cases h
    · cases h
  obtain ⟨q, rfl⟩ := hrequest
  exact ⟨q, rfl, (r.action_eq_setRequest_iff q).mpr h⟩

theorem update?_of_isPreflight {r : Request} (h : r.isPreflight = true) : r.update? = none := by
  have hoptions : r.method = "OPTIONS" := of_decide_eq_true h
  simp [update?, hoptions]

end Request
end Api

namespace Polling

open Api (Request)

variable {κ : Type} [DecidableEq κ]

theorem Service.descriptor_accept (s : Service κ) (r : Request) :
    (s.accept r).2.world.descriptor = s.world.descriptor.applyAll r.update?.toList := by
  cases hupdate : r.update? with
  | some u =>
      obtain ⟨q, rfl, haction⟩ := r.exists_of_update hupdate
      rw [(s.accept_setRequest haction).2, s.descriptor_step]
      rfl
  | none =>
      cases haction : r.action with
      | setRequest q => simp [(r.action_eq_setRequest_iff q).mp haction] at hupdate
      | command c =>
          rw [s.accept_command haction, s.descriptor_step]
          rfl
      | _ =>
          have hchanges : r.action.changes = false := by
            rw [haction]
            rfl
          rw [(s.accept_of_not_changes hchanges).2]
          rfl

/-- How an incident changes the descriptor. -/
def Incident.updates {κ : Type} : Incident κ → List Search.Update
  | .receive r => r.update?.toList
  | .act a => a.updates
  | _ => []

namespace Traffic

/-- The queries that an incident issues: those on their way that have not been issued before. -/
def issues (t : Traffic κ) (i : Incident κ) : List Flight :=
  (t.step i).service.flights.filter (t.service.world.issued < ·.number)

/-- To the service an incident is an action, or nothing but that a request is counted. -/
theorem service_step (t : Traffic κ) (i : Incident κ) :
    (∃ a, (t.step i).service = t.service.step a) ∨
      (t.step i).service.world.issued = t.service.world.issued ∧
        (t.step i).service.flights = t.service.flights := by
  cases i with
  | receive r =>
      rw [step, receive]
      split
      · exact .inr ⟨rfl, rfl⟩
      · rcases t.service.accept_eq_step r with hsame | ⟨a, hstep⟩
        · exact .inr ⟨by rw [hsame], by rw [hsame]⟩
        · exact .inl ⟨a, hstep⟩
  | answer place seconds =>
      rw [step, answer]
      split
      · exact .inr ⟨rfl, rfl⟩
      · split <;> exact .inr ⟨rfl, rfl⟩
  | leave place => exact .inr ⟨rfl, rfl⟩
  | act a => exact .inl ⟨a, rfl⟩

theorem descriptor_step (t : Traffic κ) (i : Incident κ) :
    (t.step i).service.world.descriptor =
      t.service.world.descriptor.applyAll i.updates := by
  cases i with
  | receive r =>
      rw [step, receive]
      split
      · next hpreflight =>
          rw [Incident.updates, r.update?_of_isPreflight hpreflight]
          rfl
      · exact t.service.descriptor_accept r
  | answer place seconds =>
      rw [step, answer]
      split
      · rfl
      · split <;> rfl
  | leave place => rfl
  | act a => exact t.service.descriptor_step a

/-- No query on its way has a number that is still to be given. -/
def IsNumbered (t : Traffic κ) : Prop :=
  ∀ f ∈ t.service.flights, f.number ≤ t.service.world.issued

/-- An incident issues no query, or one that has the next number and the request of the
descriptor. -/
theorem IsNumbered.step {t : Traffic κ} (h : t.IsNumbered) (i : Incident κ) :
    (t.step i).IsNumbered ∧
      ((t.issues i = [] ∧ (t.step i).service.world.issued = t.service.world.issued) ∨
        ∃ f, t.issues i = [f] ∧ f.number = t.service.world.issued + 1 ∧
          f.request = t.service.world.descriptor.request ∧
          (t.step i).service.world.issued = t.service.world.issued + 1) := by
  have hold : t.service.flights.filter (t.service.world.issued < ·.number) = [] := by
    rw [List.filter_eq_nil_iff]
    intro f hf
    simpa using h f hf
  have hquiet (hissued : (t.step i).service.world.issued = t.service.world.issued)
      (hflights : ∀ f ∈ (t.step i).service.flights, f ∈ t.service.flights) :
      (t.step i).IsNumbered ∧ t.issues i = [] := by
    have hbound : ∀ f ∈ (t.step i).service.flights, f.number ≤ t.service.world.issued :=
      fun f hf => h f (hflights f hf)
    refine ⟨fun f hf => hissued ▸ hbound f hf, ?_⟩
    rw [issues, List.filter_eq_nil_iff]
    intro f hf
    simpa using hbound f hf
  rcases t.service_step i with ⟨a, hstep⟩ | ⟨hissued, hflights⟩
  · rcases t.service.flights_step a with ⟨hissued, hflights⟩ |
      ⟨f, hnumber, hrequest, hissued, hflights⟩
    · rw [← hstep] at hissued hflights
      obtain ⟨hnumbered, hnone⟩ := hquiet hissued hflights
      exact ⟨hnumbered, .inl ⟨hnone, hissued⟩⟩
    · rw [← hstep] at hissued hflights
      refine ⟨?_, .inr ⟨f, ?_, hnumber, hrequest, hissued⟩⟩
      · intro g hg
        rw [hflights, List.mem_append, List.mem_singleton] at hg
        rw [hissued]
        rcases hg with hg | rfl
        · exact Nat.le_succ_of_le (h g hg)
        · exact Nat.le_of_eq hnumber
      · rw [issues, hflights, List.filter_append, hold]
        simp [hnumber]
  · obtain ⟨hnumbered, hnone⟩ := hquiet hissued fun f hf => hflights ▸ hf
    exact ⟨hnumbered, .inl ⟨hnone, hissued⟩⟩

/-! ## Queries and their tasks -/

end Traffic

/-- Traffic with the queries that have been issued and whose tasks have not begun, and with the
requests that the others passed to the search service, each with the number of its query. -/
structure Posing (κ : Type) where
  traffic : Traffic κ
  resting : List Flight
  posed : List (Nat × Search.Request)

/-- What may happen to queries. -/
inductive Occasion (κ : Type) where
  | incident (i : Incident κ)
  /-- The task at a place among those that rest begins. -/
  | begin (place : Nat)

/-- How an occasion changes the descriptor. -/
def Occasion.updates {κ : Type} : Occasion κ → List Search.Update
  | .incident i => i.updates
  | .begin _ => []

namespace Posing

/-- The service that was opened by a launch. -/
def opened (l : Launch) : Posing κ :=
  ⟨.opened l.opened, [], []⟩

omit [DecidableEq κ] in
abbrev descriptor (p : Posing κ) : Search.Descriptor :=
  p.traffic.service.world.descriptor

/-- Whether an incident has to wait: no answer comes to a query whose task has not begun. -/
def blocks (p : Posing κ) : Incident κ → Bool
  | .act (.answer place _) =>
    match p.traffic.service.flights[place]? with
    | some f => p.resting.any (·.number = f.number)
    | none => false
  | _ => false

/-- The queries that an occasion issues. -/
def issues (p : Posing κ) : Occasion κ → List Flight
  | .incident i => if p.blocks i then [] else p.traffic.issues i
  | .begin _ => []

def step (p : Posing κ) (m : Occasion κ) : Posing κ :=
  match m with
  | .incident i =>
    if p.blocks i then p
    else { p with traffic := p.traffic.step i, resting := p.resting ++ p.issues m }
  | .begin place =>
    match p.resting[place]? with
    | none => p
    | some f =>
      { p with
        resting := p.resting.eraseIdx place
        posed := p.posed ++ [(f.number, f.request)] }

def run (p : Posing κ) (ms : List (Occasion κ)) : Posing κ :=
  ms.foldl step p

@[simp] theorem run_nil (p : Posing κ) : p.run [] = p := rfl

@[simp] theorem run_cons (p : Posing κ) (m : Occasion κ) (ms : List (Occasion κ)) :
    p.run (m :: ms) = (p.step m).run ms := rfl

/-- Each query that is issued, with the request that the descriptor holds then. -/
def record (p : Posing κ) : List (Occasion κ) → List (Nat × Search.Request)
  | [] => []
  | m :: ms =>
    (p.issues m).map (fun f => (f.number, p.descriptor.request)) ++ (p.step m).record ms

/-- The requests that are still to be passed or have been, with the numbers of their queries. -/
def carried (p : Posing κ) : List (Nat × Search.Request) :=
  p.resting.map (fun f => (f.number, f.request)) ++ p.posed

omit [DecidableEq κ] in
theorem updates_of_blocks {p : Posing κ} {i : Incident κ} (h : p.blocks i = true) :
    i.updates = [] := by
  cases i with
  | act a =>
      cases a with
      | answer place result => rfl
      | _ => cases h
  | _ => cases h

theorem descriptor_step (p : Posing κ) (m : Occasion κ) :
    (p.step m).descriptor = p.descriptor.applyAll m.updates := by
  cases m with
  | incident i =>
      simp only [step]
      split
      · next hblocks =>
          rw [Occasion.updates, updates_of_blocks hblocks]
          rfl
      · exact p.traffic.descriptor_step i
  | begin place =>
      simp only [step]
      split <;> rfl

theorem descriptor_run (p : Posing κ) (ms : List (Occasion κ)) :
    (p.run ms).descriptor = p.descriptor.applyAll (ms.flatMap Occasion.updates) := by
  induction ms generalizing p with
  | nil => rfl
  | cons m ms ih =>
      rw [run_cons, ih, descriptor_step, List.flatMap_cons]
      exact List.foldl_append.symm

/-- An occasion issues no query, or one that has the next number and the request of the
descriptor. -/
theorem issues_cases {p : Posing κ} (h : p.traffic.IsNumbered) (m : Occasion κ) :
    (p.step m).traffic.IsNumbered ∧
      ((p.issues m = [] ∧
          (p.step m).traffic.service.world.issued = p.traffic.service.world.issued) ∨
        ∃ f, p.issues m = [f] ∧ f.number = p.traffic.service.world.issued + 1 ∧
          f.request = p.descriptor.request ∧
          (p.step m).traffic.service.world.issued = p.traffic.service.world.issued + 1) := by
  cases m with
  | incident i =>
      cases hblocks : p.blocks i with
      | true =>
          have hsame : p.step (.incident i) = p := by simp only [step, hblocks, if_true]
          rw [hsame]
          exact ⟨h, .inl ⟨by simp only [issues, hblocks, if_true], rfl⟩⟩
      | false =>
          simp only [step, issues, hblocks, Bool.false_eq_true, if_false]
          exact h.step i
  | begin place =>
      have hsame : (p.step (.begin place)).traffic = p.traffic := by
        simp only [step]
        split <;> rfl
      rw [hsame]
      exact ⟨h, .inl ⟨rfl, rfl⟩⟩

/-- Only what is issued is carried, and it stays what it was. -/
theorem carried_step (p : Posing κ) (m : Occasion κ) :
    (p.step m).carried.Perm (p.carried ++ (p.issues m).map fun f => (f.number, f.request)) := by
  cases m with
  | incident i =>
      simp only [step]
      split
      · next hblocks => simp [issues, hblocks]
      · simp only [carried, List.map_append, List.append_assoc]
        exact List.perm_append_comm.append_left _
  | begin place =>
      simp only [step, issues, List.map_nil, List.append_nil]
      cases hplace : p.resting[place]? with
      | none => exact .refl _
      | some f =>
          obtain ⟨hlt, rfl⟩ := List.getElem?_eq_some_iff.mp hplace
          have hrest := (List.getElem_cons_eraseIdx_perm hlt).map
            fun f : Flight => (f.number, f.request)
          simp only [carried]
          refine .trans ?_ (hrest.append_right p.posed)
          rw [List.map_cons, List.cons_append, ← List.append_assoc]
          exact List.perm_append_singleton _ _

/-- What is carried after a run is what was before, and each query that was issued with the
request that the descriptor held then. -/
theorem carried_run {p : Posing κ} (h : p.traffic.IsNumbered) (ms : List (Occasion κ)) :
    (p.run ms).carried.Perm (p.carried ++ p.record ms) ∧
      (p.record ms).map Prod.fst =
        List.range' (p.traffic.service.world.issued + 1) (p.record ms).length := by
  induction ms generalizing p with
  | nil => simp [record]
  | cons m ms ih =>
      obtain ⟨hnumbered, hissues⟩ := p.issues_cases h m
      obtain ⟨hcarried, hnumbers⟩ := ih hnumbered
      have hnow : (p.issues m).map (fun f => (f.number, f.request)) =
          (p.issues m).map fun f => (f.number, p.descriptor.request) := by
        rcases hissues with ⟨hnone, -⟩ | ⟨f, hone, -, hrequest, -⟩
        · rw [hnone]
          rfl
        · rw [hone, List.map_singleton, List.map_singleton, hrequest]
      refine ⟨?_, ?_⟩
      · rw [run_cons, record, ← List.append_assoc, ← hnow]
        exact hcarried.trans ((p.carried_step m).append_right _)
      · rw [record, List.map_append, List.length_append, hnumbers]
        rcases hissues with ⟨hnone, hissued⟩ | ⟨f, hone, hnumber, -, hissued⟩
        · simp [hnone, hissued]
        · rw [hone, hissued]
          simp only [List.map_singleton, List.length_singleton, List.singleton_append, hnumber]
          rw [Nat.add_comm 1, List.range'_succ]

theorem mem_record {p : Posing κ} {ms : List (Occasion κ)} {n : Nat} {q : Search.Request} :
    (n, q) ∈ p.record ms ↔
      ∃ before m after, ms = before ++ m :: after ∧
        n ∈ ((p.run before).issues m).map (·.number) ∧
        q = (p.run before).descriptor.request := by
  induction ms generalizing p with
  | nil => simp [record]
  | cons m ms ih =>
      rw [record, List.mem_append, ih]
      constructor
      · rintro (hnow | ⟨before, m', after, rfl, hissued, hq⟩)
        · obtain ⟨f, hf, hfq⟩ := List.mem_map.mp hnow
          obtain ⟨rfl, rfl⟩ := Prod.mk.inj hfq
          exact ⟨[], m, ms, rfl, List.mem_map_of_mem hf, rfl⟩
        · exact ⟨m :: before, m', after, rfl, hissued, hq⟩
      · rintro ⟨before, m', after, hsplit, hissued, hq⟩
        cases before with
        | nil =>
            obtain ⟨rfl, rfl⟩ := List.cons.inj hsplit
            obtain ⟨f, hf, rfl⟩ := List.mem_map.mp hissued
            exact .inl (List.mem_map.mpr ⟨f, hf, by rw [hq]; rfl⟩)
        | cons first before =>
            obtain ⟨rfl, rfl⟩ := List.cons.inj hsplit
            exact .inr ⟨before, m', after, rfl, hissued, hq⟩

omit [DecidableEq κ] in
theorem carried_opened (l : Launch) :
    (opened l : Posing κ).carried = [] ∧ (opened l : Posing κ).traffic.IsNumbered := by
  refine ⟨rfl, ?_⟩
  intro f hf
  have hnone : (l.opened : Service κ).flights = [] := congrArg View.flights l.view_opened
  simp [opened, Traffic.opened, hnone] at hf

end Posing

theorem Service.Answered.not_update {s t : Service κ} {r : Request} {seconds : Float}
    {response : Api.Response} (h : Answered r seconds s response t)
    (hrefused : response.isSuccess = false) : r.update? = none := by
  cases hupdate : r.update? with
  | none => rfl
  | some u =>
      obtain ⟨q, -, haction⟩ := r.exists_of_update hupdate
      have hgranted := h.isSuccess_of_changes (by rw [haction]; rfl)
      rw [hrefused] at hgranted
      cases hgranted

/-- A query passes to the search service, once and however late its task begins, the request
that all changes of the descriptor before it was issued have made of the first one.  The
descriptor is changed by its holders and by requests that are granted, and by nothing else. -/
theorem queries_carry_descriptor_of_issue (l : Launch) (ms : List (Occasion κ)) :
    let p : Posing κ := (Posing.opened l).run ms
    p.descriptor = l.world.descriptor.applyAll (ms.flatMap Occasion.updates) ∧
      (∀ before m after, ms = before ++ m :: after →
        ∀ f ∈ ((Posing.opened l).run before).issues m,
          (∀ q, (f.number, q) ∈ p.posed →
            q = (l.world.descriptor.applyAll (before.flatMap Occasion.updates)).request) ∧
          (f.number ∈ p.posed.map (·.1) ∨ f.number ∈ p.resting.map (·.number))) ∧
      (∀ n q, (n, q) ∈ p.posed → ∃ before m after, ms = before ++ m :: after ∧
        n ∈ (((Posing.opened l).run before).issues m).map (·.number)) ∧
      (p.posed.map (·.1)).Nodup ∧
      ∀ (s t : Service κ) (r : Request) (seconds : Float) (response : Api.Response),
        Service.Answered r seconds s response t → response.isSuccess = false →
          r.update? = none := by
  intro p
  obtain ⟨hnone, hnumbered⟩ := Posing.carried_opened (κ := κ) l
  obtain ⟨hperm, hnumbers⟩ := Posing.carried_run hnumbered ms
  rw [hnone, List.nil_append] at hperm
  have hstart : (Posing.opened l : Posing κ).descriptor = l.world.descriptor :=
    l.descriptor_opened
  have hnodup : (((Posing.opened l : Posing κ).record ms).map (·.1)).Nodup := by
    rw [hnumbers]
    exact List.nodup_range'
  have hcarried : (p.carried.map (·.1)).Nodup := (hperm.map _).nodup_iff.mpr hnodup
  have hposed : ∀ x ∈ p.posed, x ∈ p.carried := fun x hx => List.mem_append_right _ hx
  refine ⟨?_, ?_, ?_, ?_, fun _ _ _ _ _ h => h.not_update⟩
  · rw [Posing.descriptor_run, hstart]
  · intro before m after hsplit f hf
    have hrecord : (f.number, ((Posing.opened l : Posing κ).run before).descriptor.request) ∈
        p.carried :=
      hperm.mem_iff.mpr
        (Posing.mem_record.mpr ⟨before, m, after, hsplit, List.mem_map_of_mem hf, rfl⟩)
    rw [Posing.descriptor_run, hstart] at hrecord
    constructor
    · intro q hq
      have hsame := List.inj_on_of_nodup_map hcarried (hposed _ hq) hrecord rfl
      exact congrArg Prod.snd hsame
    · rcases List.mem_append.mp hrecord with hrests | hgone
      · obtain ⟨g, hg, hsame⟩ := List.mem_map.mp hrests
        exact .inr (List.mem_map.mpr ⟨g, hg, congrArg Prod.fst hsame⟩)
      · exact .inl (List.mem_map_of_mem hgone)
  · intro n q hq
    obtain ⟨before, m, after, hsplit, hissued, -⟩ :=
      Posing.mem_record.mp (hperm.mem_iff.mp (hposed _ hq))
    exact ⟨before, m, after, hsplit, hissued⟩
  · rw [Posing.carried, List.map_append] at hcarried
    exact hcarried.of_append_right

/-- Two queries, of which the first one begins last, among requests to change the descriptor:
one with a body that is refused, one that puts a search request, and two changes of the query. -/
def crossed : List (Occasion Unit) :=
  let put (body : String) : Occasion Unit := .incident (.receive
    ⟨"PUT", "/polling/query", [("content-type", "application/json")], body.toUTF8.toList⟩)
  [.incident (.act (.describe (.query "first"))),
    .incident (.act (.command .start)),
    put "\x7b\"query\": 0\x7d",
    put "[[], \"second\", 0, 3]",
    .incident (.act (.command (.stop false))),
    .incident (.act (.command .start)),
    .incident (.act (.describe (.query "third"))),
    .begin 1,
    .incident (.act (.answer 0 (.error .timeout))),
    .begin 0]

theorem queries_carry_descriptor_of_issue_crossed :
    let p : Posing Unit := (Posing.opened .standard).run crossed
    p.posed.map (fun x => (x.1, x.2.query, x.2.size)) = [(2, "second", 3), (1, "first", 25)] ∧
      p.descriptor.request.query = "third" ∧
      ∀ q, (1, q) ∈ p.posed →
        q = (Search.Descriptor.standard.applyAll [.query "first"]).request := by
  intro p
  obtain ⟨-, hissue, -⟩ := queries_carry_descriptor_of_issue .standard crossed
  obtain ⟨f, hf, hnumber⟩ : ∃ f ∈ ((Posing.opened .standard : Posing Unit).run
      (crossed.take 1)).issues (.incident (.act (.command .start))), f.number = 1 :=
    ⟨_, List.mem_singleton_self _, rfl⟩
  refine ⟨by decide +kernel, by decide +kernel, ?_⟩
  obtain ⟨hposed, -⟩ := hissue (crossed.take 1) _ (crossed.drop 2) rfl f hf
  rw [hnumber] at hposed
  exact hposed

end Polling
end SearchPolling
