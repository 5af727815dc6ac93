import SearchPolling.Proofs.Control.Answering
import SearchPolling.Proofs.Measuring.Entries
import SearchPolling.Proofs.Measuring.Tallies

/-!
# Requests under way

Many requests may be under way at once.  A request is received, and later, when its response
can be given, it is answered and counted; between the two other requests come and go, and
anything may happen to the service.  A client may also go away before the answer.

What the registry holds of requests is then a function of the answers alone: one request is
counted, and one duration observed, for each answer but those to requests for the options of
a path, which never get as far (`Traffic.Recorded.run`).
-/

namespace SearchPolling

open Metrics (Measurement Registry Series)

/-! ## What the registry holds of requests -/

/-- Whether a measurement is one of a request. -/
def Metrics.Measurement.isRequest : Measurement → Bool
  | .request _ _ _ => true
  | .requestDuration _ _ _ => true
  | _ => false

theorem Metrics.Measurement.not_isRequest_of_isGauge {m : Measurement} (h : m.isGauge = true) :
    m.isRequest = false := by
  cases m with
  | request _ _ _ => cases h
  | requestDuration _ _ _ => cases h
  | _ => rfl

theorem Metrics.Registry.requests_recordAll (r : Registry) {ms : List Measurement}
    (h : ∀ m ∈ ms, m.isRequest = false) :
    (r.recordAll ms).requests = r.requests ∧
      (r.recordAll ms).requestDurations = r.requestDurations := by
  induction ms generalizing r with
  | nil => exact ⟨rfl, rfl⟩
  | cons m ms ih =>
      have hfirst := h m List.mem_cons_self
      have hrest := ih (r.record m) fun n hn => h n (List.mem_cons_of_mem _ hn)
      have hsame : (r.record m).requests = r.requests ∧
          (r.record m).requestDurations = r.requestDurations := by
        cases m with
        | request _ _ _ => cases hfirst
        | requestDuration _ _ _ => cases hfirst
        | _ => exact ⟨rfl, rfl⟩
      exact ⟨hrest.1.trans hsame.1, hrest.2.trans hsame.2⟩

theorem Api.Response.status_sent (response : Response) (r : Request) :
    (response.sent r).status = response.status := by
  rw [sent]
  split <;> rfl

namespace Polling

open Api (Reception Request Response)

namespace Service

variable {κ : Type} [DecidableEq κ]

omit [DecidableEq κ] in
theorem not_isRequest_of_measured (s : Service κ) (a : Action κ) :
    ∀ m ∈ s.measured a, m.isRequest = false := by
  intro m hm
  cases a with
  | command c =>
      simp only [measured, effects] at hm
      split at hm
      · cases hm
      · next hcall => exact Measurement.not_isRequest_of_isGauge (gauges_call hcall m hm)
  | tick generation =>
      simp only [measured, effects] at hm
      split at hm
      · cases hm
      · next htick =>
          rw [State.measurements_tick htick] at hm
          rcases List.mem_append.mp hm with hissued | htold
          · split at hissued
            · rw [List.mem_singleton.mp hissued]
              rfl
            · cases hissued
          · simp only [List.mem_cons, List.not_mem_nil, or_false] at htold
            rcases htold with rfl | rfl <;> rfl
  | answer place result =>
      by_cases hplace : ∃ f, s.flights[place]? = some f
      · obtain ⟨f, hf⟩ := hplace
        rw [measured_answer hf] at hm
        split at hm
        · simp only [List.mem_cons, List.not_mem_nil, or_false] at hm
          rcases hm with rfl | rfl <;> rfl
        · rw [List.mem_singleton.mp hm]
          rfl
      · have hnone : s.flights[place]? = none := by
          simpa [Option.eq_none_iff_forall_ne_some] using hplace
        simp [measured, effects, hnone, Effect.measurements] at hm
  | claim place =>
      rw [measured_claim] at hm
      cases hm
  | save result =>
      rw [measured_save] at hm
      obtain ⟨t, -, rfl⟩ := List.mem_map.mp hm
      rfl
  | _ => simp [measured, effects, Effect.measurements] at hm

/-- No action counts a request. -/
theorem requests_step (s : Service κ) (a : Action κ) :
    (s.step a).world.registry.requests = s.world.registry.requests ∧
      (s.step a).world.registry.requestDurations = s.world.registry.requestDurations := by
  have hbase := (s.registry_base a).1
  rw [world, step_placed, Engine.performAll_registry, hbase]
  split
  · exact Registry.requests_recordAll _ (s.not_isRequest_of_measured a)
  · exact ⟨rfl, rfl⟩

theorem requests_accept (s : Service κ) (r : Request) :
    (s.accept r).2.world.registry.requests = s.world.registry.requests ∧
      (s.accept r).2.world.registry.requestDurations = s.world.registry.requestDurations := by
  rcases s.accept_eq_step r with hsame | ⟨a, hstep⟩
  · rw [hsame]
    exact ⟨rfl, rfl⟩
  · rw [hstep]
    exact s.requests_step a

end Service

/-! ## Traffic -/

/-- A request that has been received and not yet answered. -/
structure OpenRequest where
  request : Request
  reception : Reception

/-- The response to an open request, once it can be given. -/
def OpenRequest.response? {κ : Type} (o : OpenRequest) (s : Service κ) : Option Response :=
  match o.reception with
  | .answered response => some response
  | .storing snapshot =>
    if s.isDoneWith snapshot then some (.ofStatus s.state.status) else none

/-- A service, the requests to it that are under way, and all that were answered, with the
responses that were sent. -/
structure Traffic (κ : Type) where
  service : Service κ
  pending : List OpenRequest
  answers : List (Request × Response)

/-- What may happen in traffic. -/
inductive Incident (κ : Type) where
  | receive (r : Request)
  /-- The request at a place among those under way is answered, after so many seconds. -/
  | answer (place : Nat) (seconds : Float)
  /-- The client of the request at a place goes away. -/
  | leave (place : Nat)
  | act (a : Action κ)

/-- The labels under which an answered request is counted. -/
def labelsOf (a : Request × Response) : List String :=
  [a.1.method, a.1.endpoint, String.ofList (Decimal.natDigits a.2.status)]

/-- The labels under which the duration of an answered request is observed. -/
def durationLabelsOf (a : Request × Response) : List String :=
  [a.1.method, a.1.endpoint]

namespace Traffic

variable {κ : Type}

/-- A service to which no request has been made. -/
def opened (s : Service κ) : Traffic κ :=
  ⟨s, [], []⟩

abbrev registry (t : Traffic κ) : Registry :=
  t.service.world.registry

/-- The answers that are counted. -/
def counted (t : Traffic κ) : List (Request × Response) :=
  t.answers.filter fun a => !a.1.isPreflight

def answer (t : Traffic κ) (place : Nat) (seconds : Float) : Traffic κ :=
  match t.pending[place]? with
  | none => t
  | some o =>
    match o.response? t.service with
    | none => t
    | some response =>
      { service := t.service.countRequest o.request response seconds
        pending := t.pending.eraseIdx place
        answers := t.answers ++ [(o.request, response.sent o.request)] }

variable [DecidableEq κ]

/-- Receives a request.  One for the options of a path is answered at once. -/
def receive (t : Traffic κ) (r : Request) : Traffic κ :=
  if r.isPreflight then { t with answers := t.answers ++ [(r, .preflight r)] }
  else
    { t with
      service := (t.service.accept r).2
      pending := t.pending ++ [⟨r, (t.service.accept r).1⟩] }

def step (t : Traffic κ) : Incident κ → Traffic κ
  | .receive r => t.receive r
  | .answer place seconds => t.answer place seconds
  | .leave place => { t with pending := t.pending.eraseIdx place }
  | .act a => { t with service := t.service.step a }

def run (t : Traffic κ) (incidents : List (Incident κ)) : Traffic κ :=
  incidents.foldl step t

@[simp] theorem run_nil (t : Traffic κ) : t.run [] = t := rfl

@[simp] theorem run_cons (t : Traffic κ) (i : Incident κ) (incidents : List (Incident κ)) :
    t.run (i :: incidents) = (t.step i).run incidents := rfl

theorem run_append (t : Traffic κ) (is js : List (Incident κ)) :
    t.run (is ++ js) = (t.run is).run js :=
  List.foldl_append

theorem run_act (t : Traffic κ) (as : List (Action κ)) :
    t.run (as.map .act) = { t with service := t.service.run as } := by
  induction as generalizing t with
  | nil => rfl
  | cons a as ih =>
      rw [List.map_cons, run_cons, ih]
      rfl

/-- A request that is answered before another one comes is a part of traffic. -/
theorem exists_run_of_answered {s u : Service κ} {r : Request} {seconds : Float}
    {response : Response} (h : Service.Answered r seconds s response u)
    (answers : List (Request × Response)) :
    ∃ incidents : List (Incident κ), (∀ q, .receive q ∈ incidents → q = r) ∧
      (Traffic.mk s [] answers).run incidents = ⟨u, [], answers ++ [(r, response)]⟩ := by
  cases h with
  | preflight hpreflight =>
      refine ⟨[.receive r], ?_, ?_⟩
      · simp
      · simp [step, receive, hpreflight]
  | atOnce hrouted haccepted =>
      refine ⟨[.receive r, .answer 0 seconds], ?_, ?_⟩
      · simp
      · simp [step, receive, answer, hrouted, OpenRequest.response?, haccepted]
  | @stored snapshot as hrouted haccepted hstores hdone =>
      refine ⟨.receive r :: (as.map .act ++ [.answer 0 seconds]), ?_, ?_⟩
      · simp
      · rw [run_cons, run_append, run_act]
        simp [step, receive, answer, hrouted, OpenRequest.response?, haccepted, hdone]

/-- A request under way was so before, or is received now and is not for options. -/
theorem mem_pending_step {t : Traffic κ} {i : Incident κ} {o : OpenRequest}
    (h : o ∈ (t.step i).pending) :
    o ∈ t.pending ∨ ∃ r, i = .receive r ∧ r.isPreflight = false ∧
      o = ⟨r, (t.service.accept r).1⟩ := by
  cases i with
  | receive r =>
      by_cases hpreflight : r.isPreflight = true
      · rw [step, receive, if_pos hpreflight] at h
        exact .inl h
      · rw [step, receive, if_neg hpreflight] at h
        rcases List.mem_append.mp h with hbefore | hnew
        · exact .inl hbefore
        · exact .inr ⟨r, rfl, Bool.eq_false_iff.mpr hpreflight, List.mem_singleton.mp hnew⟩
  | answer place seconds =>
      simp only [step, answer] at h
      split at h
      · exact .inl h
      · split at h
        · exact .inl h
        · exact .inl (List.mem_of_mem_eraseIdx h)
  | leave place => exact .inl (List.mem_of_mem_eraseIdx h)
  | act a => exact .inl h

/-- What has been answered was so before, or is answered now: a request for options when it is
received, and any other when its response can be given. -/
theorem mem_answers_step {t : Traffic κ} {i : Incident κ} {a : Request × Response}
    (h : a ∈ (t.step i).answers) :
    a ∈ t.answers ∨ (∃ r, i = .receive r ∧ a = (r, .preflight r)) ∨
      ∃ o ∈ t.pending, ∃ response, o.response? t.service = some response ∧
        a = (o.request, response.sent o.request) := by
  cases i with
  | receive r =>
      by_cases hpreflight : r.isPreflight = true
      · rw [step, receive, if_pos hpreflight] at h
        rcases List.mem_append.mp h with hbefore | hnew
        · exact .inl hbefore
        · exact .inr (.inl ⟨r, rfl, List.mem_singleton.mp hnew⟩)
      · rw [step, receive, if_neg hpreflight] at h
        exact .inl h
  | answer place seconds =>
      simp only [step, answer] at h
      split at h
      · exact .inl h
      · next o hplace =>
          split at h
          · exact .inl h
          · next response hresponse =>
              rcases List.mem_append.mp h with hbefore | hnew
              · exact .inl hbefore
              · exact .inr (.inr ⟨o, List.mem_of_getElem? hplace, response, hresponse,
                  List.mem_singleton.mp hnew⟩)
  | leave place => exact .inl h
  | act a => exact .inl h

/-! ## The registry follows the answers -/

/-- The registry holds of requests what the answers say. -/
structure Recorded (t : Traffic κ) : Prop where
  requests_eq : t.registry.requests = Series.tally (t.counted.map labelsOf)
  durations_eq : Series.counts t.registry.requestDurations =
    Series.tally (t.counted.map durationLabelsOf)
  /-- A request for the options of a path is never under way. -/
  routed : ∀ o ∈ t.pending, o.request.isPreflight = false

namespace Recorded

variable {t : Traffic κ}

omit [DecidableEq κ] in
theorem opened {s : Service κ} (hrequests : s.world.registry.requests = [])
    (hdurations : s.world.registry.requestDurations = []) : Recorded (.opened s) := by
  refine ⟨hrequests, ?_, ?_⟩
  · simp only [Traffic.opened, registry, hdurations]
    rfl
  · intro o ho
    cases ho

omit [DecidableEq κ] in
/-- What leaves the counts of requests and the answers alone changes nothing. -/
theorem of_same {u : Traffic κ} (h : Recorded t)
    (hrequests : u.registry.requests = t.registry.requests)
    (hdurations : u.registry.requestDurations = t.registry.requestDurations)
    (hcounted : u.counted = t.counted)
    (hrouted : ∀ o ∈ u.pending, o.request.isPreflight = false) : Recorded u := by
  refine ⟨?_, ?_, hrouted⟩
  · rw [hrequests, hcounted, h.requests_eq]
  · rw [hdurations, hcounted, h.durations_eq]

omit [DecidableEq κ] in
theorem answer (h : Recorded t) (place : Nat) (seconds : Float)
    (hrouted : ∀ o ∈ (t.answer place seconds).pending, o.request.isPreflight = false) :
    Recorded (t.answer place seconds) := by
  rw [Traffic.answer] at hrouted ⊢
  split at hrouted
  · exact h
  · next o hplace =>
      split at hrouted
      · exact h
      · next response hresponse =>
          have hown := h.routed o (List.mem_of_getElem? hplace)
          have hcounted : (t.answers ++ [(o.request, response.sent o.request)]).filter
                (fun a => !a.1.isPreflight) =
              t.counted ++ [(o.request, response.sent o.request)] := by
            simp [counted, hown]
          refine ⟨?_, ?_, hrouted⟩
          · calc
              _ = Registry.count (labelsOf (o.request, response.sent o.request))
                    t.registry.requests := by
                rw [labelsOf, Response.status_sent]
                rfl
              _ = _ := by
                rw [counted, hcounted, List.map_append, List.map_singleton, Series.tally_concat,
                  h.requests_eq]
          · calc
              _ = Registry.count (durationLabelsOf (o.request, response.sent o.request))
                    (Series.counts t.registry.requestDurations) :=
                Series.counts_observe _ _ _ _
              _ = _ := by
                rw [counted, hcounted, List.map_append, List.map_singleton, Series.tally_concat,
                  h.durations_eq]

theorem receive (h : Recorded t) (r : Request)
    (hrouted : ∀ o ∈ (t.receive r).pending, o.request.isPreflight = false) :
    Recorded (t.receive r) := by
  by_cases hpreflight : r.isPreflight = true
  · rw [Traffic.receive, if_pos hpreflight] at hrouted ⊢
    refine h.of_same rfl rfl ?_ hrouted
    simp [counted, hpreflight]
  · rw [Traffic.receive, if_neg hpreflight] at hrouted ⊢
    obtain ⟨hrequests, hdurations⟩ := t.service.requests_accept r
    generalize t.service.accept r = accepted at hrequests hdurations hrouted ⊢
    exact h.of_same hrequests hdurations rfl hrouted

theorem step (h : Recorded t) (i : Incident κ) : Recorded (t.step i) := by
  have hrouted : ∀ o ∈ (t.step i).pending, o.request.isPreflight = false := by
    intro o ho
    rcases mem_pending_step ho with hbefore | ⟨r, -, hr, rfl⟩
    · exact h.routed o hbefore
    · exact hr
  cases i with
  | receive r => exact h.receive r hrouted
  | answer place seconds => exact h.answer place seconds hrouted
  | leave place => exact of_same (u := t.step (.leave place)) h rfl rfl rfl hrouted
  | act a =>
      obtain ⟨hrequests, hdurations⟩ := t.service.requests_step a
      exact h.of_same hrequests hdurations rfl hrouted

theorem run (h : Recorded t) (incidents : List (Incident κ)) : Recorded (t.run incidents) := by
  induction incidents generalizing t with
  | nil => exact h
  | cons i incidents ih => exact ih (h.step i)

end Recorded
end Traffic
end Polling
end SearchPolling
