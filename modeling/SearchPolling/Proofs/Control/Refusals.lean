import SearchPolling.Proofs.Control.Answering
import SearchPolling.Proofs.Timers.Periods

/-!
# Requests that are refused

A request may be refused in many places: its path is unknown, its method is another one, its
body is of another type, too long, no JSON, or JSON of another shape, its query cannot be
read, or its interval is out of range.  All of these come before polling is asked for
anything, and polling itself refuses nothing that gets through to it.  So a request that is
refused has changed nothing but the count of requests, and neither has one that only looks.
-/

namespace SearchPolling

open Polling (Command Service checkInterval)

namespace Api

theorem IntervalChange.isValid_iff (c : IntervalChange) :
    c.isValid = true ↔ 1 ≤ c.seconds.toNat ∧ c.seconds.toNat ≤ 86400 := by
  simp only [isValid, Bool.and_eq_true, decide_eq_true_eq, UInt64.le_iff_toNat_le]
  rfl

/-- An interval may be asked for if and only if polling can use it. -/
theorem IntervalChange.isValid_eq (c : IntervalChange) :
    c.isValid = (checkInterval c.seconds).isOk := by
  have hcheck : checkInterval c.seconds = .ok () ↔ c.isValid = true :=
    Polling.checkInterval_eq_ok.trans c.isValid_iff.symm
  cases hresult : checkInterval c.seconds with
  | ok _ => exact hcheck.mp hresult
  | error e =>
      have hinvalid : ¬c.isValid = true := by
        rw [← hcheck, hresult]
        exact nofun
      simpa [Except.isOk, Except.toBool] using hinvalid

namespace Response

/-- A response is sent with the status that it has. -/
theorem isSuccess_sent (response : Response) (r : Request) :
    (response.sent r).isSuccess = response.isSuccess := by
  simp only [sent]
  split <;> rfl

end Response

namespace Request

variable {r : Request}

theorem withBody_eq_command {α : Type} {d : Json.Decoder α} {act : α → Action} {c : Command}
    (h : r.withBody d act = .command c) : ∃ a, r.decoded d = .ok a ∧ act a = .command c := by
  simp only [withBody] at h
  split at h
  · next a hdecoded => exact ⟨a, hdecoded, h⟩
  · cases h

/-- A request has to get through to its route to be asked for anything. -/
theorem action_of_changes (h : r.action.changes = true) :
    ∃ route, r.route? = some route ∧ route.method.accepts r.method = true ∧
      r.action = r.routedAction route := by
  simp only [action] at h ⊢
  split at h
  · cases h
  · next route hroute =>
      split at h
      · next haccepts => exact ⟨route, hroute, haccepts, if_pos haccepts⟩
      · cases h

/-- Routes that are read from ask for nothing. -/
theorem not_changes_of_read (h : r.method = "GET" ∨ r.method = "HEAD") :
    r.action.changes = false := by
  by_contra hchanges
  obtain ⟨route, -, haccepts, haction⟩ := action_of_changes (by simpa using hchanges)
  rw [haction] at hchanges
  cases route <;> rcases h with h | h <;>
    simp [Route.method, Method.accepts, h, routedAction, Action.changes] at haccepts hchanges

/-- An interval that is asked for can be used. -/
theorem isOk_of_setInterval {seconds : UInt64} (h : r.action = .command (.setInterval seconds)) :
    (checkInterval seconds).isOk = true := by
  obtain ⟨route, -, -, haction⟩ := action_of_changes (r := r) (by rw [h]; rfl)
  rw [haction] at h
  cases route with
  | interval =>
      obtain ⟨c, -, hact⟩ := withBody_eq_command h
      split at hact
      · next hvalid =>
          obtain rfl : c.seconds = seconds := by simpa using hact
          rw [← c.isValid_eq, hvalid]
      · cases hact
  | stop =>
      simp only [routedAction, stopAction] at h
      split at h <;> cases h
  | suppression =>
      obtain ⟨c, -, hact⟩ := withBody_eq_command h
      cases hact
  | query =>
      obtain ⟨c, -, hact⟩ := withBody_eq_command h
      cases hact
  | _ => cases h

/-- Polling refuses no command that a request asks for. -/
theorem exists_call {c : Command} (h : r.action = .command c) (s : Polling.State) :
    ∃ call, c.call s = .ok call := by
  cases c with
  | setInterval seconds =>
      have hok := isOk_of_setInterval h
      cases hcheck : checkInterval seconds with
      | error e => simp [hcheck, Except.isOk, Except.toBool] at hok
      | ok _ => exact ⟨Command.callSetInterval s seconds, by simp [Command.call, hcheck]⟩
  | _ => exact ⟨_, rfl⟩

/-- An interval in a body that can be decoded is asked for if it can be used, and refused
otherwise. -/
theorem action_of_interval {c : IntervalChange} (hroute : r.route? = some .interval)
    (hmethod : r.method = "PUT") (hdecoded : r.decoded IntervalChange.decoder = .ok c) :
    r.action = if c.isValid then .command (.setInterval c.seconds) else .reply refuseInterval := by
  have haccepts : Route.interval.method.accepts r.method = true := by
    simp [Route.method, Method.accepts, hmethod]
  simp only [action, hroute, haccepts, if_true, routedAction, withBody, hdecoded]

end Request
end Api

namespace Polling
namespace Service

open Api (Reception Request Response)

variable {κ : Type} [DecidableEq κ] {s t : Service κ} {r : Request} {response : Response}
  {seconds : Float}

theorem accept_call {c : Command} {call : Call} (h : r.action = .command c)
    (hcall : c.call s.state = .ok call) :
    (s.accept r).1 = .ofCommand (.ok call.snapshot) (s.accept r).2.state.status := by
  simp only [accept, Api.receive, h, Engine.command, hcall]

/-- What asks for nothing leaves everything as it is but the count of requests. -/
theorem Answered.unchanged (h : Answered r seconds s response t)
    (hchanges : r.action.changes = false) :
    ∃ requests durations, t = s.withRequests requests durations := by
  obtain ⟨⟨answer, hanswer⟩, hsame⟩ := s.accept_of_not_changes hchanges
  cases h with
  | preflight _ => exact ⟨_, _, rfl⟩
  | atOnce _ _ =>
      rw [hsame]
      exact s.exists_withRequests _ _ _
  | stored _ haccepted _ _ =>
      rw [hanswer] at haccepted
      cases haccepted

/-- What asks for something is granted. -/
theorem Answered.isSuccess_of_changes (h : Answered r seconds s response t)
    (hchanges : r.action.changes = true) : response.isSuccess = true := by
  cases h with
  | preflight _ => rfl
  | stored _ _ _ _ => exact Response.isSuccess_sent _ r
  | @atOnce answer _ haccepted =>
      rw [Response.isSuccess_sent]
      cases haction : r.action with
      | command c =>
          obtain ⟨call, hcall⟩ := Request.exists_call haction s.state
          rw [accept_call haction hcall] at haccepted
          cases hsnapshot : call.snapshot with
          | none =>
              rw [hsnapshot] at haccepted
              obtain rfl := Reception.answered.inj haccepted
              rfl
          | some snapshot =>
              rw [hsnapshot] at haccepted
              cases haccepted
      | setRequest q =>
          rw [(s.accept_setRequest haction).1] at haccepted
          obtain rfl := Reception.answered.inj haccepted
          rfl
      | reply _ => simp [haction, Api.Action.changes] at hchanges
      | showStatus => simp [haction, Api.Action.changes] at hchanges
      | showMetrics => simp [haction, Api.Action.changes] at hchanges

theorem Answered.unchanged_of_refused (h : Answered r seconds s response t)
    (hrefused : response.isSuccess = false) :
    ∃ requests durations, t = s.withRequests requests durations := by
  apply h.unchanged
  by_contra hchanges
  have hgranted := h.isSuccess_of_changes (by simpa using hchanges)
  rw [hrefused] at hgranted
  cases hgranted

/-- A request for the options of a path does not even get to the service. -/
theorem Answered.unchanged_of_options (h : Answered r seconds s response t)
    (hmethod : r.method = "OPTIONS") :
    ∃ requests durations, t = s.withRequests requests durations := by
  have hpreflight : r.isPreflight = true := decide_eq_true hmethod
  cases h with
  | preflight _ => exact ⟨_, _, rfl⟩
  | atOnce hrouted _ =>
      rw [hpreflight] at hrouted
      cases hrouted
  | stored hrouted _ _ _ =>
      rw [hpreflight] at hrouted
      cases hrouted

/-- A request that is refused at once is sent that refusal. -/
theorem Answered.of_reply (h : Answered r seconds s response t) {refusal : Response}
    (hrouted : r.isPreflight = false) (haction : r.action = .reply refusal) :
    response = refusal.sent r := by
  have haccepted : (s.accept r).1 = .answered refusal := by
    simp only [accept, Api.receive, haction]
  cases h with
  | preflight hpreflight =>
      rw [hrouted] at hpreflight
      cases hpreflight
  | atOnce _ hanswer =>
      rw [haccepted] at hanswer
      rw [Reception.answered.inj hanswer]
  | stored _ hstoring _ _ =>
      rw [haccepted] at hstoring
      cases hstoring

theorem Answered.isSuccess_of_interval (h : Answered r seconds s response t)
    {c : Api.IntervalChange} (hroute : r.route? = some .interval) (hmethod : r.method = "PUT")
    (hdecoded : r.decoded Api.IntervalChange.decoder = .ok c) :
    response.isSuccess = c.isValid := by
  have haction := Request.action_of_interval hroute hmethod hdecoded
  by_cases hvalid : c.isValid = true
  · rw [if_pos hvalid] at haction
    rw [hvalid]
    apply h.isSuccess_of_changes
    rw [haction]
    rfl
  · have hrouted : r.isPreflight = false := by simp [Request.isPreflight, hmethod]
    rw [if_neg hvalid] at haction
    rw [h.of_reply hrouted haction, Response.isSuccess_sent]
    exact (Bool.eq_false_iff.mpr hvalid).symm

end Service

open Service in
/-- Every request can be answered.  One that is refused, and one that only looks, leaves
everything as it is but the count of requests: the state, the timers and queries, the search,
the store, all other metrics and all that the operator is told.  A request to set the interval
whose body can be decoded is granted if and only if the interval is from one second to one
day; that is what is asked of the body and what polling asks, so that polling refuses no
command of any request. -/
theorem refused_requests_change_nothing {κ : Type} [DecidableEq κ] (s : Service κ)
    (r : Api.Request) (seconds : Float) :
    (∃ response t, Answered r seconds s response t) ∧
      (∀ response t, Answered r seconds s response t →
        response.isSuccess = false ∨ r.method ∈ ["GET", "HEAD", "OPTIONS"] →
          ∃ requests durations, t = s.withRequests requests durations) ∧
      (∀ c, r.route? = some .interval → r.method = "PUT" →
        r.decoded Api.IntervalChange.decoder = .ok c →
          ∀ response t, Answered r seconds s response t →
            (response.isSuccess = true ↔ 1 ≤ c.seconds.toNat ∧ c.seconds.toNat ≤ 86400)) ∧
      (∀ c : Api.IntervalChange, c.isValid = (checkInterval c.seconds).isOk) ∧
      ∀ c, r.action = .command c → ∃ snapshot, (Engine.command s.placed c).1 = .ok snapshot := by
  refine ⟨s.exists_answer r seconds, ?_, ?_, Api.IntervalChange.isValid_eq, ?_⟩
  · intro response t hanswered hcase
    rcases hcase with hrefused | hlooks
    · exact hanswered.unchanged_of_refused hrefused
    · simp only [List.mem_cons, List.not_mem_nil, or_false] at hlooks
      rcases hlooks with hget | hhead | hoptions
      · exact hanswered.unchanged (Api.Request.not_changes_of_read (.inl hget))
      · exact hanswered.unchanged (Api.Request.not_changes_of_read (.inr hhead))
      · exact hanswered.unchanged_of_options hoptions
  · intro c hroute hmethod hdecoded response t hanswered
    rw [hanswered.isSuccess_of_interval hroute hmethod hdecoded]
    exact c.isValid_iff
  · intro c haction
    obtain ⟨call, hcall⟩ := Api.Request.exists_call haction s.state
    exact ⟨call.snapshot, by simp only [Engine.command, hcall]⟩

open Service in
/-- One day and one second are refused by polling that is active, and one day is granted. -/
theorem refused_beyond_one_day :
    let s : Service Unit := Launch.standard.run [.command .start]
    let ask (body : String) : Api.Request :=
      ⟨"PUT", "/polling/interval", [("content-type", "application/json")], body.toUTF8.toList⟩
    let long := ask "\x7b\"seconds\": 86401\x7d"
    let day := ask "\x7b\"seconds\": 86400\x7d"
    (long.decoded Api.IntervalChange.decoder).toOption = some ⟨86401⟩ ∧
      (day.decoded Api.IntervalChange.decoder).toOption = some ⟨86400⟩ ∧
      (∃ response t, Answered long 0 s response t ∧ response.isSuccess = false ∧
        ∃ requests durations, t = s.withRequests requests durations) ∧
      ∃ response t, Answered day 0 s response t ∧ response.isSuccess = true := by
  intro s ask long day
  have hlong : (long.decoded Api.IntervalChange.decoder).toOption = some ⟨86401⟩ := by
    decide +kernel
  have hday : (day.decoded Api.IntervalChange.decoder).toOption = some ⟨86400⟩ := by
    decide +kernel
  have hok {r : Api.Request} {c : Api.IntervalChange}
      (h : (r.decoded Api.IntervalChange.decoder).toOption = some c) :
      r.decoded Api.IntervalChange.decoder = .ok c := by
    cases hdecoded : r.decoded Api.IntervalChange.decoder with
    | error refusal => simp [hdecoded, Except.toOption] at h
    | ok d => simpa [hdecoded, Except.toOption] using h
  refine ⟨hlong, hday, ?_, ?_⟩
  · obtain ⟨⟨response, t, hanswered⟩, hunchanged, hinterval, -⟩ :=
      refused_requests_change_nothing s long 0
    have hrange := hinterval _ (by decide +kernel) rfl (hok hlong) response t hanswered
    have hrefused : response.isSuccess = false := by
      rw [← Bool.not_eq_true, hrange]
      decide
    exact ⟨response, t, hanswered, hrefused, hunchanged response t hanswered (.inl hrefused)⟩
  · obtain ⟨⟨response, t, hanswered⟩, -, hinterval, -⟩ :=
      refused_requests_change_nothing s day 0
    have hrange := hinterval _ (by decide +kernel) rfl (hok hday) response t hanswered
    exact ⟨response, t, hanswered, hrange.mpr (by decide)⟩

end Polling
end SearchPolling
