import SearchPolling.Proofs.Control.Traffic

/-!
# The labels of requests

A request is counted under three labels.  The endpoint is the path of a route, or says that
there is none, and the status is one of eight; of neither a client chooses the text.  But the
method is counted as it was sent, and any token is a method.
-/

namespace SearchPolling

namespace Api

/-- The statuses that responses have. -/
def statuses : List Nat :=
  [200, 204, 400, 404, 405, 413, 415, 422]

/-- The names under which paths are counted. -/
def endpoints : List String :=
  "unmatched" :: Route.all.map Route.path

namespace Request

/-- Whether the method of a request is a token, as every method has to be. -/
def hasToken (r : Request) : Bool :=
  r.method ≠ "" && r.method.toList.all MediaType.isToken

theorem endpoint_mem (r : Request) : r.endpoint ∈ endpoints := by
  rw [endpoint]
  split
  · next route _ =>
      apply List.mem_cons_of_mem
      apply List.mem_map_of_mem
      cases route <;> decide
  · exact List.mem_cons_self

theorem status_decoded {α : Type} {r : Request} {d : Json.Decoder α} {response : Response}
    (h : r.decoded d = .error response) : response.status ∈ statuses := by
  simp only [decoded] at h
  split at h
  · split at h
    · obtain rfl := Except.error.inj h
      decide
    · split at h
      · cases h
      · next f _ =>
          obtain rfl := Except.error.inj h
          rw [refuseBody]
          split <;> simp [Response.text, statuses]
  · obtain rfl := Except.error.inj h
    decide

theorem status_withBody {α : Type} {r : Request} {d : Json.Decoder α} {act : α → Action}
    (hact : ∀ a response, act a = .reply response → response.status ∈ statuses)
    {response : Response} (h : r.withBody d act = .reply response) :
    response.status ∈ statuses := by
  simp only [withBody] at h
  split at h
  · exact hact _ _ h
  · next hdecoded =>
      obtain rfl := Action.reply.inj h
      exact status_decoded hdecoded

/-- What is answered at once has one of the statuses. -/
theorem status_of_reply {r : Request} {response : Response} (h : r.action = .reply response) :
    response.status ∈ statuses := by
  simp only [action] at h
  split at h
  · obtain rfl := Action.reply.inj h
    decide
  · next route _ =>
      split at h
      · cases route with
        | root =>
            obtain rfl := Action.reply.inj h
            decide
        | health =>
            obtain rfl := Action.reply.inj h
            simp [Response.json, statuses]
        | stop =>
            simp only [routedAction, stopAction] at h
            split at h
            · cases h
            · obtain rfl := Action.reply.inj h
              simp [Response.text, statuses]
        | interval =>
            refine status_withBody ?_ h
            intro c refusal hact
            split at hact
            · cases hact
            · obtain rfl := Action.reply.inj hact
              simp [refuseInterval, Response.json, statuses]
        | suppression =>
            refine status_withBody ?_ h
            intro c refusal hact
            cases hact
        | query =>
            refine status_withBody ?_ h
            intro q refusal hact
            cases hact
        | _ => cases h
      · obtain rfl := Action.reply.inj h
        simp [Response.withHeaders, Response.empty, statuses]

end Request

theorem status_receive {κ : Type} [DecidableEq κ] {p : Polling.Engine.Placed κ} {r : Request}
    {response : Response} (h : (receive p r).1 = .answered response) :
    response.status ∈ statuses := by
  simp only [receive] at h
  split at h
  · next hreply =>
      obtain rfl := Reception.answered.inj h
      exact Request.status_of_reply hreply
  · obtain rfl := Reception.answered.inj h
    simp [Response.ofStatus, Response.json, statuses]
  · simp only [Reception.ofCommand] at h
    split at h
    · obtain rfl := Reception.answered.inj h
      simp [refuseCommand, Response.json, statuses]
    · obtain rfl := Reception.answered.inj h
      simp [Response.ofStatus, Response.json, statuses]
    · cases h
  · obtain rfl := Reception.answered.inj h
    decide
  · obtain rfl := Reception.answered.inj h
    simp [Response.ofMetrics, statuses]

end Api

namespace Polling

open Api (Request Response endpoints statuses)

namespace Traffic

variable {κ : Type} [DecidableEq κ] {t : Traffic κ}

/-! ## What is answered -/

omit [DecidableEq κ] in
/-- All responses have one of the statuses. -/
structure Usual (t : Traffic κ) : Prop where
  pending : ∀ o ∈ t.pending, ∀ response, o.reception = .answered response →
    response.status ∈ statuses
  answers : ∀ a ∈ t.answers, a.2.status ∈ statuses

theorem Usual.step (h : t.Usual) (i : Incident κ) : (t.step i).Usual := by
  constructor
  · intro o ho response hreception
    rcases mem_pending_step ho with hbefore | ⟨r, -, -, rfl⟩
    · exact h.pending o hbefore response hreception
    · have haccept : (t.service.accept r).1 = (Api.receive t.service.placed r).1 := rfl
      rw [haccept] at hreception
      exact Api.status_receive hreception
  · intro a ha
    rcases mem_answers_step ha with hbefore | ⟨r, -, rfl⟩ | ⟨o, ho, response, hresponse, rfl⟩
    · exact h.answers a hbefore
    · exact List.mem_cons_self
    · rw [Response.status_sent]
      simp only [OpenRequest.response?] at hresponse
      split at hresponse
      · next hreception =>
          obtain rfl := Option.some.inj hresponse
          exact h.pending o ho _ hreception
      · split at hresponse
        · obtain rfl := Option.some.inj hresponse
          exact List.mem_cons_self
        · cases hresponse

omit [DecidableEq κ] in
theorem Usual.opened (s : Service κ) : (Traffic.opened s).Usual := by
  constructor
  · intro o ho
    cases ho
  · intro a ha
    cases ha

theorem Usual.run (h : t.Usual) (incidents : List (Incident κ)) : (t.run incidents).Usual := by
  induction incidents generalizing t with
  | nil => exact h
  | cons i incidents ih => exact ih (h.step i)

end Traffic
end Polling
end SearchPolling
