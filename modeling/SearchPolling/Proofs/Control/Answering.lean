import SearchPolling.Api.Reception
import SearchPolling.Proofs.Service.Basic

/-!
# Answering requests

A request for the options of a path is answered without a look at the service.  Any other
request is received by the service, is answered, and is counted.  Between its reception and
its answer a request may wait until its snapshot has been stored or skipped, and for that
those who came before it have to store theirs; nothing else happens in between.

Reception is nothing new for the service (`Service.accept_eq_step`): a request does nothing,
or it is a command, or it describes the search.  And every request gets its answer, however
many snapshots wait (`Service.exists_answer`).
-/

namespace SearchPolling

/-- Whether an action asks for a command or for another search. -/
def Api.Action.changes : Api.Action → Bool
  | .command _ => true
  | .setRequest _ => true
  | _ => false

namespace Polling

open Api (Reception Request Response)

/-- Whether an action brings the storing of records forward. -/
def Action.stores {κ : Type} : Action κ → Bool
  | .claim _ => true
  | .save _ => true
  | _ => false

namespace Service

variable {κ : Type}

/-- Whether a snapshot has been stored or skipped. -/
def isDoneWith (s : Service κ) (t : Snapshot) : Bool :=
  t ∉ s.waiting && s.writing ≠ some t

/-- The service in which a request has been counted. -/
def countRequest (s : Service κ) (r : Request) (response : Response) (seconds : Float) :
    Service κ :=
  s.withWorld (Api.respond s.world r response seconds).2

/-- A service whose requests may have been counted and timed otherwise. -/
def withRequests (s : Service κ) (requests : Metrics.Series Nat)
    (durations : Metrics.Series Metrics.Histogram) : Service κ :=
  s.withWorld { s.world with
    registry := { s.world.registry with requests := requests, requestDurations := durations } }

theorem exists_withRequests (s : Service κ) (r : Request) (response : Response)
    (seconds : Float) :
    ∃ requests durations, s.countRequest r response seconds = s.withRequests requests durations :=
  ⟨_, _, rfl⟩

variable [DecidableEq κ]

/-- The service that has received a request, with its snapshot among those that wait. -/
def accept (s : Service κ) (r : Request) : Reception × Service κ :=
  let (reception, p) := Api.receive s.placed r
  let waiting :=
    match reception with
    | .answered _ => s.waiting
    | .storing snapshot => s.waiting ++ [snapshot]
  (reception, { s with placed := p, waiting })

/-- How a request is answered: with which response, and which service it leaves. -/
inductive Answered (r : Request) (seconds : Float) (s : Service κ) : Response → Service κ → Prop
  | preflight (h : r.isPreflight = true) : Answered r seconds s (.preflight r) s
  | atOnce {response : Response} (h : r.isPreflight = false)
      (haccepted : (s.accept r).1 = .answered response) :
      Answered r seconds s (response.sent r) ((s.accept r).2.countRequest r response seconds)
  | stored {snapshot : Snapshot} {as : List (Action κ)} (h : r.isPreflight = false)
      (haccepted : (s.accept r).1 = .storing snapshot) (hstores : ∀ a ∈ as, a.stores = true)
      (hdone : ((s.accept r).2.run as).isDoneWith snapshot = true) :
      Answered r seconds s
        ((Response.ofStatus ((s.accept r).2.run as).state.status).sent r)
        (((s.accept r).2.run as).countRequest r
          (.ofStatus ((s.accept r).2.run as).state.status) seconds)

/-! ## What a request asks of the service -/

theorem accept_command (s : Service κ) {r : Request} {c : Command} (h : r.action = .command c) :
    (s.accept r).2 = s.step (.command c) := by
  simp only [accept, Api.receive, h, step, obey]
  cases (Engine.command s.placed c).1 with
  | error e => simp [Reception.ofCommand, snapshotsOf]
  | ok snapshot => cases snapshot <;> simp [Reception.ofCommand, snapshotsOf]

theorem accept_setRequest (s : Service κ) {r : Request} {q : Search.Request}
    (h : r.action = .setRequest q) :
    (s.accept r).1 = .answered (.empty 204) ∧
      (s.accept r).2 = s.step (.describe (.request q)) := by
  constructor
  · simp only [accept, Api.receive, h]
  · simp only [accept, Api.receive, h]
    rfl

/-- A request that asks neither for a command nor for another search is answered at once, and
leaves the service as it is. -/
theorem accept_of_not_changes (s : Service κ) {r : Request} (h : r.action.changes = false) :
    (∃ response, (s.accept r).1 = .answered response) ∧ (s.accept r).2 = s := by
  cases haction : r.action with
  | command c => simp [haction, Api.Action.changes] at h
  | setRequest q => simp [haction, Api.Action.changes] at h
  | reply response =>
      refine ⟨⟨response, ?_⟩, ?_⟩ <;> simp only [accept, Api.receive, haction]
  | showStatus =>
      refine ⟨⟨.ofStatus s.state.status, ?_⟩, ?_⟩ <;> simp only [accept, Api.receive, haction]
  | showMetrics =>
      refine ⟨⟨.ofMetrics s.world.registry, ?_⟩, ?_⟩ <;> simp only [accept, Api.receive, haction]

/-- To the service a request is an action, if it is anything. -/
theorem accept_eq_step (s : Service κ) (r : Request) :
    (s.accept r).2 = s ∨ ∃ a, (s.accept r).2 = s.step a := by
  cases haction : r.action with
  | command c => exact .inr ⟨.command c, s.accept_command haction⟩
  | setRequest q => exact .inr ⟨.describe (.request q), (s.accept_setRequest haction).2⟩
  | _ =>
      have hchanges : r.action.changes = false := by
        rw [haction]
        rfl
      exact .inl (s.accept_of_not_changes hchanges).2

/-! ## Every request is answered -/

theorem writing_save (s : Service κ) :
    (s.step (.save (.ok ()))).writing = none ∧
      (s.step (.save (.ok ()))).waiting = s.waiting := by
  simp only [step, endSave]
  cases hwriting : s.writing with
  | none => exact ⟨hwriting, rfl⟩
  | some t => exact ⟨rfl, rfl⟩

theorem waiting_claim {s : Service κ} (h : s.writing = none) {t : Snapshot} {rest : List Snapshot}
    (hwaiting : s.waiting = t :: rest) : (s.step (.claim 0)).waiting = rest := by
  simp [step, takeTurn, h, hwaiting]

/-- All snapshots that wait can be stored or skipped, one after another. -/
theorem exists_stored (s : Service κ) :
    ∃ as : List (Action κ), (∀ a ∈ as, a.stores = true) ∧ (s.run as).waiting = [] ∧
      (s.run as).writing = none := by
  induction hwaiting : s.waiting generalizing s with
  | nil =>
      obtain ⟨hidle, hsame⟩ := s.writing_save
      refine ⟨[.save (.ok ())], ?_, ?_, ?_⟩
      · simp [Action.stores]
      · exact hsame.trans hwaiting
      · exact hidle
  | cons t rest ih =>
      obtain ⟨hidle, hsame⟩ := s.writing_save
      have hrest := waiting_claim hidle (hsame.trans hwaiting)
      obtain ⟨as, hstores, hnone, hdone⟩ := ih ((s.step (.save (.ok ()))).step (.claim 0)) hrest
      refine ⟨.save (.ok ()) :: .claim 0 :: as, ?_, hnone, hdone⟩
      intro a ha
      rcases List.mem_cons.mp ha with rfl | ha
      · rfl
      · rcases List.mem_cons.mp ha with rfl | ha
        · rfl
        · exact hstores a ha

theorem exists_answer (s : Service κ) (r : Request) (seconds : Float) :
    ∃ response t, Answered r seconds s response t := by
  by_cases hpreflight : r.isPreflight = true
  · exact ⟨_, _, .preflight hpreflight⟩
  · have hrouted : r.isPreflight = false := by simpa using hpreflight
    cases haccepted : (s.accept r).1 with
    | answered response => exact ⟨_, _, .atOnce hrouted haccepted⟩
    | storing snapshot =>
        obtain ⟨as, hstores, hwaiting, hwriting⟩ := (s.accept r).2.exists_stored
        have hdone : ((s.accept r).2.run as).isDoneWith snapshot = true := by
          simp [isDoneWith, hwaiting, hwriting]
        exact ⟨_, _, .stored hrouted haccepted hstores hdone⟩

end Service
end Polling
end SearchPolling
