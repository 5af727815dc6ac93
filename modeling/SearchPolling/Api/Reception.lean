import SearchPolling.Api.Handler
import SearchPolling.Polling.Engine

/-!
# Receiving requests

What becomes of a request when polling receives it.  Most requests are answered at once.  A
request that made polling take a snapshot is answered with the status when that snapshot has
been stored or skipped.  However it is answered, a request is counted when it is.
-/

namespace SearchPolling
namespace Api

open Polling (Engine InvalidInterval Snapshot Status Surroundings)
open Polling.Engine (Placed)

/-- What has become of a request that polling received. -/
inductive Reception where
  | answered (response : Response)
  /-- The status will be answered once the snapshot has been dealt with. -/
  | storing (snapshot : Snapshot)

/-- What becomes of a request for a command. -/
def Reception.ofCommand (outcome : Except InvalidInterval (Option Snapshot)) (s : Status) :
    Reception :=
  match outcome with
  | .error e => .answered (refuseCommand e)
  | .ok none => .answered (.ofStatus s)
  | .ok (some snapshot) => .storing snapshot

/-- Receives a request. -/
def receive {κ : Type} [DecidableEq κ] (p : Placed κ) (r : Request) : Reception × Placed κ :=
  match r.action with
  | .reply response => (.answered response, p)
  | .showStatus => (.answered (.ofStatus p.engine.state.status), p)
  | .command c =>
    let (outcome, p) := Engine.command p c
    (.ofCommand outcome p.engine.state.status, p)
  | .setRequest request =>
    let descriptor := p.world.descriptor.apply (.request request)
    (.answered (.empty 204), { p with world.descriptor := descriptor })
  | .showMetrics => (.answered (.ofMetrics p.world.registry), p)

/-- Answers a request after so many seconds: the response as it is sent, and the surroundings
in which the request has been counted. -/
def respond (w : Surroundings) (r : Request) (response : Response) (seconds : Float) :
    Response × Surroundings :=
  (response.sent r, { w with registry := w.registry.recordAll (response.measurements r seconds) })

end Api
end SearchPolling
