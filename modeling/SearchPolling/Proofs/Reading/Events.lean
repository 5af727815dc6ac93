import SearchPolling.Polling.Event
import SearchPolling.Proofs.Reading.Identifiers
import SearchPolling.Proofs.Reading.Responses
import SearchPolling.Proofs.Reading.Timestamps

/-!
# Events that are read back

An event holds a response two levels further in than the response stood when it was read: the
event and its outcome enclose it.  All else in an event is read back wherever it stands.  So an
event is read back unless a document nests too deep for these two levels, or some binary64
number is not read back.
-/

namespace SearchPolling
namespace Polling

open Json (Context Decoder ReadsBack)

variable {ctx : Context}

theorem QueryId.decoder_node (ctx : Context) (q : QueryId) :
    QueryId.decoder ctx q.toJson.node = .ok q := by
  rw [QueryId.decoder, Decoder.refined, QueryId.toJson, Decoder.text_node]
  change Except.mapError _ _ = _
  rw [q.ofChars?_render]
  rfl

theorem Origin.decoder_node (ctx : Context) (o : Origin) :
    Origin.decoder ctx o.toJson.node = .ok o :=
  Decoder.enumeration_node (by cases o <;> rfl)

theorem Event.timestamp_node (ctx : Context) {t : Time.Timestamp} (h : t.IsValid) :
    Event.timestamp ctx (Json.string t.render).node = .ok t := by
  rw [Event.timestamp, Decoder.refined, Decoder.text_node]
  change Except.mapError _ _ = _
  rw [Time.Timestamp.ofString?_render h]
  rfl

/-! ## Outcomes -/

namespace Outcome

theorem onKey_status (ctx : Context) :
    onKey ctx .nothing "status" = .ok fun x => (Tag.decoder ctx x).map Draft.tag := rfl

theorem onKey_payload (ctx : Context) (tag : Tag) :
    onKey ctx (.tag tag) "payload" = .ok fun x => (tag.content ctx x).map Draft.complete := rfl

/-- What is written behind a tag is read as the tag says, one level further in. -/
theorem decoder_object_eq_ok {name : String} {tag : Tag}
    (hname : [("result", Tag.result), ("failure", Tag.failure)].lookup name = some tag)
    {payload : Json} {o : Outcome} :
    decoder ctx (Json.object [("status", .string name), ("payload", payload)]).node = .ok o ↔
      ∃ ctx', ctx.enter = .ok ctx' ∧ tag.content ctx' payload.node = .ok o := by
  have htag (ctx' : Context) : Tag.decoder ctx' (Json.string name).node = .ok tag :=
    Decoder.enumeration_node hname
  rw [Json.node, decoder, Json.bind_eq_ok]
  simp only [Json.bind_eq_ok, Json.mapError_eq_ok]
  refine exists_congr fun ctx' => and_congr_right fun _ => ?_
  simp only [Json.memberNodes, Decoder.members_held_eq_ok (onKey_status ctx'), htag,
    Except.ok.injEq, exists_eq_left', Decoder.members_held_eq_ok (onKey_payload ctx' _)]
  constructor
  · rintro ⟨draft, ⟨content, hcontent, hend⟩, hfinish⟩
    obtain rfl := Except.ok.inj hend
    obtain rfl := Except.ok.inj hfinish
    exact hcontent
  · intro hcontent
    exact ⟨_, ⟨_, hcontent, rfl⟩, rfl⟩

/-- A failure is read back wherever a level is left, whatever its reason. -/
theorem decoder_failure (reason : String) (hlevels : 1 ≤ ctx.levels) :
    decoder ctx (failure reason).toJson.node = .ok (failure reason) := by
  obtain ⟨ctx', henter, -⟩ := Json.exists_enter_iff.mpr hlevels
  have hcontent : Tag.failure.content ctx' (Json.string reason).node = .ok (failure reason) :=
    Json.map_eq_ok.mpr ⟨reason, Decoder.string_node ctx' reason, rfl⟩
  exact (decoder_object_eq_ok rfl).mpr ⟨ctx', henter, hcontent⟩

/-- A response is read back as an outcome just if its documents fit the levels that are left,
and its binary64 numbers are read back. -/
theorem decoder_result_eq_ok {r : Search.Response} (hnormal : r.IsNormal)
    (hlevels : 4 ≤ ctx.levels) :
    decoder ctx (result r).toJson.node = .ok (result r) ↔
      (∀ h ∈ r.results, h.source.depth + 4 ≤ ctx.levels) ∧ ∀ x ∈ r.reals, ReadsBack x := by
  obtain ⟨ctx', henter, hlevels'⟩ := Json.exists_enter_iff.mpr hlevels
  have hcontent : Tag.result.content ctx' r.toJson.node = .ok (result r) ↔
      Search.Response.decoder ctx' r.toJson.node = .ok r :=
    Json.map_eq_ok.trans (by simp only [result.injEq, exists_eq_right])
  have htag : [("result", Tag.result), ("failure", Tag.failure)].lookup "result" =
      some Tag.result := rfl
  rw [toJson, decoder_object_eq_ok htag, ← Json.levels_of_enter henter]
  simp only [henter, Except.ok.injEq, exists_eq_left', Nat.succ_le_succ_iff]
  exact hcontent.trans (Search.Response.decoder_node_eq_ok hnormal hlevels')

end Outcome

/-! ## Events -/

namespace Event

theorem onKey_id (ctx : Context) :
    shape.onKey ctx ⟨none, none, none, none, none⟩ "query_id" =
      .ok fun x => (QueryId.decoder ctx x).map fun v => ⟨some v, none, none, none, none⟩ := rfl

theorem onKey_origin (ctx : Context) (id : Option QueryId) :
    shape.onKey ctx ⟨id, none, none, none, none⟩ "origin" =
      .ok fun x => (Origin.decoder ctx x).map fun v => ⟨id, some v, none, none, none⟩ := rfl

theorem onKey_completedAt (ctx : Context) (id : Option QueryId) (origin : Option Origin) :
    shape.onKey ctx ⟨id, origin, none, none, none⟩ "completed_at" =
      .ok fun x => (timestamp ctx x).map fun v => ⟨id, origin, some v, none, none⟩ := rfl

theorem onKey_elapsedMs (ctx : Context) (id : Option QueryId) (origin : Option Origin)
    (completedAt : Option Time.Timestamp) :
    shape.onKey ctx ⟨id, origin, completedAt, none, none⟩ "elapsed_ms" =
      .ok fun x => (Decoder.nat ctx x).map fun v =>
        ⟨id, origin, completedAt, some v, none⟩ := rfl

theorem onKey_outcome (ctx : Context) (id : Option QueryId) (origin : Option Origin)
    (completedAt : Option Time.Timestamp) (elapsedMs : Option UInt64) :
    shape.onKey ctx ⟨id, origin, completedAt, elapsedMs, none⟩ "outcome" =
      .ok fun x => (Outcome.decoder ctx x).map fun v =>
        ⟨id, origin, completedAt, elapsedMs, some v⟩ := rfl

/-- An event is read back if its outcome is, one level further in. -/
theorem decoder_node_eq_ok {e : Event} (hvalid : e.completedAt.IsValid) :
    decoder ctx e.toJson.node = .ok e ↔ ∃ ctx', ctx.enter = .ok ctx' ∧
      Outcome.decoder ctx' e.outcome.toJson.node = .ok e.outcome := by
  have hempty : shape.empty = ⟨none, none, none, none, none⟩ := rfl
  rw [decoder, toJson, Json.Shape.decoder_object_eq_ok]
  refine exists_congr fun ctx' => and_congr_right fun _ => ?_
  simp only [Json.memberNodes, hempty, Decoder.members_held_eq_ok (onKey_id ctx'),
    Decoder.members_held_eq_ok (onKey_origin ctx' _),
    Decoder.members_held_eq_ok (onKey_completedAt ctx' _ _),
    Decoder.members_held_eq_ok (onKey_elapsedMs ctx' _ _ _),
    Decoder.members_held_eq_ok (onKey_outcome ctx' _ _ _ _)]
  constructor
  · rintro ⟨draft, ⟨id, -, origin, -, completedAt, -, elapsedMs, -, outcome, houtcome, hend⟩,
      hcomplete⟩
    obtain rfl := Except.ok.inj hend
    obtain rfl := Except.ok.inj hcomplete
    exact houtcome
  · intro houtcome
    exact ⟨_, ⟨_, QueryId.decoder_node ctx' _, _, Origin.decoder_node ctx' _, _,
      timestamp_node ctx' hvalid, _, Decoder.nat_node ctx' _, _, houtcome, rfl⟩, rfl⟩

/-- Whether an event is read back from its own text. -/
def Survives (e : Event) : Prop :=
  decoder.ofString e.toJson.render = .ok e

theorem survives_iff {e : Event} (hvalid : e.completedAt.IsValid) :
    e.Survives ↔ ∃ ctx', Context.outermost.enter = .ok ctx' ∧
      Outcome.decoder ctx' e.outcome.toJson.node = .ok e.outcome := by
  rw [Survives, Decoder.ofString_render, decoder_node_eq_ok hvalid]

/-- The event of a failure is read back, whatever the reason. -/
theorem survives_of_failure (id : QueryId) (origin : Origin) {t : Time.Timestamp}
    (hvalid : t.IsValid) (elapsedMs : UInt64) (reason : String) :
    Survives ⟨id, origin, t, elapsedMs, .failure reason⟩ := by
  obtain ⟨ctx', henter, hlevels⟩ : ∃ ctx', Context.outermost.enter = .ok ctx' ∧ 1 ≤ ctx'.levels :=
    Json.exists_enter_iff.mpr (by decide)
  exact (survives_iff hvalid).mpr ⟨ctx', henter, Outcome.decoder_failure reason hlevels⟩

/-- The event of a response is read back just if no document nests more than 122 levels deep,
and all binary64 numbers are read back. -/
theorem survives_result_iff (id : QueryId) (origin : Origin) {t : Time.Timestamp}
    (hvalid : t.IsValid) (elapsedMs : UInt64) {r : Search.Response} (hnormal : r.IsNormal) :
    Survives ⟨id, origin, t, elapsedMs, .result r⟩ ↔
      (∀ h ∈ r.results, h.source.depth ≤ 122) ∧ ∀ x ∈ r.reals, ReadsBack x := by
  obtain ⟨ctx', henter, hlevels⟩ : ∃ ctx', Context.outermost.enter = .ok ctx' ∧ 4 ≤ ctx'.levels :=
    Json.exists_enter_iff.mpr (by decide)
  have houter : ctx'.levels + 1 = 127 := Json.levels_of_enter henter
  rw [survives_iff hvalid]
  simp only [henter, Except.ok.injEq, exists_eq_left']
  rw [Outcome.decoder_result_eq_ok hnormal hlevels]
  refine and_congr_left fun _ => forall₂_congr fun h _ => ?_
  omega

end Event

end Polling
end SearchPolling
