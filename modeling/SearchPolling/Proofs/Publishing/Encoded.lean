import SearchPolling.Proofs.Reading.Characters
import SearchPolling.Proofs.Reading.Events
import SearchPolling.Proofs.Reading.WholeNumbers
import SearchPolling.Search.Client

/-!
# Events that survive their encoding

A client takes any response whose documents nest at most 124 levels deep.  Its event is read
back if they nest at most 122 levels deep and the binary64 numbers in it are read back; the
event of a failure always is.
-/

namespace SearchPolling
namespace Polling

open Json (Context Decoder IsWhole ReadsBack)
open Search (Client Exchange Post Request Response)

variable {c : Client} {request : Request}

/-- A response that a client has made is read from the whole body of an answer. -/
theorem exists_body_of_search {carry : Post → Exchange} {r : Response}
    (h : c.search request carry = .ok r) : ∃ bytes, Response.decoder.ofBytes bytes = .ok r := by
  obtain ⟨url, -, h⟩ := Json.bind_eq_ok.mp h
  rw [Search.Client.outcome.eq_def] at h
  split at h
  · cases h
  · cases h
  · next answer _ =>
      rw [Search.Answer.result] at h
      split at h
      · split at h
        · next decoded hdecoded =>
            obtain rfl := Except.ok.inj h
            rw [Search.Answer.decode?.eq_def] at hdecoded
            split at hdecoded
            · next bytes _ =>
                cases hread : Response.decoder.ofBytes bytes with
                | error f => rw [hread] at hdecoded; cases hdecoded
                | ok read =>
                    rw [hread] at hdecoded
                    exact ⟨bytes, hread.trans (congrArg Except.ok (Option.some.inj hdecoded))⟩
            · cases hdecoded
            · cases hdecoded
        · cases h
      · cases h

/-- A response that a client has made is normal, and no document of it nests more than 124
levels deep. -/
theorem isNormal_of_search {carry : Post → Exchange} {r : Response}
    (h : c.search request carry = .ok r) :
    r.IsNormal ∧ ∀ hit ∈ r.results, hit.source.depth ≤ 124 := by
  obtain ⟨bytes, hbytes⟩ := exists_body_of_search h
  obtain ⟨read, hread, hend⟩ := Json.bind_eq_ok.mp hbytes
  simp only at hend
  split at hend
  · cases hend
  · obtain rfl := Except.ok.inj hend
    exact Response.isNormal_of_decoder hread

/-! ## Encoding -/

/-- The event of whatever a client has made of a search is read back from its own text, up to two
exceptions.  Clients take documents that nest up to 124 levels deep, of which the event holds no
more than 122; and binary64 numbers may differ from what is read of their text, though no
integers that are not large.  The event of a failure is read back whatever the reason. -/
theorem events_survive_encoding (c : Client) (request : Request) (carry : Post → Exchange)
    {e : Event} (hvalid : e.completedAt.IsValid)
    (houtcome : e.outcome = .ofSearch (c.search request carry)) :
    (∀ r, c.search request carry = .ok r →
      (e.Survives ↔
        (∀ h ∈ r.results, h.source.depth ≤ 122) ∧ ∀ x ∈ r.reals, ReadsBack x) ∧
      ((∀ x ∈ r.reals, IsWhole x) → (e.Survives ↔ ∀ h ∈ r.results, h.source.depth ≤ 122)) ∧
      ∀ h ∈ r.results, h.source.depth ≤ 124) ∧
    ∀ reason, Event.Survives { e with outcome := .failure reason } := by
  refine ⟨fun r hr => ?_, fun reason => Event.survives_of_failure _ _ hvalid _ reason⟩
  obtain ⟨hnormal, hdepth⟩ := isNormal_of_search hr
  obtain ⟨id, origin, t, elapsedMs, outcome⟩ := e
  obtain rfl : outcome = .result r := houtcome.trans (congrArg Outcome.ofSearch hr)
  have hsurvives := Event.survives_result_iff id origin hvalid elapsedMs hnormal
  refine ⟨hsurvives, fun hwhole => hsurvives.trans ?_, hdepth⟩
  exact and_iff_left fun x hx => (hwhole x hx).readsBack

/-! ## Bodies -/

theorem ofBytes_utf8 {α : Type} (d : Decoder α) (s : String) :
    d.ofBytes (Text.utf8 s) = d.ofString s := by
  rw [Decoder.ofBytes, Text.utf8_eq, Text.Glyph.ofBytes_flatMap_utf8EncodeChar]
  rfl

/-- A service that answers with a text. -/
def answering (body : String) : Post → Exchange :=
  fun _ => .answered ⟨200, some "application/json", .whole (Text.utf8 body)⟩

theorem search_answering (htarget : c.target.toOption.isSome) {body : String} {r : Response}
    (hbody : Response.decoder.ofString body = .ok r) :
    c.search request (answering body) = .ok r := by
  cases hurl : c.target with
  | error f => rw [hurl] at htarget; cases htarget
  | ok url =>
      have hdecoded : Search.Answer.decode?
          ⟨200, some "application/json", .whole (Text.utf8 body)⟩ = some r := by
        change (Response.decoder.ofBytes (Text.utf8 body)).toOption = some r
        rw [ofBytes_utf8, hbody]
        rfl
      rw [Client.search, hurl]
      change Search.Answer.result ⟨200, some "application/json", .whole (Text.utf8 body)⟩ = .ok r
      rw [Search.Answer.result, hdecoded]
      rfl

/-- What is written as responses are written is taken up to 124 levels. -/
theorem search_written (htarget : c.target.toOption.isSome) {r : Response} (hnormal : r.IsNormal)
    (hdepth : ∀ h ∈ r.results, h.source.depth ≤ 124) (hreals : ∀ x ∈ r.reals, ReadsBack x) :
    c.search request (answering r.toJson.render) = .ok r := by
  refine search_answering htarget ?_
  rw [Decoder.ofString_render]
  refine (Response.decoder_node_eq_ok hnormal (by decide)).mpr ⟨fun h hh => ?_, hreals⟩
  have hlevels : Context.outermost.levels = 127 := rfl
  have hh' := hdepth h hh
  omega

/-- Lists that stand inside one another. -/
def nested : Nat → Json
  | 0 => .null
  | depth + 1 => .list [nested depth]

theorem depth_nested (depth : Nat) : (nested depth).depth = depth := by
  induction depth with
  | zero => rfl
  | succ depth ih => rw [nested, Json.depth, Json.itemDepth, ih, Json.itemDepth, Nat.max_zero]

theorem reals_nested (depth : Nat) : (nested depth).reals = [] := by
  induction depth with
  | zero => rfl
  | succ depth ih => rw [nested, Json.reals, Json.itemReals, ih, Json.itemReals]; rfl

theorem isNormal_nested (depth : Nat) : (nested depth).IsNormal := by
  induction depth with
  | zero => trivial
  | succ depth ih => exact ⟨ih, trivial⟩

/-- A service. -/
def backend : Client :=
  .ofBase "http://search:8082"

theorem target_backend : backend.target.toOption.isSome := by decide +kernel

/-- A response with one document. -/
def single (score : Option Float) (source : Json) (facetCounts : Option Search.FacetCounts) :
    Response :=
  ⟨1, [⟨"a", none, score, source⟩], facetCounts⟩

section single

variable {score : Option Float} {source : Json} {facetCounts : Option Search.FacetCounts}

theorem reals_single : (single score source facetCounts).reals = score.toList ++ source.reals :=
  List.append_nil _

theorem forall_results_single {P : Search.Hit → Prop} :
    (∀ h ∈ (single score source facetCounts).results, P h) ↔ P ⟨"a", none, score, source⟩ :=
  List.forall_mem_singleton

end single

/-- The event of a response. -/
def eventOf (r : Response) : Event :=
  ⟨.ofNat 1, .eager, .epoch, 0, .result r⟩

theorem isValid_epoch : Time.Timestamp.epoch.IsValid := by
  constructor <;> decide

theorem events_survive_encoding_deepest :
    ∃ r : Response, backend.search .standard (answering r.toJson.render) = .ok r ∧
      (eventOf r).completedAt.IsValid ∧
      (eventOf r).outcome = .ofSearch (backend.search .standard (answering r.toJson.render)) ∧
      (∀ x ∈ r.reals, IsWhole x) ∧ (∃ h ∈ r.results, h.source.depth = 122) ∧
      (eventOf r).Survives := by
  let r := single (some (1 : UInt64).toFloat) (nested 122) (some [("kind", [("alert", 2)])])
  have hwhole : ∀ x ∈ r.reals, IsWhole x := by
    rw [reals_single, reals_nested]
    exact List.forall_mem_singleton.mpr ⟨1, by decide, .inl rfl⟩
  have hdepth : ∀ h ∈ r.results, h.source.depth = 122 :=
    forall_results_single.mpr (depth_nested 122)
  have hnormal : r.IsNormal := by
    refine ⟨forall_results_single.mpr (isNormal_nested 122), ?_, ?_⟩
    · rintro counts ⟨⟩
      exact List.pairwise_singleton _ _
    · rintro counts ⟨⟩
      exact List.forall_mem_singleton.mpr (List.pairwise_singleton _ _)
  have hsearch : backend.search .standard (answering r.toJson.render) = .ok r :=
    search_written target_backend hnormal (fun h hh => by rw [hdepth h hh]; decide)
      fun x hx => (hwhole x hx).readsBack
  have houtcome : (eventOf r).outcome =
      .ofSearch (backend.search .standard (answering r.toJson.render)) := by
    rw [hsearch]
    rfl
  refine ⟨r, hsearch, isValid_epoch, houtcome, hwhole, ⟨_, List.mem_singleton_self _,
    depth_nested 122⟩, ?_⟩
  obtain ⟨hresponse, -⟩ :=
    events_survive_encoding backend .standard (answering r.toJson.render) isValid_epoch houtcome
  exact ((hresponse r hsearch).2.1 hwhole).mpr fun h hh => Nat.le_of_eq (hdepth h hh)

/-- A document with an integer for a score. -/
def scoredHit (score : UInt64) : Json :=
  .object [("id", .string "a"), ("score", .nat score)]

/-- A body with one document. -/
def bodyOf (hit : Json) : Json :=
  .object [("total", .nat 1), ("results", .list [hit])]

theorem real_nat_node (ctx : Context) (n : UInt64) :
    Decoder.real ctx (Json.nat n).node = .ok n.toFloat :=
  Json.map_eq_ok.mpr ⟨.natural n, Json.Number.decode_literal rfl, rfl⟩

/-- A score that is an integer is converted. -/
theorem search_scored (score : UInt64) :
    backend.search .standard (answering (bodyOf (scoredHit score)).render) =
      .ok (single (some score.toFloat) .null none) := by
  have hscore : Decoder.real.nullable ⟨3, false⟩ (Json.nat score).node =
      .ok (some score.toFloat) := by
    have hne : (Json.nat score).node ≠ .leaf .null := nofun
    rw [Decoder.nullable_of_ne hne, real_nat_node]
    rfl
  have hhit : Search.Hit.decoder ⟨2, false⟩ (scoredHit score).node =
      .ok ⟨"a", none, some score.toFloat, .null⟩ :=
    Json.Shape.decoder_object_eq_ok.mpr ⟨⟨3, false⟩, rfl, _,
      (Decoder.members_held_eq_ok (Search.Hit.onKey_id _)).mpr ⟨"a", Decoder.string_node _ "a",
        (Decoder.members_held_eq_ok (Search.Hit.onKey_score _ _ _)).mpr ⟨_, hscore, rfl⟩⟩, rfl⟩
  have hlist : Search.Hit.decoder.list ⟨1, false⟩
      (Json.list ([⟨"a", none, some score.toFloat, .null⟩].map fun _ : Search.Hit =>
        scoredHit score)).node = .ok [⟨"a", none, some score.toFloat, .null⟩] :=
    Decoder.list_node_eq_ok.mpr ⟨⟨2, false⟩, rfl, List.forall_mem_singleton.mpr hhit⟩
  refine search_answering target_backend ?_
  rw [Decoder.ofString_render]
  exact Json.Shape.decoder_object_eq_ok.mpr ⟨⟨1, false⟩, rfl, _,
    (Decoder.members_held_eq_ok (Response.onKey_total _)).mpr ⟨1, Decoder.nat_node _ 1,
      (Decoder.members_held_eq_ok (Response.onKey_results _ _)).mpr ⟨_, hlist, rfl⟩⟩, rfl⟩

/-- Two bodies with no numbers but integers of which the events are lost.  The documents of the
one nest too deep for the event, and the score of the other is read back as another one. -/
theorem lost_in_encoding :
    let deep := single none (nested 123) none
    let coarse := single (some (1921433459022361 : UInt64).toFloat) .null none
    (backend.search .standard (answering deep.toJson.render) = .ok deep ∧
        ¬(eventOf deep).Survives) ∧
      backend.search .standard (answering (bodyOf (scoredHit 1921433459022361)).render) =
          .ok coarse ∧
        ¬(eventOf coarse).Survives := by
  intro deep coarse
  have hdeep : deep.IsNormal :=
    ⟨forall_results_single.mpr (isNormal_nested 123), by rintro counts ⟨⟩, by rintro counts ⟨⟩⟩
  have hdepth : ∀ h ∈ deep.results, h.source.depth = 123 :=
    forall_results_single.mpr (depth_nested 123)
  have hreals : deep.reals = [] := by
    rw [reals_single, reals_nested]
    rfl
  have htaken : backend.search .standard (answering deep.toJson.render) = .ok deep :=
    search_written target_backend hdeep (fun h hh => by rw [hdepth h hh]; decide)
      (by rw [hreals]; exact nofun)
  refine ⟨⟨htaken, fun hsurvives => ?_⟩, search_scored _, fun hsurvives => ?_⟩
  · obtain ⟨hshallow, -⟩ := (Event.survives_result_iff _ _ isValid_epoch _ hdeep).mp hsurvives
    have hmost := hshallow _ (List.mem_singleton_self _)
    rw [hdepth _ (List.mem_singleton_self _)] at hmost
    exact absurd hmost (by decide)
  · have hcoarse := (isNormal_of_search (search_scored 1921433459022361)).1
    obtain ⟨-, hexact⟩ := (Event.survives_result_iff _ _ isValid_epoch _ hcoarse).mp hsurvives
    have hscore : ReadsBack (1921433459022361 : UInt64).toFloat :=
      hexact _ (List.mem_singleton_self _)
    exact absurd hscore (by decide +kernel)

end Polling
end SearchPolling
