import SearchPolling.Proofs.Reading.Fields
import SearchPolling.Search.Response

/-!
# Search responses that are read back

Whatever a search response was read from, its documents and its facet counts are as a decoder
makes them.  Such a response is read back from its own node just if the documents fit the
levels that are left and all binary64 numbers are read back.
-/

namespace SearchPolling
namespace Search

open Json (Context Decoder Node ReadsBack)

variable {ctx : Context}

namespace Hit

/-- The binary64 numbers of a document: its score, if it has one, and those in its source. -/
def reals (h : Hit) : List Float :=
  h.score.toList ++ h.source.reals

/-! ## Documents -/

theorem onKey_id (ctx : Context) :
    shape.onKey ctx ⟨none, none, none, none⟩ "id" =
      .ok fun x => (Decoder.string ctx x).map fun v => ⟨some v, none, none, none⟩ := rfl

theorem onKey_index (ctx : Context) (id : Option String) :
    shape.onKey ctx ⟨id, none, none, none⟩ "index" =
      .ok fun x => (Decoder.string.nullable ctx x).map fun v => ⟨id, some v, none, none⟩ := rfl

theorem onKey_score (ctx : Context) (id : Option String) (index : Option (Option String)) :
    shape.onKey ctx ⟨id, index, none, none⟩ "score" =
      .ok fun x => (Decoder.real.nullable ctx x).map fun v => ⟨id, index, some v, none⟩ := rfl

theorem onKey_source (ctx : Context) (id : Option String) (index : Option (Option String))
    (score : Option (Option Float)) :
    shape.onKey ctx ⟨id, index, score, none⟩ "source" =
      .ok fun x => (Decoder.any ctx x).map fun v => ⟨id, index, score, some v⟩ := rfl

/-- A document is read from its own node member by member. -/
theorem decoder_toJson_eq_ok {h h' : Hit} :
    decoder ctx h.toJson.node = .ok h' ↔
      ∃ ctx', ctx.enter = .ok ctx' ∧
        Decoder.string ctx' (Json.string h.id).node = .ok h'.id ∧
        Decoder.string.nullable ctx' (Json.ofOption .string h.index).node = .ok h'.index ∧
        Decoder.real.nullable ctx' (Json.ofOption Json.real h.score).node = .ok h'.score ∧
        Decoder.any ctx' h.source.node = .ok h'.source := by
  have hempty : shape.empty = ⟨none, none, none, none⟩ := rfl
  rw [decoder, toJson, Json.Shape.decoder_object_eq_ok]
  refine exists_congr fun ctx' => and_congr_right fun _ => ?_
  simp only [Json.memberNodes, hempty, Decoder.members_held_eq_ok (onKey_id ctx'),
    Decoder.members_held_eq_ok (onKey_index ctx' _),
    Decoder.members_held_eq_ok (onKey_score ctx' _ _),
    Decoder.members_held_eq_ok (onKey_source ctx' _ _ _)]
  constructor
  · rintro ⟨draft, ⟨id, hid, index, hindex, score, hscore, source, hsource, hend⟩, hcomplete⟩
    obtain rfl := Except.ok.inj hend
    obtain rfl := Except.ok.inj hcomplete
    exact ⟨hid, hindex, hscore, hsource⟩
  · rintro ⟨hid, hindex, hscore, hsource⟩
    exact ⟨_, ⟨_, hid, _, hindex, _, hscore, _, hsource, rfl⟩, rfl⟩

theorem index_node (ctx : Context) (index : Option String) :
    Decoder.string.nullable ctx (Json.ofOption .string index).node = .ok index := by
  refine Decoder.nullable_node_eq_ok ?_ |>.mpr fun s _ => Decoder.string_node ctx s
  intro s _ hnull
  cases hnull

theorem score_node_eq_ok {score : Option Float} :
    Decoder.real.nullable ctx (Json.ofOption Json.real score).node = .ok score ↔
      ∀ x ∈ score, ReadsBack x := by
  rw [Decoder.nullable_node_eq_ok]
  · simp only [Json.real_node_eq_ok]
  · exact fun _ _ _ => nofun

/-- A document is read back if it fits the levels that are left, and its binary64 numbers are
read back. -/
theorem decoder_node_eq_ok {h : Hit} (hnormal : h.source.IsNormal) :
    decoder ctx h.toJson.node = .ok h ↔
      h.source.depth + 1 ≤ ctx.levels ∧ ∀ x ∈ h.reals, ReadsBack x := by
  rw [decoder_toJson_eq_ok, reals, List.forall_mem_append, ← Json.exists_enter_iff]
  simp only [Decoder.string_node, index_node, score_node_eq_ok, Decoder.any,
    Json.any_node_eq_ok h.source hnormal, true_and, Option.mem_toList]
  constructor
  · rintro ⟨ctx', henter, hscore, hdepth, hsource⟩
    exact ⟨⟨ctx', henter, hdepth⟩, hscore, hsource⟩
  · rintro ⟨⟨ctx', henter, hdepth⟩, hscore, hsource⟩
    exact ⟨ctx', henter, hscore, hdepth, hsource⟩

/-- The source of a document that has been read is normal, and fits the levels that were left. -/
theorem isNormal_of_decoder {x : Node} {h : Hit} (hread : decoder ctx x = .ok h) :
    h.source.IsNormal ∧ h.source.depth ≤ ctx.levels - 1 := by
  obtain ⟨draft, hdraft, hcomplete⟩ := Json.bind_eq_ok.mp hread
  have hsource : ∀ j ∈ draft.source, j.IsNormal ∧ j.depth ≤ ctx.levels - 1 := by
    refine Json.Shape.draft_induction (P := fun d : Draft =>
      ∀ j ∈ d.source, j.IsNormal ∧ j.depth ≤ ctx.levels - 1) (by rintro j ⟨⟩) ?_ hdraft
    intro f hf ctx' henter s x s' hs hdecode
    simp only [shape, List.mem_cons, List.not_mem_nil, or_false] at hf
    rcases hf with rfl | rfl | rfl | rfl
    · obtain ⟨-, -, rfl⟩ := Json.map_eq_ok.mp hdecode
      exact hs
    · obtain ⟨-, -, rfl⟩ := Json.map_eq_ok.mp hdecode
      exact hs
    · obtain ⟨-, -, rfl⟩ := Json.map_eq_ok.mp hdecode
      exact hs
    · obtain ⟨source, hsource, rfl⟩ := Json.map_eq_ok.mp hdecode
      rintro j ⟨⟩
      rw [← Json.levels_of_enter henter]
      exact Json.isNormal_of_any x hsource
  obtain ⟨id, -, hmade⟩ := Json.bind_eq_ok.mp (Json.mapError_eq_ok.mp hcomplete)
  obtain rfl := Except.ok.inj hmade
  cases hheld : draft.source with
  | none => exact ⟨trivial, Nat.zero_le _⟩
  | some j => exact hsource j hheld

end Hit

/-! ## Responses -/

namespace Response

/-- The binary64 numbers of a response. -/
def reals (r : Response) : List Float :=
  r.results.flatMap Hit.reals

/-- A response as a decoder makes it. -/
structure IsNormal (r : Response) : Prop where
  sources : ∀ h ∈ r.results, h.source.IsNormal
  facets : ∀ counts ∈ r.facetCounts, counts.IsSorted
  counts : ∀ counts ∈ r.facetCounts, ∀ kv ∈ counts, kv.2.IsSorted

theorem onKey_total (ctx : Context) :
    shape.onKey ctx ⟨none, none, none⟩ "total" =
      .ok fun x => (Decoder.nat ctx x).map fun v => ⟨some v, none, none⟩ := rfl

theorem onKey_results (ctx : Context) (total : Option UInt64) :
    shape.onKey ctx ⟨total, none, none⟩ "results" =
      .ok fun x => (Hit.decoder.list ctx x).map fun v => ⟨total, some v, none⟩ := rfl

theorem onKey_facetCounts (ctx : Context) (total : Option UInt64) (results : Option (List Hit)) :
    shape.onKey ctx ⟨total, results, none⟩ "facetCounts" =
      .ok fun x => (Decoder.nat.dictionary.dictionary.nullable ctx x).map fun v =>
        ⟨total, results, some v⟩ := rfl

/-- Facet counts are read back wherever two levels are left. -/
theorem facetCounts_node {counts : FacetCounts} (hsorted : counts.IsSorted)
    (hcounts : ∀ kv ∈ counts, kv.2.IsSorted) (hlevels : 2 ≤ ctx.levels) :
    Decoder.nat.dictionary.dictionary.nullable ctx (facetCountsJson counts).node =
      .ok (some counts) := by
  obtain ⟨outer, houter, houterLevels⟩ := Json.exists_enter_iff.mpr hlevels
  obtain ⟨inner, hinner, -⟩ := Json.exists_enter_iff.mpr houterLevels
  have hread : Decoder.nat.dictionary.dictionary ctx (facetCountsJson counts).node = .ok counts :=
    Decoder.dictionary_node hsorted houter fun kv hkv =>
      Decoder.dictionary_node (hcounts kv hkv) hinner fun _ _ => Decoder.nat_node inner _
  have hnode : (facetCountsJson counts).node ≠ .leaf .null := nofun
  rw [Decoder.nullable_of_ne hnode, hread]
  rfl

/-- What follows the documents of a response is read back. -/
theorem members_facetCounts {r : Response} (hnormal : r.IsNormal) (hlevels : 2 ≤ ctx.levels)
    (total : Option UInt64) (results : Option (List Hit)) :
    Decoder.members (shape.onKey ctx) ⟨total, results, none⟩
        (Json.memberNodes (match r.facetCounts with
          | none => []
          | some counts => [("facetCounts", facetCountsJson counts)])) .closed =
      .ok ⟨total, results, r.facetCounts.map some⟩ := by
  cases hcounts : r.facetCounts with
  | none => rfl
  | some counts =>
      have hread := facetCounts_node (hnormal.facets counts hcounts)
        (hnormal.counts counts hcounts) hlevels
      exact (Decoder.members_held_eq_ok (onKey_facetCounts ctx total results)).mpr
        ⟨_, hread, rfl⟩

/-- The documents of a response are read one level further in. -/
theorem results_node_eq_ok {results : List Hit} (hsources : ∀ h ∈ results, h.source.IsNormal)
    (hlevels : 1 ≤ ctx.levels) :
    Hit.decoder.list ctx (Json.list (results.map Hit.toJson)).node = .ok results ↔
      (∀ h ∈ results, h.source.depth + 2 ≤ ctx.levels) ∧
        ∀ x ∈ results.flatMap Hit.reals, ReadsBack x := by
  obtain ⟨ctx', henter, -⟩ := Json.exists_enter_iff.mpr hlevels
  have hlevels' := Json.levels_of_enter henter
  have hhit : ∀ h ∈ results, Hit.decoder ctx' h.toJson.node = .ok h ↔
      h.source.depth + 2 ≤ ctx.levels ∧ ∀ x ∈ h.reals, ReadsBack x := by
    intro h hh
    rw [Hit.decoder_node_eq_ok (hsources h hh), ← hlevels']
    simp only [Nat.succ_le_succ_iff]
  rw [Decoder.list_node_eq_ok]
  simp only [henter, Except.ok.injEq, exists_eq_left']
  rw [forall₂_congr hhit]
  constructor
  · intro h
    refine ⟨fun hit hh => (h hit hh).1, fun x hx => ?_⟩
    obtain ⟨hit, hh, hx⟩ := List.mem_flatMap.mp hx
    exact (h hit hh).2 x hx
  · rintro ⟨hdepth, hreals⟩ hit hh
    exact ⟨hdepth hit hh, fun x hx => hreals x (List.mem_flatMap.mpr ⟨hit, hh, hx⟩)⟩

/-- A response is read back if its documents fit the levels that are left, and its binary64
numbers are read back. -/
theorem decoder_node_eq_ok {r : Response} (hnormal : r.IsNormal) (hlevels : 3 ≤ ctx.levels) :
    decoder ctx r.toJson.node = .ok r ↔
      (∀ h ∈ r.results, h.source.depth + 3 ≤ ctx.levels) ∧ ∀ x ∈ r.reals, ReadsBack x := by
  obtain ⟨ctx', henter, hlevels'⟩ := Json.exists_enter_iff.mpr hlevels
  have hempty : shape.empty = ⟨none, none, none⟩ := rfl
  have hfacets := members_facetCounts hnormal hlevels'
  have hresults := @results_node_eq_ok ctx' r.results hnormal.sources (by omega)
  rw [← Json.levels_of_enter henter]
  simp only [Nat.succ_le_succ_iff]
  rw [reals, ← hresults, decoder, toJson, Json.Shape.decoder_object_eq_ok]
  simp only [henter, Except.ok.injEq, exists_eq_left', List.cons_append, List.nil_append,
    Json.memberNodes, hempty, Decoder.members_held_eq_ok (onKey_total ctx'),
    Decoder.members_held_eq_ok (onKey_results ctx' _)]
  constructor
  · rintro ⟨draft, ⟨total, -, results, hread, hrest⟩, hcomplete⟩
    obtain rfl := Except.ok.inj ((hfacets _ _).symm.trans hrest)
    have hsame : results = r.results := congrArg Response.results (Except.ok.inj hcomplete)
    exact hsame ▸ hread
  · intro hread
    refine ⟨_, ⟨r.total, Decoder.nat_node ctx' r.total, r.results, hread, hfacets _ _⟩, ?_⟩
    obtain ⟨total, results, facetCounts⟩ := r
    cases facetCounts <;> rfl

/-- What is read of a response is normal, and its documents fit the levels that were left. -/
theorem isNormal_of_draft {x : Node} {draft : Draft} (hdraft : shape.draft ctx x = .ok draft) :
    (∀ hits ∈ draft.results, ∀ h ∈ hits,
        h.source.IsNormal ∧ h.source.depth ≤ ctx.levels - 3) ∧
      ∀ held ∈ draft.facetCounts, ∀ counts ∈ held,
        counts.IsSorted ∧ ∀ kv ∈ counts, kv.2.IsSorted := by
  refine Json.Shape.draft_induction (P := fun d : Draft =>
    (∀ hits ∈ d.results, ∀ h ∈ hits, h.source.IsNormal ∧ h.source.depth ≤ ctx.levels - 3) ∧
      ∀ held ∈ d.facetCounts, ∀ counts ∈ held,
        counts.IsSorted ∧ ∀ kv ∈ counts, kv.2.IsSorted)
    ⟨by rintro hits ⟨⟩, by rintro held ⟨⟩⟩ ?_ hdraft
  intro f hf ctx' henter s y s' hs hdecode
  simp only [shape, List.mem_cons, List.not_mem_nil, or_false] at hf
  rcases hf with rfl | rfl | rfl
  · obtain ⟨-, -, rfl⟩ := Json.map_eq_ok.mp hdecode
    exact hs
  · obtain ⟨hits, hhits, rfl⟩ := Json.map_eq_ok.mp hdecode
    refine ⟨?_, hs.2⟩
    rintro hits' ⟨⟩ h hh
    obtain ⟨ctx'', henter', hread⟩ := Decoder.exists_of_list hhits
    obtain ⟨z, hz⟩ := hread h hh
    obtain ⟨hnormal, hdepth⟩ := Hit.isNormal_of_decoder hz
    have hlevels := Json.levels_of_enter henter
    have hlevels' := Json.levels_of_enter henter'
    exact ⟨hnormal, by omega⟩
  · obtain ⟨held, hheld, rfl⟩ := Json.map_eq_ok.mp hdecode
    refine ⟨hs.1, ?_⟩
    rintro held' ⟨⟩ counts ⟨⟩
    obtain ⟨hsorted, ctx'', -, hread⟩ :=
      Decoder.exists_of_dictionary (Decoder.exists_of_nullable hheld)
    refine ⟨hsorted, fun kv hkv => ?_⟩
    obtain ⟨z, hz⟩ := hread kv hkv
    exact (Decoder.exists_of_dictionary hz).1

/-- A response that has been read is normal, and its documents fit the levels that were left. -/
theorem isNormal_of_decoder {x : Node} {r : Response} (hread : decoder ctx x = .ok r) :
    r.IsNormal ∧ ∀ h ∈ r.results, h.source.depth ≤ ctx.levels - 3 := by
  obtain ⟨draft, hdraft, hcomplete⟩ := Json.bind_eq_ok.mp hread
  obtain ⟨total, -, hmade⟩ := Json.bind_eq_ok.mp (Json.mapError_eq_ok.mp hcomplete)
  obtain rfl := Except.ok.inj hmade
  obtain ⟨hsources, hfacets⟩ := isNormal_of_draft hdraft
  obtain ⟨total', results, facetCounts⟩ := draft
  have hhit : ∀ h ∈ results.getD [], h.source.IsNormal ∧ h.source.depth ≤ ctx.levels - 3 := by
    cases results with
    | none => exact nofun
    | some hits => exact hsources hits rfl
  have hcounts : ∀ counts ∈ facetCounts.getD none,
      counts.IsSorted ∧ ∀ kv ∈ counts, kv.2.IsSorted := by
    cases facetCounts with
    | none => exact nofun
    | some held => exact hfacets held rfl
  exact ⟨⟨fun h hh => (hhit h hh).1, fun counts hc => (hcounts counts hc).1,
    fun counts hc => (hcounts counts hc).2⟩, fun h hh => (hhit h hh).2⟩

end Response
end Search
end SearchPolling
