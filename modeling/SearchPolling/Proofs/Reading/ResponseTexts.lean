import SearchPolling.Proofs.Reading.Characters
import SearchPolling.Proofs.Reading.Layouts
import SearchPolling.Search.Response

/-!
# Texts of search responses

A search response is read just from the texts that spell it: an object that says each field at most
once, in any order and between members that do not matter, or the list of the fields in their order.
Nothing is left out of what is read, and a text in which one part is not as it should be spells no
response at all.
-/

namespace SearchPolling
namespace Search

open Json (Context Decoder Entry Place Spelling)
open Text (Glyph)

namespace Hit

/-- What the texts of a document say of its fields, with so many levels left. -/
def entries (left : Nat) (h : Hit) : List Entry := [
  ⟨"id", Spelling.string h.id, False⟩,
  ⟨"index", Spelling.string.nullable h.index, h.index = none⟩,
  ⟨"score", Spelling.real.nullable h.score, h.score = none⟩,
  ⟨"source", Spelling.any left h.source, h.source = .null⟩]

/-- The texts of documents, by the levels that are left where a document stands. -/
def spells (Name : List Char → Prop) : Nat → Spelling Hit :=
  Spelling.inside fun left h => Spelling.record Name (h.entries left)

def places : List (Place Draft Hit) := [
  ⟨"id", Draft.id, fun d v => { d with id := some v }, Hit.id, none, .string,
    fun _ => Spelling.string⟩,
  ⟨"index", Draft.index, fun d v => { d with index := some v }, Hit.index, some none,
    .nullable .string, fun _ => Spelling.string.nullable⟩,
  ⟨"score", Draft.score, fun d v => { d with score := some v }, Hit.score, some none,
    .nullable .real, fun _ => Spelling.real.nullable⟩,
  ⟨"source", Draft.source, fun d v => { d with source := some v }, Hit.source, some .null,
    .any, Spelling.any⟩]

theorem entries_eq (left : Nat) (h : Hit) : places.map (Place.entry · left h) = h.entries left := by
  simp [places, entries, Place.entry, eq_comm]

theorem complete_eq_ok {d : Draft} {h : Hit} :
    shape.complete d = .ok h ↔ ∀ p ∈ places, p.Gives d h := by
  obtain ⟨id, index, score, source⟩ := d
  obtain ⟨id', index', score', source'⟩ := h
  simp only [places, List.forall_mem_cons, Place.Gives, shape]
  cases id <;> cases index <;> cases score <;> cases source <;>
    simp [Json.required, bind, Except.bind, pure, Except.pure]

theorem isLaidOut : shape.IsLaidOut places where
  fields := rfl
  apart := by simp [places, Place.apart_iff]
  read_write := by simp [places]
  read_empty := by simp [places, shape]
  complete _ _ := complete_eq_ok
  takesAt := by
    simp only [places, List.forall_mem_cons]
    exact ⟨Decoder.takesAt_string, fun ctx => (Decoder.takesAt_string ctx).nullable,
      fun ctx => (Decoder.takesAt_real ctx).nullable, Decoder.takesAt_any, nofun⟩

/-- Documents are read just from the texts that spell them. -/
theorem takesAt (ctx : Context) : decoder.TakesAt ctx (spells Json.Grammar.IsName ctx.levels) :=
  Json.Shape.takesAt_entries isLaidOut entries_eq ctx

end Hit

namespace Response

/-- What the texts of a response say of its fields, with so many levels left. -/
def entries (Name : List Char → Prop) (left : Nat) (r : Response) : List Entry := [
  ⟨"total", Spelling.nat r.total, False⟩,
  ⟨"results", Spelling.list (Hit.spells Name) left r.results, r.results = []⟩,
  ⟨"facetCounts", (Spelling.dictionary (Spelling.dictionary fun _ => Spelling.nat) left).nullable
    r.facetCounts, r.facetCounts = none⟩]

/-- The texts of responses, by the levels that are left where a response stands. -/
def spells (Name : List Char → Prop) : Nat → Spelling Response :=
  Spelling.inside fun left r => Spelling.record Name (r.entries Name left)

def places : List (Place Draft Response) := [
  ⟨"total", Draft.total, fun d v => { d with total := some v }, Response.total, none, .nat,
    fun _ => Spelling.nat⟩,
  ⟨"results", Draft.results, fun d v => { d with results := some v }, Response.results, some [],
    .list Hit.decoder, Spelling.list (Hit.spells Json.Grammar.IsName)⟩,
  ⟨"facetCounts", Draft.facetCounts, fun d v => { d with facetCounts := some v },
    Response.facetCounts, some none, .nullable (.dictionary (.dictionary .nat)),
    fun left => (Spelling.dictionary (Spelling.dictionary fun _ => Spelling.nat) left).nullable⟩]

theorem entries_eq (left : Nat) (r : Response) :
    places.map (Place.entry · left r) = r.entries Json.Grammar.IsName left := by
  simp [places, entries, Place.entry, eq_comm]

theorem complete_eq_ok {d : Draft} {r : Response} :
    shape.complete d = .ok r ↔ ∀ p ∈ places, p.Gives d r := by
  obtain ⟨total, results, facetCounts⟩ := d
  obtain ⟨total', results', facetCounts'⟩ := r
  simp only [places, List.forall_mem_cons, Place.Gives, shape]
  cases total <;> cases results <;> cases facetCounts <;>
    simp [Json.required, bind, Except.bind, pure, Except.pure]

theorem isLaidOut : shape.IsLaidOut places where
  fields := rfl
  apart := by simp [places, Place.apart_iff]
  read_write := by simp [places]
  read_empty := by simp [places, shape]
  complete _ _ := complete_eq_ok
  takesAt := by
    have hcounts (ctx : Context) : Decoder.nat.dictionary.dictionary.TakesAt ctx
        (Spelling.dictionary (Spelling.dictionary fun _ => Spelling.nat) ctx.levels) :=
      Decoder.TakesAt.dictionary fun ctx' _ =>
        Decoder.TakesAt.dictionary fun ctx'' _ => Decoder.takesAt_nat ctx''
    simp only [places, List.forall_mem_cons]
    exact ⟨Decoder.takesAt_nat, fun ctx => Decoder.TakesAt.list fun ctx' _ => Hit.takesAt ctx',
      fun ctx => (hcounts ctx).nullable, nofun⟩

theorem takesAt (ctx : Context) : decoder.TakesAt ctx (spells Json.Grammar.IsName ctx.levels) :=
  Json.Shape.takesAt_entries isLaidOut entries_eq ctx

/-- Whether bytes are the text of a response with blank space around it.  Marks stand for what is
not UTF-8, and what is kept nests no deeper than 127 levels. -/
def IsSpelledBy (Name : List Char → Prop) (bytes : List UInt8) (r : Response) : Prop :=
  ∃ w, Json.Grammar.Slot w (Glyph.marked (Glyph.ofBytes bytes)) ∧ spells Name 127 r w

/-- Bytes that are UTF-8 are the text that they encode. -/
theorem isSpelledBy_utf8 {Name : List Char → Prop} {s : String} {r : Response} :
    IsSpelledBy Name (Text.utf8 s) r ↔
      ∃ w, Json.Grammar.Slot w s.toList ∧ spells Name 127 r w := by
  rw [IsSpelledBy, Text.utf8_eq, Glyph.ofBytes_flatMap_utf8EncodeChar, Glyph.marked_ofChars]

theorem ofBytes_eq_ok {bytes : List UInt8} {r : Response} :
    decoder.ofBytes bytes = .ok r ↔ IsSpelledBy Json.Grammar.IsName bytes r :=
  (takesAt .outermost).ofBytes_eq_ok

/-- No bytes spell two responses. -/
theorem eq_of_isSpelledBy {bytes : List UInt8} {r r' : Response}
    (h : IsSpelledBy Json.Grammar.IsName bytes r) (h' : IsSpelledBy Json.Grammar.IsName bytes r') :
    r = r' :=
  Except.ok.inj ((ofBytes_eq_ok.mpr h).symm.trans (ofBytes_eq_ok.mpr h'))

end Response
end Search
end SearchPolling
