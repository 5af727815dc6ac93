import SearchPolling.Api.Body
import SearchPolling.Proofs.Publishing.Encoded
import SearchPolling.Proofs.Reading.Record

/-!
# Records and requests that are read back

Records, statuses, search requests, orders and error reports hold no binary64 number, and are
written in a way of their own: members that have no value are left out, while lists that are
empty are not.  Each is read back from its own text as it was, whatever its texts and numbers
are.  So what has been read from any text, in whatever form it was there, is written in a form
that is read as the same and written again in the same way.
-/

namespace SearchPolling
namespace Json

/-- How the values of a type are written, and how they are read. -/
structure Codec (α : Type) where
  encode : α → Json
  decoder : Decoder α

namespace Codec

variable {α : Type}

/-- The text of a value. -/
def write (c : Codec α) (a : α) : String :=
  (c.encode a).render

/-- Reads a value from a text. -/
def read (c : Codec α) (text : String) : Except Fault α :=
  c.decoder.ofString text

/-- Nothing is lost in writing. -/
structure IsFaithful (c : Codec α) : Prop where
  /-- Every value is read back from its own text. -/
  read_write (a : α) : c.read (c.write a) = .ok a
  ofBytes_write (a : α) : c.decoder.ofBytes (Text.utf8 (c.write a)) = .ok a
  /-- What is read from a text is written as a text that is read as the same, and that does not
  change when it is read and written once more. -/
  read_rewrite (text : String) (a : α) (h : c.read text = .ok a) :
    c.read (c.write a) = .ok a ∧ (c.read (c.write a)).map c.write = .ok (c.write a)

theorem isFaithful_of_read {c : Codec α} (h : ∀ a, c.read (c.write a) = .ok a) :
    c.IsFaithful where
  read_write := h
  ofBytes_write a := (Polling.ofBytes_utf8 c.decoder _).trans (h a)
  read_rewrite text a _ := by
    rw [h a]
    exact ⟨rfl, rfl⟩

/-- A value is read back from its text if it is from its node. -/
theorem isFaithful_of_node {c : Codec α}
    (h : ∀ a, c.decoder Context.outermost (c.encode a).node = .ok a) : c.IsFaithful := by
  refine isFaithful_of_read fun a => ?_
  rw [read, write, Decoder.ofString_render, h]

end Codec

/-! ## Members -/

namespace Shape

variable {σ α β : Type} {shape : Shape σ α} {ctx : Context}

/-- A member that a record has and that has not been read is decoded into the draft. -/
theorem members_known {name : String} {f : Field σ} {s : σ} {d : Decoder β} {set : β → σ}
    (hfield : shape.fields.find? (Field.isNamed name) = some f) (hnew : f.present s = false)
    (hdecode : f.decode s = d.mapped set) {x : Node} {b : β} (hx : d ctx x = .ok b)
    {rest : List (StringToken × Node)} {tail : Tail} :
    Decoder.members (shape.onKey ctx) s ((.ofText name, x) :: rest) tail =
      Decoder.members (shape.onKey ctx) (set b) rest tail := by
  have hkey : shape.onKey ctx s name = .ok fun x => f.decode s ctx x := by
    simp [onKey, hfield, hnew]
  have hread : f.decode s ctx x = .ok (set b) := by
    rw [hdecode, Decoder.mapped, hx]
    rfl
  rw [Decoder.members, StringToken.decode_ofText]
  simp only [bind, Except.bind, hkey, hread]
  rfl

end Shape

theorem strings_node {ctx ctx' : Context} (henter : ctx.enter = .ok ctx') (texts : List String) :
    Decoder.string.list ctx (strings texts).node = .ok texts :=
  Decoder.list_node_eq_ok.mpr ⟨ctx', henter, fun s _ => Decoder.string_node ctx' s⟩

end Json

open Json (Codec Context Decoder)

namespace Polling

def Record.codec : Codec Record :=
  ⟨Record.toJson, Record.decoder⟩

theorem Record.isFaithful : codec.IsFaithful :=
  Codec.isFaithful_of_read ofString_render

def Status.codec : Codec Status :=
  ⟨Status.toJson, Status.decoder⟩

theorem Status.isFaithful : codec.IsFaithful := by
  refine Codec.isFaithful_of_node fun s => Json.Shape.decoder_object_eq_ok.mpr
    ⟨⟨1, false⟩, rfl, ⟨some s.active, some s.refreshInterval, some s.pending, some s.congested,
      some s.suppressed⟩, ?_, rfl⟩
  simp only [Json.memberNodes]
  rw [Json.Shape.members_known rfl rfl rfl (Decoder.bool_node _ _),
    Json.Shape.members_known rfl rfl rfl (Decoder.nat_node _ _),
    Json.Shape.members_known rfl rfl rfl (Decoder.bool_node _ _),
    Json.Shape.members_known rfl rfl rfl (Decoder.bool_node _ _),
    Json.Shape.members_known rfl rfl rfl (Decoder.bool_node _ _)]
  rfl

end Polling

namespace Search

variable {ctx : Context}

/-! ## Search requests -/

theorem SortOrder.node_toJson (ctx : Context) (o : SortOrder) :
    SortOrder.decoder ctx o.toJson.node = .ok o :=
  Decoder.enumeration_node (by cases o <;> rfl)

/-- An order is read wherever one level is left. -/
theorem SortField.node_toJson (hlevels : 1 ≤ ctx.levels) (o : SortField) :
    SortField.decoder ctx o.toJson.node = .ok o := by
  obtain ⟨ctx', henter, -⟩ := Json.exists_enter_iff.mpr hlevels
  refine Json.Shape.decoder_object_eq_ok.mpr
    ⟨ctx', henter, ⟨some o.field, some o.order⟩, ?_, rfl⟩
  simp only [Json.memberNodes]
  rw [Json.Shape.members_known rfl rfl rfl (Decoder.string_node _ _),
    Json.Shape.members_known rfl rfl rfl (SortOrder.node_toJson _ _)]
  rfl

def SortField.codec : Codec SortField :=
  ⟨SortField.toJson, SortField.decoder⟩

theorem SortField.isFaithful : codec.IsFaithful :=
  Codec.isFaithful_of_node fun o => SortField.node_toJson (by decide) o

namespace Request

/-- The members of a request up to those that may be left out. -/
theorem members_wanted (hlevels : 2 ≤ ctx.levels) (r : Request)
    (rest : List (Json.StringToken × Json.Node)) :
    Decoder.members (shape.onKey ctx) shape.empty
        (Json.memberNodes [("indices", Json.strings r.indices), ("query", .string r.query),
          ("from", Json.nat r.start), ("size", Json.nat r.size),
          ("sort", .list (r.sort.map SortField.toJson))] ++ rest) .closed =
      Decoder.members (shape.onKey ctx)
        ⟨some r.indices, some r.query, some r.start, some r.size, some r.sort, none, none⟩
        rest .closed := by
  obtain ⟨ctx', henter, hlevels'⟩ := Json.exists_enter_iff.mpr hlevels
  have hsort : SortField.decoder.list ctx (Json.list (r.sort.map SortField.toJson)).node =
      .ok r.sort :=
    Decoder.list_node_eq_ok.mpr ⟨ctx', henter, fun o _ => SortField.node_toJson hlevels' o⟩
  simp only [Json.memberNodes, List.cons_append, List.nil_append]
  rw [Json.Shape.members_known rfl rfl rfl (Json.strings_node henter _),
    Json.Shape.members_known rfl rfl rfl (Decoder.string_node _ _),
    Json.Shape.members_known rfl rfl rfl (Decoder.nat_node _ _),
    Json.Shape.members_known rfl rfl rfl (Decoder.nat_node _ _),
    Json.Shape.members_known rfl rfl rfl hsort]
  rfl

/-- Names that are left out are read as left out. -/
theorem members_optional (hlevels : 1 ≤ ctx.levels) (r : Request) :
    Decoder.members (shape.onKey ctx)
        ⟨some r.indices, some r.query, some r.start, some r.size, some r.sort, none, none⟩
        (Json.memberNodes
          (optionalMember "fields" r.fields ++ optionalMember "facetFields" r.facetFields))
        .closed =
      .ok ⟨some r.indices, some r.query, some r.start, some r.size, some r.sort,
        r.fields.map some, r.facetFields.map some⟩ := by
  obtain ⟨ctx', henter, -⟩ := Json.exists_enter_iff.mpr hlevels
  have hnames (names : List String) :
      Decoder.string.list.nullable ctx (Json.strings names).node = .ok (some names) := by
    have hnode : (Json.strings names).node ≠ .leaf .null := nofun
    rw [Decoder.nullable_of_ne hnode, Json.strings_node henter]
    rfl
  cases hfields : r.fields with
  | none =>
      cases hfacets : r.facetFields with
      | none => rfl
      | some facets =>
          simp only [optionalMember, List.nil_append, Json.memberNodes]
          rw [Json.Shape.members_known rfl rfl rfl (hnames facets)]
          rfl
  | some fields =>
      cases hfacets : r.facetFields with
      | none =>
          simp only [optionalMember, List.append_nil, Json.memberNodes]
          rw [Json.Shape.members_known rfl rfl rfl (hnames fields)]
          rfl
      | some facets =>
          simp only [optionalMember, List.cons_append, List.nil_append, Json.memberNodes]
          rw [Json.Shape.members_known rfl rfl rfl (hnames fields),
            Json.Shape.members_known rfl rfl rfl (hnames facets)]
          rfl

def codec : Codec Request :=
  ⟨toJson, decoder⟩

theorem isFaithful : codec.IsFaithful := by
  refine Codec.isFaithful_of_node fun r => Json.Shape.decoder_object_eq_ok.mpr
    ⟨⟨1, false⟩, rfl, ⟨some r.indices, some r.query, some r.start, some r.size, some r.sort,
      r.fields.map some, r.facetFields.map some⟩, ?_, ?_⟩
  · rw [List.append_assoc]
    have hlevels : 2 ≤ (⟨1, false⟩ : Context).levels := by decide
    have hwanted := members_wanted hlevels r
      (Json.memberNodes
        (optionalMember "fields" r.fields ++ optionalMember "facetFields" r.facetFields))
    exact hwanted.trans (members_optional (Nat.le_of_succ_le hlevels) r)
  · obtain ⟨indices, query, start, size, sort, fields, facetFields⟩ := r
    cases fields <;> cases facetFields <;> rfl

end Request

/-- Where a client can post at all, it posts what is read as the very request that it was given,
and makes of it what comes back. -/
theorem Client.exists_post (c : Client) (r : Request) {url : Url} (htarget : c.target = .ok url) :
    ∃ p : Post, (∀ carry, c.search r carry = outcome url (carry p)) ∧
      Request.decoder.ofString p.body = .ok r ∧
      Request.decoder.ofBytes (Text.utf8 p.body) = .ok r := by
  refine ⟨post url r, fun carry => ?_, Request.isFaithful.read_write r,
    Request.isFaithful.ofBytes_write r⟩
  rw [search, htarget]
  rfl

end Search

namespace Api
namespace ErrorReport

def codec : Codec ErrorReport :=
  ⟨toJson, decoder⟩

theorem isFaithful : codec.IsFaithful := by
  refine Codec.isFaithful_of_node fun r => Json.Shape.decoder_object_eq_ok.mpr
    ⟨⟨1, false⟩, rfl, ⟨some r.error, r.message.map some⟩, ?_, ?_⟩
  · simp only [Json.memberNodes]
    rw [Json.Shape.members_known rfl rfl rfl (Decoder.string_node _ _)]
    cases hmessage : r.message with
    | none => rfl
    | some m =>
        have hread : Decoder.string.nullable ⟨1, false⟩ (Json.string m).node = .ok (some m) := by
          have hnode : (Json.string m).node ≠ .leaf .null := nofun
          rw [Decoder.nullable_of_ne hnode, Decoder.string_node]
          rfl
        simp only [Json.memberNodes]
        rw [Json.Shape.members_known rfl rfl rfl hread]
        rfl
  · obtain ⟨error, message⟩ := r
    cases message <;> rfl

end ErrorReport
end Api

open Search (Client Post) in
/-- Records, statuses, search requests, orders and error reports are read back from their own
texts, and what is read from any text is written in a form that stays.  The service that is
searched reads the very request that the client was given. -/
theorem values_without_reals_are_faithful :
    Polling.Record.codec.IsFaithful ∧ Polling.Status.codec.IsFaithful ∧
      Search.Request.codec.IsFaithful ∧ Search.SortField.codec.IsFaithful ∧
      Api.ErrorReport.codec.IsFaithful ∧
      ∀ (c : Client) (r : Search.Request) (url : Url), c.target = .ok url →
        ∃ p : Post, (∀ carry, c.search r carry = Client.outcome url (carry p)) ∧
          Search.Request.decoder.ofString p.body = .ok r ∧
          Search.Request.decoder.ofBytes (Text.utf8 p.body) = .ok r :=
  ⟨Polling.Record.isFaithful, Polling.Status.isFaithful, Search.Request.isFaithful,
    Search.SortField.isFaithful, Api.ErrorReport.isFaithful, fun c r _ => c.exists_post r⟩

/-- A request with an empty list of fields, which is not the same as none, and with characters
that are escaped or do not fit sixteen bits. -/
def Search.Request.escaped : Search.Request :=
  ⟨["\t"], "\"\\\x00😀", 0, 18446744073709551615, [⟨"a/b", .asc⟩], some [], none⟩

/-- A record with its members in another order, one of them under its older name, of which a
letter is escaped. -/
def Polling.Record.older : String :=
  "\x7b\"refreshInterval\": 5, \"is\\u0041ctive\": true\x7d"

theorem values_without_reals_are_faithful_escaped :
    (∃ url, Polling.backend.target = .ok url ∧
      ∃ p : Search.Post, (∀ carry, Polling.backend.search Search.Request.escaped carry =
          Search.Client.outcome url (carry p)) ∧
        Search.Request.decoder.ofString p.body = .ok Search.Request.escaped) ∧
      ∃ r, Polling.Record.codec.read Polling.Record.older = .ok r ∧ r = ⟨true, 5⟩ ∧
        Polling.Record.codec.read (Polling.Record.codec.write r) = .ok r := by
  obtain ⟨hrecord, -, -, -, -, hpost⟩ := values_without_reals_are_faithful
  refine ⟨?_, ?_⟩
  · cases htarget : Polling.backend.target with
    | error f =>
        have hsome := Polling.target_backend
        rw [htarget] at hsome
        cases hsome
    | ok url =>
        obtain ⟨p, hcarry, hbody, -⟩ := hpost Polling.backend Search.Request.escaped url htarget
        exact ⟨url, rfl, p, hcarry, hbody⟩
  · have hsome : (Polling.Record.codec.read Polling.Record.older).toOption = some ⟨true, 5⟩ := by
      decide +kernel
    cases hread : Polling.Record.codec.read Polling.Record.older with
    | error f =>
        rw [hread] at hsome
        cases hsome
    | ok r =>
        rw [hread] at hsome
        exact ⟨r, rfl, Option.some.inj hsome, (hrecord.read_rewrite _ r hread).1⟩

end SearchPolling
