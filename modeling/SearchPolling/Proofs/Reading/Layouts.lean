import Mathlib.Data.List.Pairwise
import Mathlib.Tactic.MkIffOfInductiveProp
import SearchPolling.Proofs.Reading.Compounds

/-!
# What records are read from

A record is spelled by an object that has one member for each of its fields, or by the list of its
fields.  A field whose value is the one to fall back on may be missing, in a list only together
with all fields behind it.  What else an object holds does not matter, as long as it belongs to the
grammar and the names of its members denote texts.

A shape is described by the places of its fields in drafts and in records.  Reading a place gives
what was written there, and does not depend on what is written in any other place.
-/

namespace SearchPolling
namespace Json

open Grammar (HasOne IsList IsNamed IsObject IsValue)

/-! ## Texts of records -/

/-- What the texts of a record say of one of its fields. -/
structure Entry where
  name : String
  /-- The texts of the value. -/
  IsSpelled : List Char → Prop
  /-- Whether the value is the one to fall back on. -/
  IsDefault : Prop

/-- One member says what the value is, or none does and none has to. -/
def Entry.IsHeld (e : Entry) (ms : List Grammar.Member) : Prop :=
  HasOne (IsNamed [e.name]) (fun m => e.IsSpelled m.2) ms ∨
    (e.IsDefault ∧ ∀ m ∈ ms, ¬IsNamed [e.name] m)

/-- What spells a record of so many fields.  All names of an object have to be of a given kind. -/
def Spelling.record (Name : List Char → Prop) (entries : List Entry) (w : List Char) : Prop :=
  (∃ ms, IsObject ms w ∧ (∀ m ∈ ms, Name m.1 ∧ IsValue m.2) ∧ ∀ e ∈ entries, e.IsHeld ms) ∨
    ∃ given rest ws, entries = given ++ rest ∧ IsList ws w ∧
      List.Forall₂ (fun e w => e.IsSpelled w) given ws ∧ ∀ e ∈ rest, e.IsDefault

theorem denotes_bodyChars {s t : String} :
    Grammar.Denotes (bodyChars s) t.toList ↔ s = t := by
  rw [bodyChars, ← StringToken.text_eq_ok (StringToken.partsOf_ofText s)]
  constructor
  · intro h
    exact Except.ok.inj ((StringToken.text_ofText s).symm.trans h)
  · rintro rfl
    exact StringToken.text_ofText s

theorem isNamed_bodyChars {names : List String} {s : String} {w : List Char} :
    IsNamed names (bodyChars s, w) ↔ s ∈ names := by
  simp [IsNamed, denotes_bodyChars]

/-! ## Places of fields -/

/-- A field: where drafts and records have it, and what it is read from. -/
structure Place (σ α : Type) where
  {Value : Type}
  name : String
  read : σ → Option Value
  write : σ → Value → σ
  value : α → Value
  default? : Option Value
  decoder : Decoder Value
  spells : Nat → Spelling Value

namespace Place

variable {σ α : Type}

/-- The field of a place.  A list may end before it if there is a value to fall back on. -/
def field (p : Place σ α) : Field σ :=
  { Field.held p.name p.read p.write p.decoder with optional := p.default?.isSome }

def entry (p : Place σ α) (levels : Nat) (a : α) : Entry :=
  ⟨p.name, p.spells levels (p.value a), p.default? = some (p.value a)⟩

/-- What is written in one of two places is not read in the other. -/
@[mk_iff]
structure Apart (p q : Place σ α) : Prop where
  name_ne : p.name ≠ q.name
  read_write (s : σ) (b : q.Value) : p.read (q.write s b) = p.read s
  read_write' (s : σ) (b : p.Value) : q.read (p.write s b) = q.read s

instance : Std.Symm (Place.Apart : Place σ α → Place σ α → Prop) where
  symm _ _ h := ⟨h.name_ne.symm, h.read_write', h.read_write⟩

/-- A draft has the value of a record, or else the value is the one to fall back on. -/
def Gives (p : Place σ α) (s : σ) (a : α) : Prop :=
  (p.read s).or p.default? = some (p.value a)

end Place

/-- The places of the fields of a shape. -/
structure Shape.IsLaidOut {σ α : Type} (shape : Shape σ α) (places : List (Place σ α)) :
    Prop where
  fields : shape.fields = places.map Place.field
  apart : places.Pairwise Place.Apart
  read_write : ∀ p ∈ places, ∀ s b, p.read (p.write s b) = some b
  read_empty : ∀ p ∈ places, p.read shape.empty = none
  complete (s : σ) (a : α) : shape.complete s = .ok a ↔ ∀ p ∈ places, p.Gives s a
  takesAt : ∀ p ∈ places, ∀ ctx : Context, p.decoder.TakesAt ctx (p.spells ctx.levels)

namespace Place

variable {σ α : Type} {p : Place σ α} {ctx : Context} {a : α} {settled : Option p.Value}
  {kv : StringToken × Node} {kvs : List (StringToken × Node)}

/-! ## Members of an object -/

/-- Whether the name of a member denotes a text. -/
def IsNamedAs (name : String) (kv : StringToken × Node) : Prop :=
  kv.1.text = .ok name

/-- Whether the value of a record is what has been read in a place, or else what is still to be
read, or else the value to fall back on. -/
def IsSettled (p : Place σ α) (ctx : Context) (a : α) (settled : Option p.Value)
    (kvs : List (StringToken × Node)) : Prop :=
  Settled (IsNamedAs p.name) (fun kv => p.decoder ctx kv.2 = .ok (p.value a)) settled (p.value a)
      kvs ∨
    (settled = none ∧ p.default? = some (p.value a) ∧ ∀ kv ∈ kvs, ¬IsNamedAs p.name kv)

theorem isSettled_nil :
    p.IsSettled ctx a settled [] ↔ settled.or p.default? = some (p.value a) := by
  rw [IsSettled, settled_nil]
  cases settled <;> simp

theorem isSettled_cons_other (h : ¬IsNamedAs p.name kv) :
    p.IsSettled ctx a settled (kv :: kvs) ↔ p.IsSettled ctx a settled kvs := by
  rw [IsSettled, settled_cons_of_not h, List.forall_mem_cons, and_iff_right h, IsSettled]

theorem isSettled_cons_named (h : IsNamedAs p.name kv) :
    p.IsSettled ctx a settled (kv :: kvs) ↔
      settled = none ∧ ∃ b, p.decoder ctx kv.2 = .ok b ∧ p.IsSettled ctx a (some b) kvs := by
  rw [IsSettled, settled_cons h, List.forall_mem_cons]
  constructor
  · rintro (⟨hnone, hread, hsettled⟩ | ⟨-, -, hother, -⟩)
    · exact ⟨hnone, p.value a, hread, .inl hsettled⟩
    · exact absurd h hother
  · rintro ⟨hnone, b, hread, hsettled | ⟨hcontra, -⟩⟩
    · obtain rfl := eq_of_settled hsettled
      exact .inl ⟨hnone, hread, hsettled⟩
    · cases hcontra

end Place

namespace Shape

variable {σ α : Type} {shape : Shape σ α} {places : List (Place σ α)} {ctx : Context} {a : α}

theorem isNamed_field {p : Place σ α} {name : String} :
    Field.isNamed name p.field = true ↔ p.name = name := by
  have hname : p.field.name = p.name := rfl
  have haliases : p.field.aliases = [] := rfl
  simp [Field.isNamed, hname, haliases]

theorem find?_field (h : places.Pairwise Place.Apart) {p : Place σ α} (hp : p ∈ places) :
    (places.map Place.field).find? (Field.isNamed p.name) = some p.field := by
  induction h with
  | nil => cases hp
  | @cons q places hq _ ih =>
      rw [List.map_cons, List.find?_cons]
      rcases List.mem_cons.mp hp with rfl | hlater
      · rw [isNamed_field.mpr rfl]
      · have hne : Field.isNamed p.name q.field = false := by
          rw [Bool.eq_false_iff, ne_eq, isNamed_field]
          exact (hq p hlater).name_ne
        rw [hne]
        exact ih hlater

theorem onKey_place (h : shape.IsLaidOut places) {p : Place σ α} (hp : p ∈ places) (s : σ) :
    shape.onKey ctx s p.name =
      if (p.read s).isSome then .error (Mismatch.duplicateField p.name).fault
      else .ok fun x => (p.decoder ctx x).map (p.write s) := by
  rw [onKey, h.fields, find?_field h.apart hp]
  rfl

theorem onKey_other (h : shape.IsLaidOut places) {name : String}
    (hname : ∀ p ∈ places, p.name ≠ name) (s : σ) :
    shape.onKey ctx s name = .ok fun x => x.skip.map fun _ => s := by
  have hnone : shape.fields.find? (Field.isNamed name) = none := by
    rw [h.fields, List.find?_eq_none, List.forall_mem_map]
    intro p hp
    rw [isNamed_field]
    exact hname p hp
  rw [onKey, hnone]

theorem eq_or_apart (h : shape.IsLaidOut places) {p q : Place σ α} (hp : p ∈ places)
    (hq : q ∈ places) : q = p ∨ q.Apart p := by
  by_cases hsame : q = p
  · exact .inl hsame
  · exact .inr (h.apart.forall hq hp hsame)

/-- A member with the name of a place settles this place and no other. -/
theorem isSettled_cons_place (h : shape.IsLaidOut places) {p : Place σ α} (hp : p ∈ places)
    {s : σ} {kv : StringToken × Node} (hname : Place.IsNamedAs p.name kv)
    {kvs : List (StringToken × Node)} :
    (∀ q ∈ places, q.IsSettled ctx a (q.read s) (kv :: kvs)) ↔
      p.read s = none ∧ ∃ b, p.decoder ctx kv.2 = .ok b ∧
        ∀ q ∈ places, q.IsSettled ctx a (q.read (p.write s b)) kvs := by
  have hother {q : Place σ α} (hq : q.Apart p) : ¬Place.IsNamedAs q.name kv := by
    intro hqname
    exact hq.name_ne (Except.ok.inj (hqname.symm.trans hname))
  constructor
  · intro hall
    obtain ⟨hnone, b, hread, hsettled⟩ := (Place.isSettled_cons_named hname).mp (hall p hp)
    refine ⟨hnone, b, hread, fun q hq => ?_⟩
    rcases eq_or_apart h hp hq with rfl | hapart
    · rw [h.read_write q hq]
      exact hsettled
    · rw [hapart.read_write]
      exact (Place.isSettled_cons_other (hother hapart)).mp (hall q hq)
  · rintro ⟨hnone, b, hread, hall⟩ q hq
    rcases eq_or_apart h hp hq with rfl | hapart
    · have hsettled := hall q hq
      rw [h.read_write q hq] at hsettled
      exact (Place.isSettled_cons_named hname).mpr ⟨hnone, b, hread, hsettled⟩
    · have hsettled := hall q hq
      rw [hapart.read_write] at hsettled
      exact (Place.isSettled_cons_other (hother hapart)).mpr hsettled

/-- The members of an object make up a record just if each place is settled. -/
theorem exists_members_iff (h : shape.IsLaidOut places) {s : σ}
    {kvs : List (StringToken × Node)} :
    (∃ t, Decoder.members (shape.onKey ctx) s kvs .closed = .ok t ∧ ∀ p ∈ places, p.Gives t a) ↔
      (∀ kv ∈ kvs, (∃ name, kv.1.text = .ok name) ∧ kv.2.skip = .ok ()) ∧
        ∀ p ∈ places, p.IsSettled ctx a (p.read s) kvs := by
  induction kvs generalizing s with
  | nil =>
      constructor
      · rintro ⟨t, hmembers, hgives⟩
        obtain ⟨-, hsame⟩ := bind_unit_eq_ok.mp hmembers
        obtain rfl := Except.ok.inj hsame
        exact ⟨nofun, fun p hp => Place.isSettled_nil.mpr (hgives p hp)⟩
      · rintro ⟨-, hsettled⟩
        exact ⟨s, rfl, fun p hp => Place.isSettled_nil.mp (hsettled p hp)⟩
  | cons kv kvs ih =>
      obtain ⟨key, x⟩ := kv
      rw [List.forall_mem_cons]
      by_cases htext : ∃ name, key.text = .ok name
      · have htext' := htext
        obtain ⟨name, hname⟩ := htext'
        have hdecode : key.decode = .ok name := mapError_eq_ok.mpr hname
        by_cases hplace : ∃ p ∈ places, p.name = name
        · obtain ⟨p, hp, rfl⟩ := hplace
          have hnamed : Place.IsNamedAs p.name (key, x) := hname
          rw [isSettled_cons_place h hp hnamed]
          simp only [Decoder.members_field_eq_ok hdecode (onKey_place h hp s),
            Option.isSome_eq_false_iff, Option.isNone_iff_eq_none]
          constructor
          · rintro ⟨t, ⟨hnone, b, hread, hmembers⟩, hgives⟩
            obtain ⟨hall, hsettled⟩ := ih.mp ⟨t, hmembers, hgives⟩
            exact ⟨⟨⟨htext, (h.takesAt p hp ctx).skip hread⟩, hall⟩, hnone, b, hread, hsettled⟩
          · rintro ⟨⟨-, hall⟩, hnone, b, hread, hsettled⟩
            obtain ⟨t, hmembers, hgives⟩ := ih.mpr ⟨hall, hsettled⟩
            exact ⟨t, ⟨hnone, b, hread, hmembers⟩, hgives⟩
        · have hother : ∀ p ∈ places, p.name ≠ name := fun p hp heq => hplace ⟨p, hp, heq⟩
          have hsettled : (∀ p ∈ places, p.IsSettled ctx a (p.read s) ((key, x) :: kvs)) ↔
              ∀ p ∈ places, p.IsSettled ctx a (p.read s) kvs := by
            refine forall₂_congr fun p hp => Place.isSettled_cons_other fun hnamed => ?_
            exact hother p hp (Except.ok.inj (hnamed.symm.trans hname))
          rw [hsettled]
          simp only [Decoder.members_cons_eq_ok hdecode (onKey_other h hother s), map_eq_ok]
          constructor
          · rintro ⟨t, ⟨_, ⟨_, hskip, rfl⟩, hmembers⟩, hgives⟩
            obtain ⟨hall, hsettled⟩ := ih.mp ⟨t, hmembers, hgives⟩
            exact ⟨⟨⟨htext, hskip⟩, hall⟩, hsettled⟩
          · rintro ⟨⟨⟨-, hskip⟩, hall⟩, hsettled⟩
            obtain ⟨t, hmembers, hgives⟩ := ih.mpr ⟨hall, hsettled⟩
            exact ⟨t, ⟨s, ⟨(), hskip, rfl⟩, hmembers⟩, hgives⟩
      · refine iff_of_false ?_ fun hall => htext hall.1.1.1
        rintro ⟨t, hmembers, -⟩
        obtain ⟨name, hname, -⟩ := bind_eq_ok.mp hmembers
        exact htext ⟨name, mapError_eq_ok.mp hname⟩

/-! ## Items of a list -/

/-- Fields do not write what is read in a place apart from them. -/
theorem read_of_positional {ps : List (Place σ α)} {p : Place σ α} (hp : ∀ q ∈ ps, p.Apart q)
    {s t : σ} {i : Nat} {xs : List Node} {tail : Tail}
    (h : shape.positional ctx s i (ps.map Place.field) xs tail = .ok t) : p.read t = p.read s := by
  refine positional_induction (P := fun t => p.read t = p.read s) ?_ rfl h
  rw [List.forall_mem_map]
  intro q hq s₁ x s₂ hread hdecode
  obtain ⟨b, -, rfl⟩ := map_eq_ok.mp hdecode
  rw [(hp q hq).read_write, hread]

theorem positional_end_eq_ok {f : Field σ} {fields : List (Field σ)} {s t : σ} {i : Nat} :
    shape.positional ctx s i (f :: fields) [] .closed = .ok t ↔
      f.optional = true ∧ shape.positional ctx s (i + 1) fields [] .closed = .ok t := by
  rw [positional, bind_unit_eq_ok]
  cases f.optional with
  | true => simp [Tail.endItems]
  | false => simp

/-- The items of a list make up a record just if they are its first fields and the others have the
values to fall back on. -/
theorem exists_positional_iff {ps : List (Place σ α)} (hapart : ps.Pairwise Place.Apart)
    (hwrite : ∀ p ∈ ps, ∀ s b, p.read (p.write s b) = some b) {s : σ}
    (hempty : ∀ p ∈ ps, p.read s = none) {i : Nat} {xs : List Node} :
    (∃ t, shape.positional ctx s i (ps.map Place.field) xs .closed = .ok t ∧
        ∀ p ∈ ps, p.Gives t a) ↔
      ∃ given rest, ps = given ++ rest ∧
        List.Forall₂ (fun p x => p.decoder ctx x = .ok (p.value a)) given xs ∧
        ∀ p ∈ rest, p.default? = some (p.value a) := by
  induction ps generalizing s i xs with
  | nil =>
      rw [List.map_nil]
      simp only [positional_nil_eq_ok]
      constructor
      · rintro ⟨t, ⟨rfl, -⟩, -⟩
        exact ⟨[], [], rfl, .nil, nofun⟩
      · rintro ⟨given, rest, hsplit, hall, -⟩
        obtain ⟨rfl, -⟩ := List.append_eq_nil_iff.mp hsplit.symm
        cases hall
        exact ⟨s, ⟨rfl, rfl⟩, nofun⟩
  | cons p ps ih =>
      rw [List.pairwise_cons] at hapart
      rw [List.forall_mem_cons] at hwrite hempty
      simp only [List.map_cons, List.forall_mem_cons]
      have hread {s t : σ} {i : Nat} {xs : List Node}
          (h : shape.positional ctx s i (ps.map Place.field) xs .closed = .ok t) :
          p.read t = p.read s := read_of_positional hapart.1 h
      cases xs with
      | nil =>
          simp only [positional_end_eq_ok]
          constructor
          · rintro ⟨t, ⟨-, hpositional⟩, hgives, hlater⟩
            obtain ⟨given, rest, rfl, hgiven, hdefault⟩ :=
              (ih hapart.2 hwrite.2 hempty.2).mp ⟨t, hpositional, hlater⟩
            cases hgiven
            rw [Place.Gives, hread hpositional, hempty.1, Option.none_or] at hgives
            exact ⟨[], _, rfl, .nil, List.forall_mem_cons.mpr ⟨hgives, hdefault⟩⟩
          · rintro ⟨given, rest, hsplit, hgiven, hdefault⟩
            cases hgiven
            rw [List.nil_append] at hsplit
            rw [← hsplit, List.forall_mem_cons] at hdefault
            obtain ⟨t, hpositional, hlater⟩ :=
              (ih hapart.2 hwrite.2 hempty.2).mpr ⟨[], ps, rfl, .nil, hdefault.2⟩
            refine ⟨t, ⟨Option.isSome_of_eq_some hdefault.1, hpositional⟩, ?_, hlater⟩
            rw [Place.Gives, hread hpositional, hempty.1, Option.none_or]
            exact hdefault.1
      | cons x xs =>
          have hempty' (b : p.Value) : ∀ q ∈ ps, q.read (p.write s b) = none := by
            intro q hq
            rw [(hapart.1 q hq).read_write', hempty.2 q hq]
          simp only [positional_cons_eq_ok]
          constructor
          · rintro ⟨t, ⟨s', hdecode, hpositional⟩, hgives, hlater⟩
            obtain ⟨b, hb, rfl⟩ := map_eq_ok.mp hdecode
            obtain ⟨given, rest, rfl, hgiven, hdefault⟩ :=
              (ih hapart.2 hwrite.2 (hempty' b)).mp ⟨t, hpositional, hlater⟩
            rw [Place.Gives, hread hpositional, hwrite.1, Option.some_or] at hgives
            obtain rfl := Option.some.inj hgives
            exact ⟨p :: given, rest, rfl, .cons hb hgiven, hdefault⟩
          · rintro ⟨given, rest, hsplit, hgiven, hdefault⟩
            cases hgiven with
            | @cons q _ given _ hq hgiven =>
                obtain ⟨rfl, rfl⟩ := List.cons.inj hsplit
                obtain ⟨t, hpositional, hlater⟩ :=
                  (ih hapart.2 hwrite.2 (hempty' (p.value a))).mpr
                    ⟨given, rest, rfl, hgiven, hdefault⟩
                refine ⟨t, ⟨_, map_eq_ok.mpr ⟨_, hq, rfl⟩, hpositional⟩, ?_, hlater⟩
                rw [Place.Gives, hread hpositional, hwrite.1, Option.some_or]

/-! ## Records -/

theorem decoder_iff (h : shape.IsLaidOut places) {x : Node} :
    shape.decoder ctx x = .ok a ↔
      ∃ t, shape.draft ctx x = .ok t ∧ ∀ p ∈ places, p.Gives t a := by
  simp only [decoder, Decoder.refined, bind_eq_ok, mapError_eq_ok, h.complete]

/-- What is read of related members is what the members of a text say. -/
theorem isHeld_iff {p : Place σ α} (hp : p.decoder.TakesAt ctx (p.spells ctx.levels))
    {kvs : List (StringToken × Node)} {ms : List Grammar.Member}
    (hall : List.Forall₂ MemberReadFrom kvs ms) :
    p.IsSettled ctx a none kvs ↔ (p.entry ctx.levels a).IsHeld ms := by
  have hname (kv : StringToken × Node) (m : Grammar.Member) (hkv : MemberReadFrom kv m) :
      Place.IsNamedAs p.name kv ↔ IsNamed [p.name] m := by
    rw [Place.IsNamedAs, text_of_memberReadFrom hkv, IsNamed]
    simp
  have hvalue (kv : StringToken × Node) (m : Grammar.Member) (hkv : MemberReadFrom kv m) :
      p.decoder ctx kv.2 = .ok (p.value a) ↔ p.spells ctx.levels (p.value a) m.2 :=
    hp.eq_ok (value_of_memberReadFrom hkv)
  rw [Place.IsSettled, settled_none, hasOne_forall₂ hall hname hvalue, eq_self_iff_true, true_and,
    forall_mem_iff hall fun kv m hkv => not_congr (hname kv m hkv)]
  rfl

theorem isWellFormed_iff {kvs : List (StringToken × Node)} {ms : List Grammar.Member}
    (hall : List.Forall₂ MemberReadFrom kvs ms) :
    (∀ kv ∈ kvs, (∃ name, kv.1.text = .ok name) ∧ kv.2.skip = .ok ()) ↔
      ∀ m ∈ ms, Grammar.IsName m.1 ∧ IsValue m.2 := by
  refine forall_mem_iff hall fun kv m hkv => and_congr (isName_of_memberReadFrom hkv) ?_
  have hvalue := value_of_memberReadFrom hkv
  exact iff_of_true (skip_of_readFrom hvalue) (isValue_of_readFrom hvalue)

/-- A text of an object whose names denote texts is read as an object. -/
theorem exists_members_of_isName {x : Node} {w : List Char} (hx : x.IsReadFrom w)
    {ms : List Grammar.Member} (hobject : IsObject ms w)
    (hwell : ∀ m ∈ ms, Grammar.IsName m.1 ∧ IsValue m.2) : ∃ kvs : List (StringToken × Node),
      x = .object kvs .closed ∧ List.Forall₂ MemberReadFrom kvs ms :=
  exists_members hx hobject (fun m hm => StringToken.isBody_of_isName (hwell m hm).1)
    fun m hm => (hwell m hm).2

/-- An object is read as a record just if its members hold all entries. -/
theorem object_iff (h : shape.IsLaidOut places) {w : List Char}
    {kvs : List (StringToken × Node)} (hx : (Node.object kvs .closed).IsReadFrom w) :
    (∃ t, Decoder.members (shape.onKey ctx) shape.empty kvs .closed = .ok t ∧
        ∀ p ∈ places, p.Gives t a) ↔
      ∃ ms, IsObject ms w ∧ (∀ m ∈ ms, Grammar.IsName m.1 ∧ IsValue m.2) ∧
        ∀ e ∈ places.map (Place.entry · ctx.levels a), e.IsHeld ms := by
  rw [exists_members_iff h]
  have hentries {ms : List Grammar.Member} (hall : List.Forall₂ MemberReadFrom kvs ms) :
      (∀ p ∈ places, p.IsSettled ctx a (p.read shape.empty) kvs) ↔
        ∀ e ∈ places.map (Place.entry · ctx.levels a), e.IsHeld ms := by
    rw [List.forall_mem_map]
    refine forall₂_congr fun p hp => ?_
    rw [h.read_empty p hp, isHeld_iff (h.takesAt p hp ctx) hall]
  constructor
  · rintro ⟨hwell, hsettled⟩
    obtain ⟨-, ms, hobject, hall⟩ := isObject_of_readFrom hx
    exact ⟨ms, hobject, (isWellFormed_iff hall).mp hwell, (hentries hall).mp hsettled⟩
  · rintro ⟨ms, hobject, hwell, hheld⟩
    obtain ⟨kvs', hsame, hall⟩ := exists_members_of_isName hx hobject hwell
    obtain ⟨rfl, -⟩ := Node.object.inj hsame
    exact ⟨(isWellFormed_iff hall).mpr hwell, (hentries hall).mpr hheld⟩

/-- The items of a list are read as the first fields just if they are spelled by their texts. -/
theorem given_iff (h : shape.IsLaidOut places) {given : List (Place σ α)}
    (hgiven : ∀ p ∈ given, p ∈ places) {xs : List Node} {ws : List (List Char)}
    (hall : List.Forall₂ Node.IsReadFrom xs ws) :
    List.Forall₂ (fun p x => p.decoder ctx x = .ok (p.value a)) given xs ↔
      List.Forall₂ (fun e w => e.IsSpelled w) (given.map (Place.entry · ctx.levels a)) ws := by
  induction hall generalizing given with
  | nil => rw [List.forall₂_nil_right_iff, List.forall₂_nil_right_iff, List.map_eq_nil_iff]
  | @cons x w xs ws hx _ ih =>
      cases given with
      | nil => exact iff_of_false nofun nofun
      | cons p given =>
          rw [List.forall_mem_cons] at hgiven
          rw [List.map_cons, List.forall₂_cons, List.forall₂_cons, ih hgiven.2]
          exact and_congr_left' ((h.takesAt p hgiven.1 ctx).eq_ok hx)

theorem isValue_of_given (h : shape.IsLaidOut places) {given rest : List Entry}
    (hsplit : places.map (Place.entry · ctx.levels a) = given ++ rest) {ws : List (List Char)}
    (hspelled : List.Forall₂ (fun e w => e.IsSpelled w) given ws) : ∀ v ∈ ws, IsValue v := by
  intro v hv
  obtain ⟨e, he, hentry⟩ := exists_of_forall₂ hspelled hv
  have hplace : e ∈ places.map (Place.entry · ctx.levels a) := by
    rw [hsplit]
    exact List.mem_append_left rest he
  obtain ⟨p, hp, rfl⟩ := List.mem_map.mp hplace
  exact (h.takesAt p hp ctx).isValue hentry

/-- A list is read as a record just if its items are the first of the fields and the others may be
missing. -/
theorem list_iff (h : shape.IsLaidOut places) {w : List Char} {xs : List Node}
    (hx : (Node.list xs .closed).IsReadFrom w) :
    (∃ t, shape.positional ctx shape.empty 0 shape.fields xs .closed = .ok t ∧
        ∀ p ∈ places, p.Gives t a) ↔
      ∃ given rest ws, places.map (Place.entry · ctx.levels a) = given ++ rest ∧ IsList ws w ∧
        List.Forall₂ (fun e w => e.IsSpelled w) given ws ∧ ∀ e ∈ rest, e.IsDefault := by
  rw [h.fields, exists_positional_iff h.apart h.read_write h.read_empty]
  constructor
  · rintro ⟨given, rest, hsplit, hread, hdefault⟩
    have hgiven : ∀ p ∈ given, p ∈ places := by
      rw [hsplit]
      exact fun p hp => List.mem_append_left rest hp
    obtain ⟨-, ws, hlist, hall⟩ := isList_of_readFrom hx
    refine ⟨_, rest.map (Place.entry · ctx.levels a), ws, ?_, hlist,
      (given_iff h hgiven hall).mp hread, List.forall_mem_map.mpr hdefault⟩
    rw [hsplit, List.map_append]
  · rintro ⟨given, rest, ws, hsplit, hlist, hspelled, hdefault⟩
    obtain ⟨given, rest, hplaces, rfl, rfl⟩ := List.map_eq_append_iff.mp hsplit
    have hgiven : ∀ p ∈ given, p ∈ places := by
      rw [hplaces]
      exact fun p hp => List.mem_append_left rest hp
    obtain ⟨xs', hsame, hall⟩ := exists_items hx hlist (isValue_of_given h hsplit hspelled)
    obtain ⟨rfl, -⟩ := Node.list.inj hsame
    exact ⟨given, rest, hplaces, (given_iff h hgiven hall).mpr hspelled,
      List.forall_mem_map.mp hdefault⟩

/-- The texts of a record, by the levels that are left to its fields. -/
def spells (places : List (Place σ α)) (left : Nat) : Spelling α := fun a =>
  Spelling.record Grammar.IsName (places.map (Place.entry · left a))

theorem isValue_of_spells (h : shape.IsLaidOut places) {w : List Char}
    (hspells : spells places ctx.levels a w) : IsValue w := by
  rcases hspells with ⟨ms, hobject, hwell, -⟩ | ⟨given, rest, ws, hsplit, hlist, hspelled, -⟩
  · exact .object hobject (fun m hm => StringToken.isBody_of_isName (hwell m hm).1)
      fun m hm => (hwell m hm).2
  · exact .list hlist (isValue_of_given h hsplit hspelled)

/-- What the text of a record is read as is an object or a list. -/
theorem exists_of_spells (h : shape.IsLaidOut places) {x : Node} {w : List Char}
    (hx : x.IsReadFrom w) (hspells : spells places ctx.levels a w) :
    (∃ kvs, x = .object kvs .closed) ∨ ∃ xs, x = .list xs .closed := by
  rcases hspells with ⟨ms, hobject, hwell, -⟩ | ⟨given, rest, ws, hsplit, hlist, hspelled, -⟩
  · obtain ⟨kvs, rfl, -⟩ := exists_members_of_isName hx hobject hwell
    exact .inl ⟨kvs, rfl⟩
  · obtain ⟨xs, rfl, -⟩ := exists_items hx hlist (isValue_of_given h hsplit hspelled)
    exact .inr ⟨xs, rfl⟩

theorem spells_object_iff (h : shape.IsLaidOut places) {kvs : List (StringToken × Node)}
    {w : List Char} (hx : (Node.object kvs .closed).IsReadFrom w) :
    spells places ctx.levels a w ↔
      ∃ t, Decoder.members (shape.onKey ctx) shape.empty kvs .closed = .ok t ∧
        ∀ p ∈ places, p.Gives t a := by
  rw [object_iff h hx]
  refine or_iff_left ?_
  rintro ⟨given, rest, ws, hsplit, hlist, hspelled, -⟩
  obtain ⟨xs, hnode, -⟩ := exists_items hx hlist (isValue_of_given h hsplit hspelled)
  cases hnode

theorem spells_list_iff (h : shape.IsLaidOut places) {xs : List Node} {w : List Char}
    (hx : (Node.list xs .closed).IsReadFrom w) :
    spells places ctx.levels a w ↔
      ∃ t, shape.positional ctx shape.empty 0 shape.fields xs .closed = .ok t ∧
        ∀ p ∈ places, p.Gives t a := by
  rw [list_iff h hx]
  refine or_iff_right ?_
  rintro ⟨ms, hobject, hwell, -⟩
  obtain ⟨kvs, hnode, -⟩ := exists_members_of_isName hx hobject hwell
  cases hnode

theorem skip_of_decode (h : shape.IsLaidOut places) {f : Field σ} (hf : f ∈ shape.fields) {s s' : σ}
    {x : Node} (hdecode : f.decode s ctx x = .ok s') : x.skip = .ok () := by
  rw [h.fields] at hf
  obtain ⟨p, hp, rfl⟩ := List.mem_map.mp hf
  obtain ⟨b, hb, -⟩ := map_eq_ok.mp hdecode
  exact (h.takesAt p hp ctx).skip hb

/-- A record is read just from the texts that spell it, one level further in. -/
theorem takesAt (h : shape.IsLaidOut places) (ctx : Context) :
    shape.decoder.TakesAt ctx (Spelling.inside (spells places) ctx.levels) where
  eq_ok {x w a} hx := by
    rw [decoder_iff h, Spelling.inside_iff]
    cases x with
    | absent => cases hx
    | leaf l =>
        have hdraft (t : σ) : shape.draft ctx (.leaf l) ≠ .ok t := unexpected_ne_ok
        simp only [hdraft, false_and, exists_false, false_iff]
        rintro ⟨ctx', -, hspells⟩
        obtain ⟨_, hnode⟩ | ⟨_, hnode⟩ := exists_of_spells h hx hspells <;> cases hnode
    | list xs tail =>
        obtain ⟨rfl, -⟩ := isList_of_readFrom hx
        simp only [spells_list_iff h hx, draft, bind_eq_ok]
        constructor
        · rintro ⟨t, ⟨ctx', henter, hread⟩, hgives⟩
          exact ⟨ctx', henter, t, hread, hgives⟩
        · rintro ⟨ctx', henter, t, hread, hgives⟩
          exact ⟨t, ⟨ctx', henter, hread⟩, hgives⟩
    | object kvs tail =>
        obtain ⟨rfl, -⟩ := isObject_of_readFrom hx
        simp only [spells_object_iff h hx, draft, bind_eq_ok]
        constructor
        · rintro ⟨t, ⟨ctx', henter, hread⟩, hgives⟩
          exact ⟨ctx', henter, t, hread, hgives⟩
        · rintro ⟨ctx', henter, t, hread, hgives⟩
          exact ⟨t, ⟨ctx', henter, hread⟩, hgives⟩
  isValue {a w} hspells := by
    obtain ⟨ctx', -, hinside⟩ := Spelling.inside_iff.mp hspells
    exact isValue_of_spells h hinside
  skip {x a} hread := by
    obtain ⟨t, hdraft, -⟩ := (decoder_iff h).mp hread
    exact skip_of_draft (fun f hf s ctx x s' => skip_of_decode h hf) hdraft

theorem takesAt_entries (h : shape.IsLaidOut places) {entries : Nat → α → List Entry}
    (hentries : ∀ left a, places.map (Place.entry · left a) = entries left a) (ctx : Context) :
    shape.decoder.TakesAt ctx (Spelling.inside
      (fun left a => Spelling.record Grammar.IsName (entries left a)) ctx.levels) := by
  have hspells : spells places = fun left a =>
      Spelling.record Grammar.IsName (entries left a) := by
    funext left a
    rw [spells, hentries]
  rw [← hspells]
  exact takesAt h ctx

end Shape

end Json
end SearchPolling
