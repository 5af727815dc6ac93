import SearchPolling.Polling.Persistence
import SearchPolling.Proofs.Reading.Skipping

/-!
# Which texts are records

A record is read from a text just if the text spells it: the text is an object with exactly one
member for each of the two fields, or the list of the two fields.  What else an object holds does
not matter, as long as it belongs to the grammar and the names of its members denote texts.
-/

namespace SearchPolling
namespace Json

/-! ## Values that are read -/

/-- A truth value is read from its word alone. -/
theorem bool_eq_ok {ctx : Context} {x : Node} {w : List Char} (h : x.Writes w) {b : Bool} :
    Decoder.bool ctx x = .ok b ↔ w = Grammar.boolWord b := by
  constructor
  · intro hread
    rw [Decoder.bool.eq_def] at hread
    split at hread
    · obtain rfl := Except.ok.inj hread
      cases h with
      | leaf hscalar =>
          cases hscalar with
          | bool _ => rfl
    · exact absurd hread unexpected_ne_ok
  · rintro rfl
    rw [writes_unique h (.leaf (.bool b))]
    rfl

/-- A natural number is read from its digits alone. -/
theorem nat_eq_ok {ctx : Context} {x : Node} {w : List Char} (h : x.Writes w) {k : UInt64} :
    Decoder.nat ctx x = .ok k ↔ w = Decimal.natDigits k.toNat := by
  constructor
  · intro hread
    obtain ⟨n, rfl, hvalue⟩ := exists_of_nat hread
    cases h with
    | leaf hscalar =>
        cases hscalar with
        | number hspelled => exact (NumberLiteral.value_eq_natural_iff hspelled).mp hvalue
  · rintro rfl
    rw [writes_unique h (Json.nat k).writes_node]
    exact Decoder.nat_node ctx k

/-- What the name of a member denotes is what its key is read as. -/
theorem text_of_memberOf {kv : StringToken × Node} {m : Grammar.Member}
    (h : MemberOf Node.Writes kv m) {name : String} :
    kv.1.text = .ok name ↔ Grammar.Denotes m.1 name.toList := by
  cases h with
  | @mk key _ _ _ hkey _ =>
      obtain ⟨parts, ending⟩ := key
      obtain ⟨hparts, rfl⟩ := hkey
      exact StringToken.text_eq_ok hparts

theorem bool_of_memberOf {ctx : Context} {b : Bool} {kv : StringToken × Node}
    {m : Grammar.Member} (h : MemberOf Node.Writes kv m) :
    Decoder.bool ctx kv.2 = .ok b ↔ m.2 = Grammar.boolWord b := by
  cases h with
  | mk _ hwrites => exact bool_eq_ok hwrites

theorem nat_of_memberOf {ctx : Context} {k : UInt64} {kv : StringToken × Node}
    {m : Grammar.Member} (h : MemberOf Node.Writes kv m) :
    Decoder.nat ctx kv.2 = .ok k ↔ m.2 = Decimal.natDigits k.toNat := by
  cases h with
  | mk _ hwrites => exact nat_eq_ok hwrites

/-! ## Items of which there is one -/

section

variable {α β : Type} {P Q : α → Prop}

theorem hasOne_cons {x : α} {xs : List α} :
    Grammar.HasOne P Q (x :: xs) ↔
      (P x ∧ Q x ∧ ∀ y ∈ xs, ¬P y) ∨ (¬P x ∧ Grammar.HasOne P Q xs) := by
  constructor
  · rintro ⟨before, y, after, heq, hP, hQ, hnone⟩
    cases before with
    | nil =>
        obtain ⟨rfl, rfl⟩ := List.cons.inj heq
        exact .inl ⟨hP, hQ, hnone⟩
    | cons z before =>
        obtain ⟨rfl, rfl⟩ := List.cons.inj heq
        rw [List.cons_append, List.forall_mem_cons] at hnone
        exact .inr ⟨hnone.1, before, y, after, rfl, hP, hQ, hnone.2⟩
  · rintro (⟨hP, hQ, hnone⟩ | ⟨hfirst, before, y, after, rfl, hP, hQ, hnone⟩)
    · exact ⟨[], x, xs, rfl, hP, hQ, hnone⟩
    · exact ⟨x :: before, y, after, rfl, hP, hQ, List.forall_mem_cons.mpr ⟨hfirst, hnone⟩⟩

theorem not_hasOne_nil : ¬Grammar.HasOne P Q [] := by
  rintro ⟨before, x, after, heq, -⟩
  exact List.append_ne_nil_of_right_ne_nil before (List.cons_ne_nil x after) heq.symm

/-- Related lists have one item alike. -/
theorem hasOne_forall₂ {R : α → β → Prop} {P' Q' : β → Prop} {as : List α} {bs : List β}
    (h : List.Forall₂ R as bs) (hP : ∀ a b, R a b → (P a ↔ P' b))
    (hQ : ∀ a b, R a b → (Q a ↔ Q' b)) :
    Grammar.HasOne P Q as ↔ Grammar.HasOne P' Q' bs := by
  induction h with
  | nil => exact iff_of_false not_hasOne_nil not_hasOne_nil
  | @cons a b as bs hab hrest ih =>
      have hnone : (∀ y ∈ as, ¬P y) ↔ ∀ y ∈ bs, ¬P' y := forall_mem_iff hrest fun a b hab =>
        not_congr (hP a b hab)
      rw [hasOne_cons, hasOne_cons, hP a b hab, hQ a b hab, hnone, ih]

/-- What has been settled by the items so far, or else by the one item that has a property. -/
def Settled {γ : Type} (P Q : α → Prop) (settled : Option γ) (c : γ) (xs : List α) : Prop :=
  (settled = some c ∧ ∀ x ∈ xs, ¬P x) ∨ (settled = none ∧ Grammar.HasOne P Q xs)

variable {γ : Type} {settled : Option γ} {c : γ} {x : α} {xs : List α}

theorem settled_nil : Settled P Q settled c [] ↔ settled = some c := by
  simp [Settled, not_hasOne_nil]

theorem settled_none : Settled P Q none c xs ↔ Grammar.HasOne P Q xs := by
  simp [Settled]

theorem eq_of_settled {c' : γ} (h : Settled P Q (some c') c xs) : c' = c := by
  rcases h with ⟨hsame, -⟩ | ⟨hnone, -⟩
  · exact Option.some.inj hsame
  · cases hnone

theorem settled_cons (h : P x) :
    Settled P Q settled c (x :: xs) ↔
      settled = none ∧ Q x ∧ Settled P Q (some c) c xs := by
  simp [Settled, hasOne_cons, h]

theorem settled_cons_of_not (h : ¬P x) :
    Settled P Q settled c (x :: xs) ↔ Settled P Q settled c xs := by
  simp [Settled, hasOne_cons, h]

end

end Json

namespace Polling

open Json (Context Decoder Node StringToken Settled)

/-! ## Records -/

/-- What spells a record: an object with exactly one member for each of its fields, or the list
of its fields.  All names of an object have to be of a given kind. -/
def Record.IsSpelled (Name : List Char → Prop) (r : Record) (w : List Char) : Prop :=
  (∃ ms, Json.Grammar.IsObject ms w ∧ (∀ m ∈ ms, Name m.1 ∧ Json.Grammar.IsValue m.2) ∧
    Json.Grammar.HasOne (Json.Grammar.IsNamed ["active", "isActive"])
      (fun m => m.2 = Json.Grammar.boolWord r.active) ms ∧
    Json.Grammar.HasOne (Json.Grammar.IsNamed ["refreshInterval"])
      (fun m => m.2 = Decimal.natDigits r.refreshInterval.toNat) ms) ∨
  Json.Grammar.IsList
    [Json.Grammar.boolWord r.active, Decimal.natDigits r.refreshInterval.toNat] w

namespace Record

theorem complete_eq_ok {d : Draft} {r : Record} :
    shape.complete d = .ok r ↔ d = ⟨some r.active, some r.refreshInterval⟩ := by
  obtain ⟨active, interval⟩ := d
  obtain ⟨active', interval'⟩ := r
  cases active <;> cases interval <;>
    simp [shape, Json.required, bind, Except.bind, pure, Except.pure]

/-- Whether the name of a member is one of the given names. -/
def HasName (names : List String) (kv : StringToken × Node) : Prop :=
  ∃ name ∈ names, kv.1.text = .ok name

theorem hasName_iff {kv : StringToken × Node} {name : String} (h : kv.1.text = .ok name)
    {names : List String} : HasName names kv ↔ name ∈ names := by
  constructor
  · rintro ⟨name', hmem, hname'⟩
    obtain rfl := Except.ok.inj (h.symm.trans hname')
    exact hmem
  · intro hmem
    exact ⟨name, hmem, h⟩

theorem onKey_other (ctx : Context) (d : Draft) {name : String}
    (hactive : name ∉ ["active", "isActive"]) (hinterval : name ∉ ["refreshInterval"]) :
    shape.onKey ctx d name = .ok fun x => x.skip.map fun _ => d := by
  have hnone : shape.fields.find? (Json.Field.isNamed name) = none := by
    rw [List.find?_eq_none]
    intro f hf
    simp only [shape, List.mem_cons, List.not_mem_nil, or_false] at hf hactive hinterval
    rcases hf with rfl | rfl
    · simp only [Json.Field.isNamed, Json.Field.orNamed, Json.Field.held]
      grind
    · simp only [Json.Field.isNamed, Json.Field.held]
      grind
  rw [Json.Shape.onKey, hnone]

section

variable {ctx : Context} {active : Option Bool} {interval : Option UInt64} {key : StringToken}
  {name : String} {x : Node} {kvs : List (StringToken × Node)} {tail : Json.Tail} {t : Draft}

/-- The fields have different names. -/
theorem notMem_of_active (h : name ∈ ["active", "isActive"]) : name ∉ ["refreshInterval"] := by
  simp only [List.mem_cons, List.not_mem_nil, or_false] at h
  rcases h with rfl | rfl <;> decide

/-- Of members that are read the names denote texts. -/
theorem exists_text_of_members {d : Draft}
    (h : Decoder.members (shape.onKey ctx) d ((key, x) :: kvs) tail = .ok t) :
    ∃ name, key.text = .ok name := by
  rw [Decoder.members] at h
  obtain ⟨name, hname, -⟩ := Json.bind_eq_ok.mp h
  exact ⟨name, Json.mapError_eq_ok.mp hname⟩

theorem members_active (hname : key.text = .ok name) (hactive : name ∈ ["active", "isActive"]) :
    Decoder.members (shape.onKey ctx) ⟨active, interval⟩ ((key, x) :: kvs) tail = .ok t ↔
      active.isSome = false ∧ ∃ b, Decoder.bool ctx x = .ok b ∧
        Decoder.members (shape.onKey ctx) ⟨some b, interval⟩ kvs tail = .ok t := by
  have hkey : shape.onKey ctx ⟨active, interval⟩ name =
      if active.isSome then .error (Json.Mismatch.duplicateField "active").fault
      else .ok fun x => (Decoder.bool ctx x).map fun b => ⟨some b, interval⟩ := by
    simp only [List.mem_cons, List.not_mem_nil, or_false] at hactive
    rcases hactive with rfl | rfl <;> rfl
  exact Decoder.members_field_eq_ok (Json.mapError_eq_ok.mpr hname) hkey

theorem members_interval (hname : key.text = .ok name) (hinterval : name ∈ ["refreshInterval"]) :
    Decoder.members (shape.onKey ctx) ⟨active, interval⟩ ((key, x) :: kvs) tail = .ok t ↔
      interval.isSome = false ∧ ∃ k, Decoder.nat ctx x = .ok k ∧
        Decoder.members (shape.onKey ctx) ⟨active, some k⟩ kvs tail = .ok t := by
  have hkey : shape.onKey ctx ⟨active, interval⟩ name =
      if interval.isSome then .error (Json.Mismatch.duplicateField "refreshInterval").fault
      else .ok fun x => (Decoder.nat ctx x).map fun k => ⟨active, some k⟩ := by
    obtain rfl := List.mem_singleton.mp hinterval
    rfl
  exact Decoder.members_field_eq_ok (Json.mapError_eq_ok.mpr hname) hkey

theorem members_other (hname : key.text = .ok name) (hactive : name ∉ ["active", "isActive"])
    (hinterval : name ∉ ["refreshInterval"]) :
    Decoder.members (shape.onKey ctx) ⟨active, interval⟩ ((key, x) :: kvs) tail = .ok t ↔
      x.skip = .ok () ∧
        Decoder.members (shape.onKey ctx) ⟨active, interval⟩ kvs tail = .ok t := by
  rw [Decoder.members_cons_eq_ok (Json.mapError_eq_ok.mpr hname)
    (onKey_other ctx _ hactive hinterval)]
  constructor
  · rintro ⟨s', hs', h⟩
    obtain ⟨_, hskip, rfl⟩ := Json.map_eq_ok.mp hs'
    exact ⟨hskip, h⟩
  · rintro ⟨hskip, h⟩
    exact ⟨_, Json.map_eq_ok.mpr ⟨(), hskip, rfl⟩, h⟩

end

/-- The members of an object make up a record just if each field is settled once. -/
theorem members_eq_ok {ctx : Context} {active : Option Bool} {interval : Option UInt64}
    {kvs : List (StringToken × Node)} {b : Bool} {k : UInt64} :
    Decoder.members (shape.onKey ctx) ⟨active, interval⟩ kvs .closed =
        .ok ⟨some b, some k⟩ ↔
      (∀ kv ∈ kvs, (∃ name, kv.1.text = .ok name) ∧ kv.2.skip = .ok ()) ∧
      Settled (HasName ["active", "isActive"]) (fun kv => Decoder.bool ctx kv.2 = .ok b)
        active b kvs ∧
      Settled (HasName ["refreshInterval"]) (fun kv => Decoder.nat ctx kv.2 = .ok k)
        interval k kvs := by
  induction kvs generalizing active interval with
  | nil =>
      simp only [Json.settled_nil]
      constructor
      · intro h
        obtain ⟨-, h⟩ := Json.bind_unit_eq_ok.mp h
        cases h
        exact ⟨List.forall_mem_nil _, rfl, rfl⟩
      · rintro ⟨-, rfl, rfl⟩
        rfl
  | cons kv kvs ih =>
      obtain ⟨key, x⟩ := kv
      cases htext : key.text with
      | error flaw =>
          have hnone : ¬∃ name, key.text = .ok name := by
            rintro ⟨name, hname⟩
            rw [htext] at hname
            cases hname
          exact iff_of_false (fun h => hnone (exists_text_of_members h))
            fun h => hnone (h.1 _ List.mem_cons_self).1
      | ok name =>
          have hnames {names : List String} : HasName names (key, x) ↔ name ∈ names :=
            hasName_iff htext
          rw [List.forall_mem_cons]
          by_cases hactive : name ∈ ["active", "isActive"]
          · have hinterval : name ∉ ["refreshInterval"] := notMem_of_active hactive
            simp only [members_active htext hactive, ih, Json.settled_cons (hnames.mpr hactive),
              Json.settled_cons_of_not (mt hnames.mp hinterval), Option.isSome_eq_false_iff,
              Option.isNone_iff_eq_none]
            constructor
            · rintro ⟨hnone, b', hb', hall, hsettled, hk⟩
              obtain rfl := Json.eq_of_settled hsettled
              exact ⟨⟨⟨⟨name, htext⟩, Json.skip_of_bool hb'⟩, hall⟩, ⟨hnone, hb', hsettled⟩, hk⟩
            · rintro ⟨⟨-, hall⟩, ⟨hnone, hb, hsettled⟩, hk⟩
              exact ⟨hnone, b, hb, hall, hsettled, hk⟩
          · have hactive' : ¬HasName ["active", "isActive"] (key, x) := mt hnames.mp hactive
            by_cases hinterval : name ∈ ["refreshInterval"]
            · simp only [members_interval htext hinterval, ih,
                Json.settled_cons (hnames.mpr hinterval), Json.settled_cons_of_not hactive',
                Option.isSome_eq_false_iff, Option.isNone_iff_eq_none]
              constructor
              · rintro ⟨hnone, k', hk', hall, hb, hsettled⟩
                obtain rfl := Json.eq_of_settled hsettled
                exact ⟨⟨⟨⟨name, htext⟩, Json.skip_of_nat hk'⟩, hall⟩, hb, hnone, hk', hsettled⟩
              · rintro ⟨⟨-, hall⟩, hb, hnone, hk, hsettled⟩
                exact ⟨hnone, k, hk, hall, hb, hsettled⟩
            · simp only [members_other htext hactive hinterval, ih,
                Json.settled_cons_of_not hactive',
                Json.settled_cons_of_not (mt hnames.mp hinterval)]
              constructor
              · rintro ⟨hskip, hall, hsettled⟩
                exact ⟨⟨⟨⟨name, htext⟩, hskip⟩, hall⟩, hsettled⟩
              · rintro ⟨⟨⟨-, hskip⟩, hall⟩, hsettled⟩
                exact ⟨hskip, hall, hsettled⟩

theorem decoder_eq_ok {x : Node} {r : Record} :
    decoder Context.outermost x = .ok r ↔
      shape.draft Context.outermost x = .ok ⟨some r.active, some r.refreshInterval⟩ := by
  simp only [decoder, Json.Shape.decoder, Decoder.refined, Json.bind_eq_ok, Json.mapError_eq_ok,
    complete_eq_ok]
  constructor
  · rintro ⟨d, hd, rfl⟩
    exact hd
  · intro hd
    exact ⟨_, hd, rfl⟩

/-- Whatever a record is read from could have been skipped. -/
theorem skip_of_decoder {x : Node} {r : Record} (h : decoder Context.outermost x = .ok r) :
    x.skip = .ok () := by
  refine Json.Shape.skip_of_draft (fun f hf s ctx y s' hdecode => ?_) (decoder_eq_ok.mp h)
  simp only [shape, List.mem_cons, List.not_mem_nil, or_false] at hf
  rcases hf with rfl | rfl
  · obtain ⟨b, hb, -⟩ := Json.map_eq_ok.mp hdecode
    exact Json.skip_of_bool hb
  · obtain ⟨k, hk, -⟩ := Json.map_eq_ok.mp hdecode
    exact Json.skip_of_nat hk

theorem hasName_iff_of_memberOf (names : List String) {kv : StringToken × Node}
    {m : Json.Grammar.Member} (h : Json.MemberOf Node.Writes kv m) :
    HasName names kv ↔ Json.Grammar.IsNamed names m :=
  exists_congr fun _ => and_congr_right fun _ => Json.text_of_memberOf h

theorem isName_iff_of_memberOf {kv : StringToken × Node} {m : Json.Grammar.Member}
    (h : Json.MemberOf Node.Writes kv m) :
    (∃ name, kv.1.text = .ok name) ↔ Json.Grammar.IsName m.1 := by
  constructor
  · rintro ⟨name, hname⟩
    exact ⟨_, (Json.text_of_memberOf h).mp hname⟩
  · rintro ⟨text, htext⟩
    refine ⟨String.ofList text, (Json.text_of_memberOf h).mpr ?_⟩
    rwa [String.toList_ofList]

/-- An object is read as a record if it has exactly one member for each field. -/
theorem decoder_object_eq_ok {kvs : List (StringToken × Node)} {ms : List Json.Grammar.Member}
    (h : List.Forall₂ (Json.MemberOf Node.Writes) kvs ms) {r : Record} :
    decoder Context.outermost (.object kvs .closed) = .ok r ↔
      (∀ m ∈ ms, Json.Grammar.IsName m.1 ∧ Json.Grammar.IsValue m.2) ∧
      Json.Grammar.HasOne (Json.Grammar.IsNamed ["active", "isActive"])
        (fun m => m.2 = Json.Grammar.boolWord r.active) ms ∧
      Json.Grammar.HasOne (Json.Grammar.IsNamed ["refreshInterval"])
        (fun m => m.2 = Decimal.natDigits r.refreshInterval.toNat) ms := by
  have hdraft {t : Draft} : shape.draft Context.outermost (.object kvs .closed) = .ok t ↔
      Decoder.members (shape.onKey ⟨1, false⟩) ⟨none, none⟩ kvs .closed = .ok t := Iff.rfl
  have hall := Json.forall_mem_iff h (P := fun kv => (∃ name, kv.1.text = .ok name) ∧
    kv.2.skip = .ok ()) (Q := fun m => Json.Grammar.IsName m.1 ∧ Json.Grammar.IsValue m.2)
    fun kv m hm => by
      rw [isName_iff_of_memberOf hm]
      cases hm with
      | mk _ hwrites =>
          have hvalue := Json.isValue_iff.mpr ⟨_, hwrites⟩
          have hskip := Json.skip_of_isWhole (Json.isWhole_of_writes _ hwrites)
          exact and_congr_right fun _ => iff_of_true hskip hvalue
  rw [decoder_eq_ok, hdraft, members_eq_ok, hall, Json.settled_none, Json.settled_none]
  refine and_congr_right fun _ => and_congr ?_ ?_
  · exact Json.hasOne_forall₂ h (fun _ _ => hasName_iff_of_memberOf _)
      fun _ _ => Json.bool_of_memberOf
  · exact Json.hasOne_forall₂ h (fun _ _ => hasName_iff_of_memberOf _)
      fun _ _ => Json.nat_of_memberOf

theorem positional_eq_ok {ctx : Context} {xs : List Node} {b : Bool} {k : UInt64} :
    shape.positional ctx ⟨none, none⟩ 0 shape.fields xs .closed = .ok ⟨some b, some k⟩ ↔
      ∃ x y, xs = [x, y] ∧ Decoder.bool ctx x = .ok b ∧ Decoder.nat ctx y = .ok k := by
  have hfields : ∃ f g, shape.fields = [f, g] ∧
      (∀ d x, f.decode d ctx x = (Decoder.bool ctx x).map fun b => { d with active := some b }) ∧
      (∀ d x, g.decode d ctx x =
        (Decoder.nat ctx x).map fun k => { d with refreshInterval := some k }) ∧
      f.optional = false ∧ g.optional = false :=
    ⟨_, _, rfl, fun _ _ => rfl, fun _ _ => rfl, rfl, rfl⟩
  obtain ⟨f, g, hshape, hf, hg, hwanted, hwanted'⟩ := hfields
  rw [hshape]
  match xs with
  | [] =>
      refine iff_of_false (fun h => ?_) (by simp)
      rw [Json.Shape.positional, hwanted] at h
      cases h
  | [x] =>
      refine iff_of_false (fun h => ?_) (by simp)
      obtain ⟨d, -, h⟩ := Json.Shape.positional_cons_eq_ok.mp h
      rw [Json.Shape.positional, hwanted'] at h
      cases h
  | x :: y :: rest =>
      simp only [Json.Shape.positional_cons_eq_ok, Json.Shape.positional_nil_eq_ok, hf, hg,
        Json.map_eq_ok]
      constructor
      · rintro ⟨_, ⟨b', hb, rfl⟩, _, ⟨k', hk, rfl⟩, rfl, hsame⟩
        cases hsame
        exact ⟨x, y, rfl, hb, hk⟩
      · rintro ⟨x', y', heq, hb, hk⟩
        cases heq
        exact ⟨_, ⟨b, hb, rfl⟩, _, ⟨k, hk, rfl⟩, rfl, rfl⟩

/-- A list is read as a record if it holds the two fields. -/
theorem decoder_list_eq_ok {xs : List Node} {ws : List (List Char)}
    (h : List.Forall₂ Node.Writes xs ws) {r : Record} :
    decoder Context.outermost (.list xs .closed) = .ok r ↔
      ws = [Json.Grammar.boolWord r.active, Decimal.natDigits r.refreshInterval.toNat] := by
  have hdraft {t : Draft} : shape.draft Context.outermost (.list xs .closed) = .ok t ↔
      shape.positional ⟨1, false⟩ ⟨none, none⟩ 0 shape.fields xs .closed = .ok t := Iff.rfl
  rw [decoder_eq_ok, hdraft, positional_eq_ok]
  constructor
  · rintro ⟨x, y, rfl, hb, hk⟩
    obtain ⟨v, _, hv, hrest, rfl⟩ := List.forall₂_cons_left_iff.mp h
    obtain ⟨w, _, hw, hnone, rfl⟩ := List.forall₂_cons_left_iff.mp hrest
    cases hnone
    rw [(Json.bool_eq_ok hv).mp hb, (Json.nat_eq_ok hw).mp hk]
  · rintro rfl
    obtain ⟨x, _, hx, hrest, rfl⟩ := List.forall₂_cons_right_iff.mp h
    obtain ⟨y, _, hy, hnone, rfl⟩ := List.forall₂_cons_right_iff.mp hrest
    cases hnone
    exact ⟨x, y, rfl, (Json.bool_eq_ok hx).mpr rfl, (Json.nat_eq_ok hy).mpr rfl⟩

/-- A text is read as a record just if it is a text of a node that is. -/
theorem ofString_iff_decoder {text : String} {r : Record} :
    decoder.ofString text = .ok r ↔
      ∃ x w, x.Writes w ∧ Json.Grammar.Slot w text.toList ∧
        decoder Context.outermost x = .ok r := by
  constructor
  · intro h
    obtain ⟨r', hr', h⟩ := Json.bind_eq_ok.mp h
    cases hdocument : Json.Document.ofString text with
    | mk x followed =>
        rw [hdocument] at hr' h
        cases followed with
        | true => cases h
        | false =>
            obtain rfl := Except.ok.inj h
            obtain ⟨w, hwrites, hslot⟩ := Json.ofString_eq_iff.mp ⟨hdocument, skip_of_decoder hr'⟩
            exact ⟨x, w, hwrites, hslot, hr'⟩
  · rintro ⟨x, w, hwrites, hslot, hx⟩
    obtain ⟨hdocument, -⟩ := Json.ofString_eq_iff.mpr ⟨w, hwrites, hslot⟩
    rw [Decoder.ofString, hdocument, Decoder.run, hx]
    rfl

/-- A text is read as a record just if it spells the record. -/
theorem ofString_eq_ok {text : String} {r : Record} :
    decoder.ofString text = .ok r ↔
      ∃ w, Json.Grammar.Slot w text.toList ∧ r.IsSpelled Json.Grammar.IsName w := by
  rw [ofString_iff_decoder]
  constructor
  · rintro ⟨x, w, hwrites, hslot, hr⟩
    refine ⟨w, hslot, ?_⟩
    cases hwrites with
    | leaf _ => exact absurd (decoder_eq_ok.mp hr) Json.unexpected_ne_ok
    | list hall hlist =>
        rw [(decoder_list_eq_ok hall).mp hr] at hlist
        exact .inr hlist
    | object hall hobject => exact .inl ⟨_, hobject, (decoder_object_eq_ok hall).mp hr⟩
  · rintro ⟨w, hslot, ⟨ms, hobject, hmembers⟩ | hlist⟩
    · obtain ⟨kvs, hall⟩ : ∃ kvs, List.Forall₂ (Json.MemberOf Node.Writes) kvs ms := by
        refine Json.exists_forall₂ fun m hm =>
          Json.exists_memberOf ?_ (Json.isValue_iff.mp (hmembers.1 m hm).2)
        exact StringToken.isBody_of_isName (hmembers.1 m hm).1
      exact ⟨_, w, .object hall hobject, hslot, (decoder_object_eq_ok hall).mpr hmembers⟩
    · have hall : List.Forall₂ Node.Writes
          [.leaf (.bool r.active), (Json.nat r.refreshInterval).node]
          [Json.Grammar.boolWord r.active, Decimal.natDigits r.refreshInterval.toNat] :=
        .cons (.leaf (.bool _)) (.cons (Json.nat r.refreshInterval).writes_node .nil)
      exact ⟨_, w, .list hall hlist, hslot, (decoder_list_eq_ok hall).mpr rfl⟩

end Record
end Polling
end SearchPolling
