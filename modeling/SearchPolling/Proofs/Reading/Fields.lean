import SearchPolling.Json.Record
import SearchPolling.Proofs.Reading.Values

/-!
# Parts that are read back

What a decoder of a type makes of the node of a value of this type, for the types that records
are made of.  A list or a record is read back just if its parts are, one level further in.
-/

namespace SearchPolling
namespace Json

theorem unexpected_ne_ok {α : Type} {expected : String} {x : Node} {a : α} :
    x.unexpected expected ≠ .ok a := by
  intro h
  obtain ⟨found, -, h⟩ := bind_eq_ok.mp h
  cases h

namespace Decoder

variable {σ α : Type} {ctx : Context}

theorem bool_node (ctx : Context) (b : Bool) : bool ctx (Json.bool b).node = .ok b := rfl

theorem text_node (expected : String) (ctx : Context) (s : String) :
    text expected ctx (Json.string s).node = .ok s :=
  StringToken.decode_ofText s

theorem string_node (ctx : Context) (s : String) : string ctx (Json.string s).node = .ok s :=
  text_node _ ctx s

theorem nat_node (ctx : Context) (n : UInt64) : nat ctx (Json.nat n).node = .ok n := by
  have hvalue : (Number.natural n).literal.decode = .ok (.natural n) :=
    Number.decode_literal rfl
  have hlexeme : (Number.natural n).lexeme = .number (Number.natural n).literal := rfl
  simp only [nat, refined, number, Json.nat, node, hlexeme, hvalue]
  rfl

/-- A name is read as what it stands for. -/
theorem enumeration_node {variants : List (String × α)} {name : String} {a : α}
    (h : variants.lookup name = some a) :
    enumeration variants ctx (Json.string name).node = .ok a := by
  rw [node, enumeration, StringToken.decode_ofText]
  simp only [bind, Except.bind, variant, h]

theorem nullable_of_ne {d : Decoder α} {x : Node} (h : x ≠ .leaf .null) :
    nullable d ctx x = (d ctx x).map some := by
  rw [nullable]
  exact h

/-- A value that may be missing is read back if it is missing or is read back. -/
theorem nullable_node_eq_ok {d : Decoder α} {encode : α → Json} {o : Option α}
    (hnull : ∀ a ∈ o, (encode a).node = .leaf .null → d ctx (.leaf .null) ≠ .ok a) :
    nullable d ctx (Json.ofOption encode o).node = .ok o ↔
      ∀ a ∈ o, d ctx (encode a).node = .ok a := by
  cases o with
  | none => exact ⟨fun _ => nofun, fun _ => rfl⟩
  | some a =>
      simp only [Json.ofOption, Option.mem_def, Option.some.injEq, forall_eq']
      by_cases hnode : (encode a).node = .leaf .null
      · rw [hnode]
        exact ⟨nofun, fun h => absurd h (hnull a rfl hnode)⟩
      · rw [nullable_of_ne hnode, map_eq_ok]
        simp

theorem items_cons_eq_ok {d : Decoder α} {i : Nat} {x : Node} {xs : List Node} {a : α}
    {as : List α} :
    items d ctx i (x :: xs) = .ok (a :: as) ↔
      d ctx x = .ok a ∧ items d ctx (i + 1) xs = .ok as := by
  rw [items, bind_eq_ok]
  constructor
  · rintro ⟨a', hfirst, h⟩
    obtain ⟨as', hrest, h⟩ := bind_eq_ok.mp h
    obtain ⟨rfl, rfl⟩ := List.cons.inj (Except.ok.inj h)
    exact ⟨inPart_eq_ok.mp hfirst, hrest⟩
  · rintro ⟨hfirst, hrest⟩
    exact ⟨a, inPart_eq_ok.mpr hfirst, bind_eq_ok.mpr ⟨as, hrest, rfl⟩⟩

theorem items_itemNodes_eq_ok {d : Decoder α} {encode : α → Json} {i : Nat} {as : List α} :
    items d ctx i (itemNodes (as.map encode)) = .ok as ↔
      ∀ a ∈ as, d ctx (encode a).node = .ok a := by
  induction as generalizing i with
  | nil => simp [itemNodes, items]
  | cons a as ih => rw [List.map_cons, itemNodes, items_cons_eq_ok, ih, List.forall_mem_cons]

theorem list_node_eq_ok {d : Decoder α} {encode : α → Json} {as : List α} :
    list d ctx (Json.list (as.map encode)).node = .ok as ↔
      ∃ ctx', ctx.enter = .ok ctx' ∧ ∀ a ∈ as, d ctx' (encode a).node = .ok a := by
  rw [node, list, bind_eq_ok]
  refine exists_congr fun ctx' => and_congr_right fun _ => ?_
  rw [← items_itemNodes_eq_ok (i := 0)]
  constructor
  · intro h
    obtain ⟨as', hitems, h⟩ := bind_eq_ok.mp h
    obtain ⟨-, -, h⟩ := bind_eq_ok.mp h
    rw [hitems, show as' = as from Except.ok.inj h]
  · intro h
    rw [h]
    rfl

/-- The value of a member is taken by whoever asks for the name, and the others after it. -/
theorem members_cons_eq_ok {onKey : σ → String → Except Fault (Node → Except Fault σ)}
    {s t : σ} {key : StringToken} {name : String} (hname : key.decode = .ok name)
    {read : Node → Except Fault σ} (hkey : onKey s name = .ok read)
    {x : Node} {rest : List (StringToken × Node)} {tail : Tail} :
    members onKey s ((key, x) :: rest) tail = .ok t ↔
      ∃ s', read x = .ok s' ∧ members onKey s' rest tail = .ok t := by
  rw [members, bind_eq_ok]
  constructor
  · rintro ⟨name', hname', h⟩
    obtain rfl := Except.ok.inj (hname.symm.trans hname')
    obtain ⟨read', hread, h⟩ := bind_eq_ok.mp h
    obtain rfl := Except.ok.inj (hkey.symm.trans hread)
    obtain ⟨s', hs', h⟩ := bind_eq_ok.mp h
    exact ⟨s', inPart_eq_ok.mp hs', h⟩
  · rintro ⟨s', hs', h⟩
    exact ⟨name, hname, bind_eq_ok.mpr
      ⟨read, hkey, bind_eq_ok.mpr ⟨s', inPart_eq_ok.mpr hs', h⟩⟩⟩

/-- A member that a draft holds is decoded into the draft. -/
theorem members_decoded_eq_ok {onKey : σ → String → Except Fault (Node → Except Fault σ)}
    {s t : σ} {key : StringToken} {name : String} (hname : key.decode = .ok name) {d : Decoder α}
    {set : α → σ} (hkey : onKey s name = .ok fun x => (d ctx x).map set)
    {x : Node} {rest : List (StringToken × Node)} {tail : Tail} :
    members onKey s ((key, x) :: rest) tail = .ok t ↔
      ∃ a, d ctx x = .ok a ∧ members onKey (set a) rest tail = .ok t := by
  rw [members_cons_eq_ok hname hkey]
  constructor
  · rintro ⟨s', hs', h⟩
    obtain ⟨a, ha, rfl⟩ := map_eq_ok.mp hs'
    exact ⟨a, ha, h⟩
  · rintro ⟨a, ha, h⟩
    exact ⟨set a, map_eq_ok.mpr ⟨a, ha, rfl⟩, h⟩

theorem members_held_eq_ok {onKey : σ → String → Except Fault (Node → Except Fault σ)} {s t : σ}
    {name : String} {d : Decoder α} {set : α → σ}
    (hkey : onKey s name = .ok fun x => (d ctx x).map set)
    {x : Node} {rest : List (StringToken × Node)} {tail : Tail} :
    members onKey s ((.ofText name, x) :: rest) tail = .ok t ↔
      ∃ a, d ctx x = .ok a ∧ members onKey (set a) rest tail = .ok t :=
  members_decoded_eq_ok (StringToken.decode_ofText name) hkey

/-- A member whose field the draft may have already. -/
theorem members_field_eq_ok {onKey : σ → String → Except Fault (Node → Except Fault σ)} {s t : σ}
    {key : StringToken} {name : String} (hname : key.decode = .ok name) {d : Decoder α}
    {set : α → σ} {present : Bool} {fault : Fault}
    (hkey : onKey s name = if present then .error fault else .ok fun x => (d ctx x).map set)
    {x : Node} {rest : List (StringToken × Node)} {tail : Tail} :
    members onKey s ((key, x) :: rest) tail = .ok t ↔
      present = false ∧ ∃ a, d ctx x = .ok a ∧ members onKey (set a) rest tail = .ok t := by
  cases present with
  | true =>
      refine iff_of_false (fun h => ?_) nofun
      obtain ⟨name', hname', h⟩ := bind_eq_ok.mp h
      obtain rfl := Except.ok.inj (hname.symm.trans hname')
      obtain ⟨read, hread, -⟩ := bind_eq_ok.mp h
      cases hkey.symm.trans hread
  | false => rw [members_decoded_eq_ok hname hkey, eq_self_iff_true, true_and]

/-- A dictionary is read back if its values are. -/
theorem dictionary_node {d : Decoder α} {encode : α → Json} {m : Dictionary α}
    (hsorted : m.IsSorted) {ctx' : Context} (henter : ctx.enter = .ok ctx')
    (h : ∀ kv ∈ m, d ctx' (encode kv.2).node = .ok kv.2) :
    dictionary d ctx (Json.ofDictionary encode m).node = .ok m := by
  have hmembers (read : Dictionary α) :
      members (fun (read : Dictionary α) (name : String) =>
          .ok fun x => (d ctx' x).map (read.put name ·)) read
        (memberNodes (m.map fun kv => (kv.1, encode kv.2))) .closed = .ok (read.bindAll m) := by
    clear hsorted
    induction m generalizing read with
    | nil => rfl
    | cons kv m ih =>
        rw [List.forall_mem_cons] at h
        exact (members_cons_eq_ok (StringToken.decode_ofText kv.1) rfl).mpr
          ⟨_, map_eq_ok.mpr ⟨kv.2, h.1, rfl⟩, ih h.2 (read.put kv.1 kv.2)⟩
  rw [Json.ofDictionary, node, dictionary, henter]
  exact (hmembers []).trans (congrArg Except.ok (Dictionary.ofBindings_of_isSorted hsorted))

/-! ## What has been read -/

theorem exists_of_nullable {d : Decoder α} {x : Node} {a : α}
    (h : nullable d ctx x = .ok (some a)) : d ctx x = .ok a := by
  by_cases hx : x = .leaf .null
  · subst hx
    cases h
  · rw [nullable_of_ne hx, map_eq_ok] at h
    obtain ⟨a', ha', hsame⟩ := h
    rw [ha', Option.some.inj hsame]

/-- Every item of a list has been read one level further in. -/
theorem exists_of_list {d : Decoder α} {x : Node} {as : List α} (h : list d ctx x = .ok as) :
    ∃ ctx', ctx.enter = .ok ctx' ∧ ∀ a ∈ as, ∃ y, d ctx' y = .ok a := by
  have hitems {ctx' : Context} {i : Nat} {xs : List Node} {as : List α}
      (h : items d ctx' i xs = .ok as) : ∀ a ∈ as, ∃ y, d ctx' y = .ok a := by
    induction xs generalizing i as with
    | nil =>
        obtain rfl := Except.ok.inj h
        exact nofun
    | cons y ys ih =>
        rw [items] at h
        obtain ⟨a, hfirst, h⟩ := bind_eq_ok.mp h
        obtain ⟨as', hrest, h⟩ := bind_eq_ok.mp h
        obtain rfl := Except.ok.inj h
        rw [List.forall_mem_cons]
        exact ⟨⟨y, inPart_eq_ok.mp hfirst⟩, ih hrest⟩
  rw [list.eq_def] at h
  split at h
  · obtain ⟨ctx', henter, h⟩ := bind_eq_ok.mp h
    obtain ⟨as', has', h⟩ := bind_eq_ok.mp h
    obtain ⟨-, -, h⟩ := bind_eq_ok.mp h
    obtain rfl := Except.ok.inj h
    exact ⟨ctx', henter, hitems has'⟩
  · exact absurd h unexpected_ne_ok

/-- What every member keeps holds in the end. -/
theorem members_induction {onKey : σ → String → Except Fault (Node → Except Fault σ)}
    {P : σ → Prop}
    (hkey : ∀ s name read x s', P s → onKey s name = .ok read → read x = .ok s' → P s')
    {s t : σ} (hs : P s) {kvs : List (StringToken × Node)} {tail : Tail}
    (h : members onKey s kvs tail = .ok t) : P t := by
  induction kvs generalizing s with
  | nil =>
      rw [members.eq_def] at h
      simp only at h
      split at h
      · -- A key without a colon is never the end of what is read.
        obtain ⟨name, -, h⟩ := bind_eq_ok.mp h
        obtain ⟨read, -, h⟩ := bind_eq_ok.mp h
        obtain ⟨_, hend, -⟩ := bind_eq_ok.mp h
        cases hend
      · obtain ⟨-, -, h⟩ := bind_eq_ok.mp h
        exact Except.ok.inj h ▸ hs
  | cons kv kvs ih =>
      rw [members] at h
      obtain ⟨name, -, h⟩ := bind_eq_ok.mp h
      obtain ⟨read, hread, h⟩ := bind_eq_ok.mp h
      obtain ⟨s', hs', h⟩ := bind_eq_ok.mp h
      exact ih (hkey s name read kv.2 s' hs hread (inPart_eq_ok.mp hs')) h

/-- The keys of a dictionary that has been read ascend, and its values have been read one level
further in. -/
theorem exists_of_dictionary {d : Decoder α} {x : Node} {m : Dictionary α}
    (h : dictionary d ctx x = .ok m) :
    m.IsSorted ∧ ∃ ctx', ctx.enter = .ok ctx' ∧ ∀ kv ∈ m, ∃ y, d ctx' y = .ok kv.2 := by
  rw [dictionary.eq_def] at h
  split at h
  · obtain ⟨ctx', henter, h⟩ := bind_eq_ok.mp h
    have hread := members_induction
      (P := fun m : Dictionary α => m.IsSorted ∧ ∀ kv ∈ m, ∃ y, d ctx' y = .ok kv.2)
      (fun m name read y m' hm hkey hm' => by
        obtain rfl := Except.ok.inj hkey
        obtain ⟨a, ha, rfl⟩ := map_eq_ok.mp hm'
        refine ⟨hm.1.put name a, fun kv hkv => ?_⟩
        rcases Dictionary.mem_put hkv with rfl | hold
        · exact ⟨y, ha⟩
        · exact hm.2 kv hold)
      ⟨List.Pairwise.nil, nofun⟩ h
    exact ⟨hread.1, ctx', henter, hread.2⟩
  · exact absurd h unexpected_ne_ok

end Decoder

/-! ## Records -/

namespace Shape

variable {σ α : Type} {shape : Shape σ α} {ctx : Context}

/-- A record is read from an object by way of the draft that its members make. -/
theorem decoder_object_eq_ok {kvs : List (String × Json)} {a : α} :
    shape.decoder ctx (Json.object kvs).node = .ok a ↔
      ∃ ctx', ctx.enter = .ok ctx' ∧ ∃ draft, Decoder.members (shape.onKey ctx') shape.empty
        (memberNodes kvs) .closed = .ok draft ∧ shape.complete draft = .ok a := by
  rw [decoder, Decoder.refined, bind_eq_ok, node]
  simp only [Shape.draft, bind_eq_ok, mapError_eq_ok]
  constructor
  · rintro ⟨draft, ⟨ctx', henter, hmembers⟩, h⟩
    exact ⟨ctx', henter, draft, hmembers, h⟩
  · rintro ⟨ctx', henter, draft, hmembers, h⟩
    exact ⟨draft, ⟨ctx', henter, hmembers⟩, h⟩

theorem positional_cons_eq_ok {f : Field σ} {fields : List (Field σ)} {s t : σ} {i : Nat}
    {x : Node} {xs : List Node} {tail : Tail} :
    shape.positional ctx s i (f :: fields) (x :: xs) tail = .ok t ↔
      ∃ s', f.decode s ctx x = .ok s' ∧
        shape.positional ctx s' (i + 1) fields xs tail = .ok t := by
  rw [positional, bind_eq_ok]
  exact exists_congr fun s' => and_congr_left fun _ => inPart_eq_ok

theorem positional_nil_eq_ok {s t : σ} {i : Nat} {xs : List Node} :
    shape.positional ctx s i [] xs .closed = .ok t ↔ xs = [] ∧ s = t := by
  rw [positional, bind_unit_eq_ok]
  refine and_congr ?_ ⟨Except.ok.inj, congrArg Except.ok⟩
  cases xs with
  | nil => exact iff_of_true rfl rfl
  | cons x xs =>
      refine iff_of_false (fun hend => ?_) (List.cons_ne_nil x xs)
      rw [endFields.eq_def] at hend
      simp only at hend
      split at hend <;> cases hend

theorem positional_induction {P : σ → Prop} {fields : List (Field σ)}
    (hfield : ∀ f ∈ fields, ∀ s x s', P s → f.decode s ctx x = .ok s' → P s')
    {s t : σ} (hs : P s) {i : Nat} {xs : List Node} {tail : Tail}
    (h : shape.positional ctx s i fields xs tail = .ok t) : P t := by
  induction fields generalizing s i xs with
  | nil =>
      rw [positional] at h
      obtain ⟨-, -, h⟩ := bind_eq_ok.mp h
      exact Except.ok.inj h ▸ hs
  | cons f fields ih =>
      have hlater := fun g hg => hfield g (List.mem_cons_of_mem f hg)
      cases xs with
      | nil =>
          rw [positional] at h
          obtain ⟨-, -, h⟩ := bind_eq_ok.mp h
          split at h
          · exact ih hlater hs h
          · cases h
      | cons x xs =>
          rw [positional] at h
          obtain ⟨s', hs', h⟩ := bind_eq_ok.mp h
          exact ih hlater (hfield f List.mem_cons_self s x s' hs (inPart_eq_ok.mp hs')) h

/-- What every field keeps of a draft holds of the draft that is read in the end, be the record
an object or a list. -/
theorem draft_induction {P : σ → Prop} (hempty : P shape.empty)
    (hfield : ∀ f ∈ shape.fields, ∀ ctx', ctx.enter = .ok ctx' → ∀ s x s', P s →
      f.decode s ctx' x = .ok s' → P s') {x : Node} {t : σ} (h : shape.draft ctx x = .ok t) :
    P t := by
  rw [draft.eq_def] at h
  split at h
  · obtain ⟨ctx', henter, h⟩ := bind_eq_ok.mp h
    exact positional_induction (fun f hf => hfield f hf ctx' henter) hempty h
  · obtain ⟨ctx', henter, h⟩ := bind_eq_ok.mp h
    refine Decoder.members_induction (fun s name read x s' hs hread hs' => ?_) hempty h
    rw [onKey] at hread
    split at hread
    · obtain rfl := Except.ok.inj hread
      obtain ⟨-, -, rfl⟩ := map_eq_ok.mp hs'
      exact hs
    · next f hf =>
        split at hread
        · cases hread
        · obtain rfl := Except.ok.inj hread
          exact hfield f (List.mem_of_find?_eq_some hf) ctx' henter s x s' hs hs'
  · exact absurd h unexpected_ne_ok

end Shape
end Json
end SearchPolling
