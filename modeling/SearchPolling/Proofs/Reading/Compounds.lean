import SearchPolling.Proofs.Reading.Meanings

/-!
# What decoders of lists and dictionaries read

A list or a dictionary is read just if its parts are, one level further in, and so is any value.
A value is spelled by a text only if it fits the levels that are left where it stands.
-/

namespace SearchPolling
namespace Json

open Grammar (IsList IsObject IsValue)

namespace Spelling

variable {α : Type}

/-- Values of which each is spelled in turn. -/
def items (part : Spelling α) : Spelling (List α) := fun as w =>
  ∃ ws, IsList ws w ∧ List.Forall₂ part as ws

/-- Bindings of which each is spelled by a member; of members with the same name the last one
counts. -/
def bindings (part : Spelling α) : Spelling (Dictionary α) := fun d w =>
  ∃ (ms : List Grammar.Member) (bs : List (String × α)), IsObject ms w ∧
    List.Forall₂ (fun b m => Grammar.Denotes m.1 b.1.toList ∧ part b.2 m.2) bs ms ∧
    d = Dictionary.ofBindings bs

/-- A list, an object or a record takes up one of the levels that are left, and its parts have the
others. -/
def inside (spells : Nat → Spelling α) : Nat → Spelling α := fun levels a w =>
  ∃ left, levels = left + 1 ∧ spells left a w

def list (part : Nat → Spelling α) : Nat → Spelling (List α) :=
  inside fun left => items (part left)

def dictionary (part : Nat → Spelling α) : Nat → Spelling (Dictionary α) :=
  inside fun left => bindings (part left)

/-- The values that have no parts. -/
inductive Scalar : Spelling Json
  | null : Scalar .null Grammar.nullWord
  | bool (b : Bool) : Scalar (.bool b) (Grammar.boolWord b)
  | number {l : NumberLiteral} {n : Number} {w : List Char} : l.SpelledBy w → l.value = .ok n →
      Scalar (.number n) w
  | string {s : String} {w : List Char} : string s w → Scalar (.string s) w

/-- Any value that nests no deeper than so many levels. -/
def any : Nat → Spelling Json
  | 0 => Scalar
  | left + 1 => fun j w => Scalar j w ∨ (∃ js, j = .list js ∧ items (any left) js w) ∨
      ∃ kvs, j = .object kvs ∧ bindings (any left) kvs w

theorem inside_succ {spells : Nat → Spelling α} {left : Nat} {a : α} {w : List Char} :
    inside spells (left + 1) a w ↔ spells left a w := by
  constructor
  · rintro ⟨left', hlevels, h⟩
    obtain rfl := Nat.succ.inj hlevels
    exact h
  · intro h
    exact ⟨left, rfl, h⟩

theorem any_iff {levels : Nat} {j : Json} {w : List Char} :
    any levels j w ↔ Scalar j w ∨ (∃ js, j = .list js ∧ list any levels js w) ∨
      ∃ kvs, j = .object kvs ∧ dictionary any levels kvs w := by
  cases levels with
  | zero =>
      have hnone {β : Type} {spells : Nat → Spelling β} {b : β} : ¬inside spells 0 b w := by
        rintro ⟨left, hlevels, -⟩
        cases hlevels
      simp [any, list, dictionary, hnone]
  | succ left => simp only [any, list, dictionary, inside_succ]

/-- What a context has left is what is left to the parts of the value that stands there. -/
theorem inside_iff {ctx : Context} {spells : Nat → Spelling α} {a : α} {w : List Char} :
    inside spells ctx.levels a w ↔
      ∃ ctx', ctx.enter = .ok ctx' ∧ spells ctx'.levels a w := by
  constructor
  · rintro ⟨left, hlevels, hleft⟩
    obtain ⟨ctx', henter, -⟩ := exists_enter_iff.mpr (hlevels ▸ Nat.le_add_left 1 left)
    obtain rfl : ctx'.levels = left := by
      have hentered := levels_of_enter henter
      omega
    exact ⟨ctx', henter, hleft⟩
  · rintro ⟨ctx', henter, hleft⟩
    exact ⟨ctx'.levels, (levels_of_enter henter).symm, hleft⟩

end Spelling

namespace Decoder

open Spelling (inside_iff)

variable {α β : Type} {d : Decoder α} {ctx : Context} {part : Spelling α}
  {spells : Nat → Spelling α}

/-! ## Lists -/

theorem items_eq_ok {i : Nat} {xs : List Node} {as : List α} :
    items d ctx i xs = .ok as ↔ List.Forall₂ (fun a x => d ctx x = .ok a) as xs := by
  induction xs generalizing i as with
  | nil =>
      rw [items, List.forall₂_nil_right_iff]
      exact ⟨fun h => (Except.ok.inj h).symm, fun h => congrArg Except.ok h.symm⟩
  | cons x xs ih =>
      cases as with
      | nil =>
          refine iff_of_false (fun h => ?_) fun h => by cases h
          obtain ⟨_, -, h⟩ := bind_eq_ok.mp h
          obtain ⟨_, -, h⟩ := bind_eq_ok.mp h
          cases h
      | cons a as => rw [items_cons_eq_ok, List.forall₂_cons, ih]

/-- What is read of related items is what they are related to. -/
theorem forall₂_read {γ : Type} {R : β → γ → Prop} {P : α → β → Prop} {Q : α → γ → Prop}
    {xs : List β} {ws : List γ} (h : List.Forall₂ R xs ws)
    (hPQ : ∀ a x w, R x w → (P a x ↔ Q a w)) {as : List α} :
    List.Forall₂ P as xs ↔ List.Forall₂ Q as ws := by
  induction h generalizing as with
  | nil => rw [List.forall₂_nil_right_iff, List.forall₂_nil_right_iff]
  | @cons x w xs ws hxw _ ih =>
      cases as with
      | nil => exact iff_of_false nofun nofun
      | cons a as => rw [List.forall₂_cons, List.forall₂_cons, hPQ a x w hxw, ih]

theorem forall_of_forall₂ {P : α → β → Prop} {Q : β → Prop} {as : List α} {bs : List β}
    (h : List.Forall₂ P as bs) (hPQ : ∀ a b, P a b → Q b) : ∀ b ∈ bs, Q b := by
  intro b hb
  obtain ⟨a, -, hab⟩ := exists_of_forall₂ h hb
  exact hPQ a b hab

/-- Items are read one after another where the list has been entered. -/
theorem TakesAt.items_iff (h : d.TakesAt ctx part) {x : Node} {w : List Char}
    (hx : x.IsReadFrom w) {as : List α} :
    part.items as w ↔ ∃ xs : List Node, x = .list xs .closed ∧ items d ctx 0 xs = .ok as := by
  have hpart (a : α) (y : Node) (v : List Char) (hy : y.IsReadFrom v) :
      d ctx y = .ok a ↔ part a v := h.eq_ok hy
  constructor
  · rintro ⟨ws, hlist, hspells⟩
    have hvalues := forall_of_forall₂ hspells fun _ _ => h.isValue
    obtain ⟨xs, rfl, hall⟩ := exists_items hx hlist hvalues
    exact ⟨xs, rfl, items_eq_ok.mpr ((forall₂_read hall hpart).mpr hspells)⟩
  · rintro ⟨xs, rfl, hread⟩
    obtain ⟨-, ws, hlist, hall⟩ := isList_of_readFrom hx
    exact ⟨ws, hlist, (forall₂_read hall hpart).mp (items_eq_ok.mp hread)⟩

theorem TakesAt.isValue_items (h : d.TakesAt ctx part) {as : List α} {w : List Char}
    (hspells : part.items as w) : IsValue w := by
  obtain ⟨ws, hlist, hparts⟩ := hspells
  exact .list hlist (forall_of_forall₂ hparts fun _ _ => h.isValue)

theorem list_eq_ok {x : Node} {as : List α} :
    list d ctx x = .ok as ↔ ∃ ctx', ctx.enter = .ok ctx' ∧ ∃ xs tail, x = .list xs tail ∧
      items d ctx' 0 xs = .ok as ∧ tail.endItems = .ok () := by
  constructor
  · intro h
    rw [list.eq_def] at h
    split at h
    · next xs tail =>
        obtain ⟨ctx', henter, h⟩ := bind_eq_ok.mp h
        obtain ⟨as', hitems, h⟩ := bind_eq_ok.mp h
        obtain ⟨hend, h⟩ := bind_unit_eq_ok.mp h
        obtain rfl := Except.ok.inj h
        exact ⟨ctx', henter, xs, tail, rfl, hitems, hend⟩
    · exact absurd h unexpected_ne_ok
  · rintro ⟨ctx', henter, xs, tail, rfl, hitems, hend⟩
    rw [list, henter]
    simp only [bind, Except.bind, hitems, hend]
    rfl

theorem skipItems_of_endItems {tail : Tail} (h : tail.endItems = .ok ()) :
    tail.skipItems = .ok () := by
  cases tail <;> first | rfl | cases h

theorem TakesAt.list (h : ∀ ctx', ctx.enter = .ok ctx' → d.TakesAt ctx' (spells ctx'.levels)) :
    d.list.TakesAt ctx (Spelling.list spells ctx.levels) where
  eq_ok {x w as} hx := by
    rw [list_eq_ok, Spelling.list, inside_iff]
    refine exists_congr fun ctx' => and_congr_right fun henter => ?_
    rw [(h ctx' henter).items_iff hx]
    constructor
    · rintro ⟨xs, tail, rfl, hitems, -⟩
      obtain ⟨rfl, -⟩ := isList_of_readFrom hx
      exact ⟨xs, rfl, hitems⟩
    · rintro ⟨xs, rfl, hitems⟩
      exact ⟨xs, .closed, rfl, hitems, rfl⟩
  isValue {as w} hspells := by
    obtain ⟨ctx', henter, hitems⟩ := inside_iff.mp hspells
    exact (h ctx' henter).isValue_items hitems
  skip {x as} hread := by
    obtain ⟨ctx', henter, xs, tail, rfl, hitems, hend⟩ := list_eq_ok.mp hread
    refine skip_list_eq_ok.mpr ⟨?_, skipItems_of_endItems hend⟩
    exact forall_of_forall₂ (items_eq_ok.mp hitems) fun _ _ => (h ctx' henter).skip

/-! ## Dictionaries -/

/-- Whether a binding is read from a member. -/
def IsBinding (d : Decoder α) (ctx : Context) (b : String × α) (kv : StringToken × Node) : Prop :=
  kv.1.text = .ok b.1 ∧ d ctx kv.2 = .ok b.2

/-- Bindings are read one after another where the object has been entered. -/
theorem TakesAt.bindings_iff (h : d.TakesAt ctx part) {x : Node} {w : List Char}
    (hx : x.IsReadFrom w) {m : Dictionary α} :
    part.bindings m w ↔ ∃ (kvs : List (StringToken × Node)) (bs : List (String × α)),
      x = .object kvs .closed ∧ List.Forall₂ (IsBinding d ctx) bs kvs ∧
        m = Dictionary.ofBindings bs := by
  have hpart (b : String × α) (kv : StringToken × Node) (v : Grammar.Member)
      (hkv : MemberReadFrom kv v) :
      IsBinding d ctx b kv ↔ Grammar.Denotes v.1 b.1.toList ∧ part b.2 v.2 :=
    and_congr (text_of_memberReadFrom hkv) (h.eq_ok (value_of_memberReadFrom hkv))
  constructor
  · rintro ⟨ms, bs, hobject, hspells, rfl⟩
    have hkeys : ∀ v ∈ ms, Grammar.IsBody v.1 := forall_of_forall₂ hspells fun b v hbv =>
      StringToken.isBody_of_isName ⟨_, hbv.1⟩
    have hvalues := forall_of_forall₂ hspells fun b v hbv => h.isValue hbv.2
    obtain ⟨kvs, rfl, hall⟩ := exists_members hx hobject hkeys hvalues
    exact ⟨kvs, bs, rfl, (forall₂_read hall hpart).mpr hspells, rfl⟩
  · rintro ⟨kvs, bs, rfl, hread, rfl⟩
    obtain ⟨-, ms, hobject, hall⟩ := isObject_of_readFrom hx
    exact ⟨ms, bs, hobject, (forall₂_read hall hpart).mp hread, rfl⟩

theorem TakesAt.isValue_bindings (h : d.TakesAt ctx part) {m : Dictionary α} {w : List Char}
    (hspells : part.bindings m w) : IsValue w := by
  obtain ⟨ms, bs, hobject, hparts, -⟩ := hspells
  refine .object hobject (forall_of_forall₂ hparts fun _ _ hbv => ?_)
    (forall_of_forall₂ hparts fun _ _ hbv => h.isValue hbv.2)
  exact StringToken.isBody_of_isName ⟨_, hbv.1⟩

/-- Binds what is read of a member. -/
abbrev putMember (d : Decoder α) (ctx : Context) (read : Dictionary α) (name : String) :
    Except Fault (Node → Except Fault (Dictionary α)) :=
  .ok fun x => (d ctx x).map (read.put name ·)

theorem members_put_eq_ok {read m : Dictionary α} {kvs : List (StringToken × Node)} :
    members (putMember d ctx) read kvs .closed = .ok m ↔
      ∃ bs, List.Forall₂ (IsBinding d ctx) bs kvs ∧ m = read.bindAll bs := by
  induction kvs generalizing read with
  | nil =>
      constructor
      · intro h
        obtain ⟨-, h⟩ := bind_unit_eq_ok.mp h
        exact ⟨[], .nil, (Except.ok.inj h).symm⟩
      · rintro ⟨bs, hall, rfl⟩
        cases hall
        rfl
  | cons kv kvs ih =>
      obtain ⟨key, x⟩ := kv
      constructor
      · intro h
        obtain ⟨name, hname, -⟩ := bind_eq_ok.mp h
        obtain ⟨_, hx, h⟩ := (members_cons_eq_ok hname rfl).mp h
        obtain ⟨a, ha, rfl⟩ := map_eq_ok.mp hx
        obtain ⟨bs, hall, rfl⟩ := ih.mp h
        exact ⟨(name, a) :: bs, .cons ⟨mapError_eq_ok.mp hname, ha⟩ hall, rfl⟩
      · rintro ⟨bs, hall, rfl⟩
        cases hall with
        | @cons b _ bs _ hb hall =>
            obtain ⟨hname, ha⟩ := hb
            refine (members_cons_eq_ok (mapError_eq_ok.mpr hname) rfl).mpr
              ⟨_, map_eq_ok.mpr ⟨b.2, ha, rfl⟩, ih.mpr ⟨bs, hall, rfl⟩⟩

theorem dictionary_eq_ok {x : Node} {m : Dictionary α} :
    dictionary d ctx x = .ok m ↔ ∃ ctx', ctx.enter = .ok ctx' ∧ ∃ kvs tail,
      x = .object kvs tail ∧ members (putMember d ctx') [] kvs tail = .ok m := by
  constructor
  · intro h
    rw [dictionary.eq_def] at h
    split at h
    · next kvs tail =>
        obtain ⟨ctx', henter, h⟩ := bind_eq_ok.mp h
        exact ⟨ctx', henter, kvs, tail, rfl, h⟩
    · exact absurd h unexpected_ne_ok
  · rintro ⟨ctx', henter, kvs, tail, rfl, h⟩
    rw [dictionary, henter]
    exact h

theorem TakesAt.dictionary
    (h : ∀ ctx', ctx.enter = .ok ctx' → d.TakesAt ctx' (spells ctx'.levels)) :
    d.dictionary.TakesAt ctx (Spelling.dictionary spells ctx.levels) where
  eq_ok {x w m} hx := by
    rw [dictionary_eq_ok, Spelling.dictionary, inside_iff]
    refine exists_congr fun ctx' => and_congr_right fun henter => ?_
    rw [(h ctx' henter).bindings_iff hx]
    constructor
    · rintro ⟨kvs, tail, rfl, hmembers⟩
      obtain ⟨rfl, -⟩ := isObject_of_readFrom hx
      obtain ⟨bs, hall, hm⟩ := members_put_eq_ok.mp hmembers
      exact ⟨kvs, bs, rfl, hall, hm⟩
    · rintro ⟨kvs, bs, rfl, hall, hm⟩
      exact ⟨kvs, .closed, rfl, members_put_eq_ok.mpr ⟨bs, hall, hm⟩⟩
  isValue {m w} hspells := by
    obtain ⟨ctx', henter, hbindings⟩ := inside_iff.mp hspells
    exact (h ctx' henter).isValue_bindings hbindings
  skip {x m} hread := by
    obtain ⟨ctx', henter, kvs, tail, rfl, hmembers⟩ := dictionary_eq_ok.mp hread
    refine skip_object_eq_ok.mpr (skip_of_members (fun s name read y s' hkey hs' => ?_) hmembers)
    obtain rfl := Except.ok.inj hkey
    obtain ⟨a, ha, -⟩ := map_eq_ok.mp hs'
    exact (h ctx' henter).skip ha

/-! ## Any value -/

theorem anyItems_eq_items (ctx : Context) (i : Nat) (xs : List Node) :
    anyItems ctx i xs = items any ctx i xs := by
  induction xs generalizing i with
  | nil => rw [anyItems, items]
  | cons x xs ih =>
      rw [anyItems, items, ih]
      rfl

theorem any_list (ctx : Context) (xs : List Node) (tail : Tail) :
    (Node.list xs tail).any ctx = (list any ctx (.list xs tail)).map Json.list := by
  rw [Node.any, list]
  cases ctx.enter with
  | error f => rfl
  | ok ctx' =>
      simp only [bind, Except.bind, anyItems_eq_items]
      cases items any ctx' 0 xs with
      | error f => rfl
      | ok js =>
          simp only
          cases tail.endItems <;> rfl

theorem anyMembers_iff {ctx : Context} {kvs : List (StringToken × Node)}
    {js : List (String × Json)} :
    anyMembers ctx kvs = .ok js ↔ List.Forall₂ (IsBinding any ctx) js kvs := by
  induction kvs generalizing js with
  | nil =>
      rw [anyMembers, List.forall₂_nil_right_iff]
      exact ⟨fun h => (Except.ok.inj h).symm, fun h => congrArg Except.ok h.symm⟩
  | cons kv kvs ih =>
      obtain ⟨key, x⟩ := kv
      rw [anyMembers]
      constructor
      · intro h
        obtain ⟨name, hname, h⟩ := bind_eq_ok.mp h
        obtain ⟨j, hj, h⟩ := bind_eq_ok.mp h
        obtain ⟨js', hrest, h⟩ := bind_eq_ok.mp h
        obtain rfl := Except.ok.inj h
        exact .cons ⟨mapError_eq_ok.mp hname, inPart_eq_ok.mp hj⟩ (ih.mp hrest)
      · intro h
        cases h with
        | @cons b _ js' _ hb hrest =>
            exact bind_eq_ok.mpr ⟨b.1, mapError_eq_ok.mpr hb.1, bind_eq_ok.mpr
              ⟨b.2, inPart_eq_ok.mpr hb.2, bind_eq_ok.mpr ⟨js', ih.mpr hrest, rfl⟩⟩⟩

/-- Any object is read like a dictionary. -/
theorem any_object_closed {kvs : List (StringToken × Node)} {j : Json} :
    (Node.object kvs .closed).any ctx = .ok j ↔ ∃ ctx', ctx.enter = .ok ctx' ∧
      ∃ js, List.Forall₂ (IsBinding any ctx') js kvs ∧
        j = .object (Dictionary.ofBindings js) := by
  rw [Node.any, bind_eq_ok]
  refine exists_congr fun ctx' => and_congr_right fun _ => ?_
  simp only [bind_eq_ok, anyMembers_iff]
  refine exists_congr fun js => and_congr_right fun _ => ?_
  constructor
  · rintro ⟨-, -, h⟩
    exact (Except.ok.inj h).symm
  · rintro rfl
    exact ⟨(), rfl, rfl⟩

theorem skipMembers_of_endMembers {tail : Tail} (h : tail.endMembers = .ok ()) :
    tail.skipMembers = .ok () := by
  cases tail with
  | brokenKey token =>
      obtain ⟨name, hname, -⟩ := map_eq_ok.mp h
      exact skip_eq_ok.mpr (closed_of_decode hname)
  | closed => rfl
  | unread => rfl
  | _ => cases h

theorem exists_of_any_object {kvs : List (StringToken × Node)} {tail : Tail} {j : Json}
    (h : (Node.object kvs tail).any ctx = .ok j) : ∃ ctx', ctx.enter = .ok ctx' ∧
      (∃ js, List.Forall₂ (IsBinding any ctx') js kvs) ∧ tail.skipMembers = .ok () := by
  rw [Node.any] at h
  obtain ⟨ctx', henter, h⟩ := bind_eq_ok.mp h
  obtain ⟨js, hmembers, h⟩ := bind_eq_ok.mp h
  refine ⟨ctx', henter, ⟨js, anyMembers_iff.mp hmembers⟩, ?_⟩
  simp only at h
  split at h
  · obtain ⟨-, -, h⟩ := bind_eq_ok.mp h
    obtain ⟨hend, -⟩ := bind_unit_eq_ok.mp h
    cases hend
  · obtain ⟨hend, -⟩ := bind_unit_eq_ok.mp h
    exact skipMembers_of_endMembers hend

theorem any_leaf_eq_ok {l : Lexeme} {j : Json} {w : List Char}
    (hx : (Node.leaf l).IsReadFrom w) :
    (Node.leaf l).any ctx = .ok j ↔ Spelling.Scalar j w := by
  have hstring {s : String} : string ctx (.leaf l) = .ok s ↔ Spelling.string s w :=
    (takesAt_string ctx).eq_ok hx
  constructor
  · intro h
    cases l with
    | null =>
        obtain rfl := Except.ok.inj h
        cases hx with
        | leaf hscalar =>
            cases hscalar with
            | null => exact .null
    | bool b =>
        obtain rfl := Except.ok.inj h
        cases hx with
        | leaf hscalar =>
            cases hscalar with
            | bool _ => exact .bool b
    | number l =>
        obtain ⟨n, hn, rfl⟩ := map_eq_ok.mp h
        exact .number (spelledBy_of_readFrom hx) (mapError_eq_ok.mp hn)
    | string token =>
        obtain ⟨s, hs, rfl⟩ := map_eq_ok.mp h
        exact .string (hstring.mp hs)
    | _ => cases h
  · intro h
    cases h with
    | null =>
        rw [null_of_readFrom hx]
        rfl
    | bool b =>
        rw [leaf_of_marked (writes_unique hx (.leaf (.bool b))) nofun]
        rfl
    | number hspelled hvalue =>
        rw [leaf_of_spelledBy hx hspelled]
        exact map_eq_ok.mpr ⟨_, mapError_eq_ok.mpr hvalue, rfl⟩
    | string hspells =>
        obtain ⟨token, hnode, htext⟩ := exists_of_text (hstring.mpr hspells)
        rw [hnode]
        exact map_eq_ok.mpr ⟨_, mapError_eq_ok.mpr htext, rfl⟩

theorem skip_of_any_leaf {l : Lexeme} {j : Json} (h : (Node.leaf l).any ctx = .ok j) :
    (Node.leaf l).skip = .ok () := by
  cases l with
  | string token =>
      obtain ⟨s, hs, -⟩ := map_eq_ok.mp h
      exact skip_eq_ok.mpr (closed_of_decode hs)
  | null => rfl
  | bool b => rfl
  | number l => rfl
  | _ => cases h

/-- A text of a value that has no parts is no text of a list or an object. -/
theorem exists_leaf_of_scalar {x : Node} {j : Json} {w : List Char} (hx : x.IsReadFrom w)
    (h : Spelling.Scalar j w) : ∃ l, x = .leaf l := by
  cases h with
  | null => exact ⟨_, null_of_readFrom hx⟩
  | bool b => exact ⟨_, leaf_of_marked (writes_unique hx (.leaf (.bool b))) nofun⟩
  | number hspelled _ => exact ⟨_, leaf_of_spelledBy hx hspelled⟩
  | string hspells =>
      have hread := ((takesAt_string .outermost).eq_ok hx).mpr hspells
      obtain ⟨token, hnode, -⟩ := exists_of_text hread
      exact ⟨_, hnode⟩

theorem any_object_eq_ok {kvs : List (StringToken × Node)} {j : Json} :
    (Node.object kvs .closed).any ctx = .ok j ↔
      ∃ m, j = .object m ∧ dictionary any ctx (.object kvs .closed) = .ok m := by
  rw [any_object_closed]
  simp only [dictionary_eq_ok]
  constructor
  · rintro ⟨ctx', henter, js, hjs, rfl⟩
    exact ⟨_, rfl, ctx', henter, kvs, .closed, rfl, members_put_eq_ok.mpr ⟨js, hjs, rfl⟩⟩
  · rintro ⟨m, rfl, ctx', henter, kvs', tail, hnode, hmembers⟩
    obtain ⟨rfl, rfl⟩ := Node.object.inj hnode
    obtain ⟨js, hjs, rfl⟩ := members_put_eq_ok.mp hmembers
    exact ⟨ctx', henter, js, hjs, rfl⟩

/-- Any value is read as a value that has no parts, as a list or as a dictionary. -/
theorem any_eq_ok {x : Node} {j : Json} {w : List Char} (hx : x.IsReadFrom w) :
    x.any ctx = .ok j ↔ Spelling.Scalar j w ∨ (∃ js, j = .list js ∧ list any ctx x = .ok js) ∨
      ∃ kvs, j = .object kvs ∧ dictionary any ctx x = .ok kvs := by
  have hleaf (hnone : ∀ l, x ≠ .leaf l) : ¬Spelling.Scalar j w := by
    intro h
    obtain ⟨l, hl⟩ := exists_leaf_of_scalar hx h
    exact hnone l hl
  cases x with
  | absent => cases hx
  | leaf l =>
      have hlist (js : List Json) : list any ctx (.leaf l) ≠ .ok js := unexpected_ne_ok
      have hdictionary (kvs : Dictionary Json) : dictionary any ctx (.leaf l) ≠ .ok kvs :=
        unexpected_ne_ok
      simp only [any_leaf_eq_ok hx, hlist, hdictionary, and_false, exists_false, or_false]
  | list xs tail =>
      have hdictionary (kvs : Dictionary Json) : dictionary any ctx (.list xs tail) ≠ .ok kvs :=
        unexpected_ne_ok
      simp only [any_list, map_eq_ok, hleaf nofun, hdictionary, and_false, exists_false, or_false,
        false_or]
      refine exists_congr fun js => ?_
      rw [and_comm, eq_comm]
  | object kvs tail =>
      have hlist (js : List Json) : list any ctx (.object kvs tail) ≠ .ok js := unexpected_ne_ok
      obtain ⟨rfl, -⟩ := isObject_of_readFrom hx
      simp only [any_object_eq_ok, hleaf nofun, hlist, and_false, exists_false, false_or]

theorem takesAt_any (ctx : Context) : any.TakesAt ctx (Spelling.any ctx.levels) := by
  induction hlevels : ctx.levels using Nat.strongRecOn generalizing ctx with
  | ind levels ih =>
      subst hlevels
      have hinner (ctx' : Context) (henter : ctx.enter = .ok ctx') :
          any.TakesAt ctx' (Spelling.any ctx'.levels) :=
        ih ctx'.levels (Nat.lt_of_succ_le (Nat.le_of_eq (levels_of_enter henter))) ctx' rfl
      have hlist := TakesAt.list hinner
      have hdictionary := TakesAt.dictionary hinner
      constructor
      · intro x w j hx
        rw [any, any_eq_ok hx, Spelling.any_iff]
        simp only [hlist.eq_ok hx, hdictionary.eq_ok hx]
      · intro j w hspells
        rw [Spelling.any_iff] at hspells
        rcases hspells with hscalar | ⟨js, -, hjs⟩ | ⟨kvs, -, hkvs⟩
        · cases hscalar with
          | null => exact .null
          | bool b => exact .bool b
          | number hspelled _ => exact .number (NumberLiteral.isNumber_iff.mpr ⟨_, hspelled⟩)
          | string hstring => exact (takesAt_string ctx).isValue hstring
        · exact hlist.isValue hjs
        · exact hdictionary.isValue hkvs
      · intro x j h
        cases x with
        | absent => cases h
        | leaf l => exact skip_of_any_leaf h
        | list xs tail =>
            rw [any, any_list, map_eq_ok] at h
            obtain ⟨js, hjs, -⟩ := h
            exact hlist.skip hjs
        | object kvs tail =>
            obtain ⟨ctx', henter, ⟨js, hjs⟩, htail⟩ := exists_of_any_object h
            refine skip_object_eq_ok.mpr ⟨forall_of_forall₂ hjs fun b kv hb => ?_, htail⟩
            exact ⟨closed_of_decode (mapError_eq_ok.mpr hb.1), (hinner ctx' henter).skip hb.2⟩

end Decoder

end Json
end SearchPolling
