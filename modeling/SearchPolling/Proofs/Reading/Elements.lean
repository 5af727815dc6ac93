import Mathlib.Data.List.Forall2
import SearchPolling.Proofs.Reading.Nesting

/-!
# The nodes of a text

A text that holds one value and nothing else nests into one node, which is unlike that of any
other value.  Whether a text does is a matter of the grammar alone, which knows nothing of
lexemes and nodes: the values of the grammar are the texts of nodes.
-/

namespace SearchPolling
namespace Json

open Grammar (IsGap Slot IsValue)
open Text (Glyph)

/-! ## Nodes and their texts -/

/-- A key, and what stands between its quotes. -/
def KeyOf (key : StringToken) (body : List Char) : Prop :=
  PartsOf body key.parts ∧ key.ending = .closed

/-- A member of an object, and its key and value in a text. -/
inductive MemberOf (writes : Node → List Char → Prop) : StringToken × Node → Grammar.Member → Prop
  | mk {key : StringToken} {x : Node} {body w : List Char} : KeyOf key body → writes x w →
      MemberOf writes (key, x) (body, w)

/-- A node and its text. -/
inductive Node.Writes : Node → List Char → Prop
  | leaf {l : Lexeme} {w : List Char} : l.Scalar w → Writes (.leaf l) w
  | list {xs : List Node} {ws : List (List Char)} {w : List Char} : List.Forall₂ Writes xs ws →
      Grammar.IsList ws w → Writes (.list xs .closed) w
  | object {kvs : List (StringToken × Node)} {ms : List Grammar.Member} {w : List Char} :
      List.Forall₂ (MemberOf Writes) kvs ms → Grammar.IsObject ms w →
      Writes (.object kvs .closed) w

mutual

theorem isWhole_of_writes (x : Node) {w : List Char} (h : x.Writes w) : x.IsWhole := by
  match x with
  | .absent => cases h
  | .leaf l =>
      cases h with
      | leaf hscalar => exact .leaf (Lexeme.isScalar_of_scalar hscalar)
  | .list xs tail =>
      cases h with
      | list hall _ => exact .list (isWhole_of_items xs hall)
  | .object kvs tail =>
      cases h with
      | object hall _ =>
          obtain ⟨hclosed, hwhole⟩ := isWhole_of_members kvs hall
          exact .object hclosed hwhole

theorem isWhole_of_items (xs : List Node) {ws : List (List Char)}
    (h : List.Forall₂ Node.Writes xs ws) : ∀ x ∈ xs, x.IsWhole := by
  match xs, ws, h with
  | [], _, _ => exact List.forall_mem_nil _
  | x :: xs, _, .cons hx hxs =>
      exact List.forall_mem_cons.mpr ⟨isWhole_of_writes x hx, isWhole_of_items xs hxs⟩

theorem isWhole_of_members (kvs : List (StringToken × Node)) {ms : List Grammar.Member}
    (h : List.Forall₂ (MemberOf Node.Writes) kvs ms) :
    (∀ kv ∈ kvs, kv.1.ending = .closed) ∧ ∀ kv ∈ kvs, kv.2.IsWhole := by
  match kvs, ms, h with
  | [], _, _ => exact ⟨List.forall_mem_nil _, List.forall_mem_nil _⟩
  | (key, x) :: kvs, _, .cons (.mk hkey hx) hxs =>
      obtain ⟨hclosed, hwhole⟩ := isWhole_of_members kvs hxs
      exact ⟨List.forall_mem_cons.mpr ⟨hkey.2, hclosed⟩,
        List.forall_mem_cons.mpr ⟨isWhole_of_writes x hx, hwhole⟩⟩

end

/-! ## Lexemes of nodes -/

theorem written_nil {cs : List Char} : Lexeme.Written [] cs ↔ IsGap cs := by
  constructor
  · intro h
    cases h with
    | nil hgap => exact hgap
  · exact .nil

section

variable {α β : Type} {lex : α → List Lexeme} {R : α → β → Prop} {part : β → List Char → Prop}
  {later : List α → List Lexeme} {opening closing : Lexeme} {o c : Char}

/-- Parts with commas between them, up to the end of their list. -/
theorem written_separated (hclosing : closing.mark? = some c) (hnil : later [] = [closing])
    (hcons : ∀ x xs, later (x :: xs) = .comma :: (lex x ++ later xs)) {x : α} {xs : List α}
    (hlex : ∀ y ∈ x :: xs, ∀ cs, Lexeme.Written (lex y) cs ↔ ∃ b, R y b ∧ part b cs)
    {cs : List Char} :
    Lexeme.Written (lex x ++ later xs) cs ↔
      ∃ bs body after, cs = body ++ c :: after ∧ IsGap after ∧ List.Forall₂ R (x :: xs) bs ∧
        Grammar.Separated part bs body := by
  induction xs generalizing x cs with
  | nil =>
      rw [List.forall_mem_singleton] at hlex
      simp only [hnil, Lexeme.written_mark hclosing, hlex, written_nil]
      constructor
      · rintro ⟨body, after, rfl, ⟨b, hb, hpart⟩, hafter⟩
        exact ⟨[b], body, after, rfl, hafter, .cons hb .nil, .one hpart⟩
      · rintro ⟨bs, body, after, rfl, hafter, hall, hparts⟩
        obtain ⟨b, _, hb, hnone, rfl⟩ := List.forall₂_cons_left_iff.mp hall
        cases hnone
        cases hparts with
        | one hpart => exact ⟨body, after, rfl, ⟨b, hb, hpart⟩, hafter⟩
  | cons y ys ih =>
      rw [List.forall_mem_cons] at hlex
      simp only [hcons, Lexeme.written_mark (l := .comma) rfl, hlex.1, ih hlex.2]
      constructor
      · rintro ⟨first, _, rfl, ⟨b, hb, hpart⟩, bs, body, after, rfl, hafter, hall, hparts⟩
        obtain ⟨b', bs', hb', hall', rfl⟩ := List.forall₂_cons_left_iff.mp hall
        refine ⟨b :: b' :: bs', first ++ ',' :: body, after, ?_, hafter,
          .cons hb (.cons hb' hall'), .cons hpart hparts⟩
        rw [List.append_assoc, List.cons_append]
      · rintro ⟨bs, body, after, rfl, hafter, hall, hparts⟩
        obtain ⟨b, bs', hb, hall', rfl⟩ := List.forall₂_cons_left_iff.mp hall
        cases hparts with
        | one _ => cases hall'
        | @cons _ _ _ first rest hpart hparts =>
            refine ⟨first, rest ++ c :: after, ?_, ⟨b, hb, hpart⟩, _, rest, after, rfl, hafter,
              hall', hparts⟩
            rw [List.append_assoc, List.cons_append]

theorem written_opening (hopening : opening.mark? = some o) {ls : List Lexeme} {cs : List Char} :
    Lexeme.Written (opening :: ls) cs ↔
      ∃ before after, cs = before ++ o :: after ∧ IsGap before ∧ Lexeme.Written ls after := by
  have hcut : Lexeme.Written ([] ++ opening :: ls) cs ↔ _ := Lexeme.written_mark hopening
  simpa only [List.nil_append, written_nil] using hcut

/-- Brackets with nothing between them. -/
theorem written_none (hopening : opening.mark? = some o) (hclosing : closing.mark? = some c)
    {cs : List Char} :
    Lexeme.Written [opening, closing] cs ↔
      ∃ bs w, Slot w cs ∧ List.Forall₂ R [] bs ∧ Grammar.Bracketed part o c bs w := by
  simp only [written_opening hopening, written_opening hclosing, written_nil]
  constructor
  · rintro ⟨before, _, rfl, hbefore, inner, after, rfl, hinner, hafter⟩
    refine ⟨[], _, ⟨before, after, hbefore, hafter, ?_⟩, .nil, .none hinner⟩
    rw [List.cons_append, List.append_assoc, List.singleton_append]
  · rintro ⟨bs, w, ⟨before, after, hbefore, hafter, rfl⟩, hall, hbracketed⟩
    cases hall
    cases hbracketed with
    | @none inner hinner =>
        refine ⟨before, inner ++ c :: after, ?_, hbefore, inner, after, rfl, hinner, hafter⟩
        rw [List.cons_append, List.append_assoc, List.singleton_append]
    | some hparts => cases hparts

/-- Brackets with parts between them. -/
theorem written_some (hopening : opening.mark? = some o) (hclosing : closing.mark? = some c)
    (hnil : later [] = [closing])
    (hcons : ∀ x xs, later (x :: xs) = .comma :: (lex x ++ later xs)) {x : α} {xs : List α}
    (hlex : ∀ y ∈ x :: xs, ∀ cs, Lexeme.Written (lex y) cs ↔ ∃ b, R y b ∧ part b cs)
    {cs : List Char} :
    Lexeme.Written (opening :: (lex x ++ later xs)) cs ↔
      ∃ bs w, Slot w cs ∧ List.Forall₂ R (x :: xs) bs ∧ Grammar.Bracketed part o c bs w := by
  simp only [written_opening hopening, written_separated hclosing hnil hcons hlex]
  constructor
  · rintro ⟨before, _, rfl, hbefore, bs, body, after, rfl, hafter, hall, hparts⟩
    refine ⟨bs, _, ⟨before, after, hbefore, hafter, ?_⟩, hall, .some hparts⟩
    rw [List.cons_append, List.append_assoc, List.singleton_append]
  · rintro ⟨bs, w, ⟨before, after, hbefore, hafter, rfl⟩, hall, hbracketed⟩
    cases hbracketed with
    | none _ => cases hall
    | @some _ body hparts =>
        refine ⟨before, body ++ c :: after, ?_, hbefore, bs, body, after, rfl, hafter, hall,
          hparts⟩
        rw [List.cons_append, List.append_assoc, List.singleton_append]

end

theorem written_key {key : StringToken} (h : key.ending = .closed) {cs : List Char} :
    Lexeme.Written [.string key] cs ↔ ∃ body, KeyOf key body ∧ Slot (Grammar.quoted body) cs := by
  obtain ⟨parts, ending⟩ := key
  obtain rfl : ending = .closed := h
  rw [Lexeme.written_scalar rfl]
  constructor
  · rintro ⟨w, hslot, hscalar⟩
    cases hscalar with
    | @string body _ hparts => exact ⟨body, ⟨hparts, rfl⟩, hslot⟩
  · rintro ⟨body, ⟨hparts, -⟩, hslot⟩
    exact ⟨_, hslot, .string hparts⟩

/-- Whether the lexemes of a node are those of its texts. -/
def Fits (x : Node) : Prop :=
  ∀ cs, Lexeme.Written x.lexemes cs ↔ ∃ w, x.Writes w ∧ Slot w cs

theorem written_member {key : StringToken} (hkey : key.ending = .closed) {x : Node} (hx : Fits x)
    (cs : List Char) :
    Lexeme.Written (.string key :: .colon :: x.lexemes) cs ↔
      ∃ m, MemberOf Node.Writes (key, x) m ∧ Grammar.IsMember m cs := by
  have hcut : Lexeme.Written ([.string key] ++ .colon :: x.lexemes) cs ↔ _ :=
    Lexeme.written_mark rfl
  rw [List.singleton_append] at hcut
  simp only [hcut, written_key hkey, hx _]
  constructor
  · rintro ⟨before, after, rfl, ⟨body, hbody, hbefore⟩, w, hw, hafter⟩
    exact ⟨(body, w), .mk hbody hw, before, after, hbefore, hafter, rfl⟩
  · rintro ⟨⟨body, w⟩, ⟨hbody, hw⟩, before, after, hbefore, hafter, rfl⟩
    exact ⟨before, after, rfl, ⟨body, hbody, hbefore⟩, w, hw, hafter⟩

/-- The lexemes of a node are those of its texts, with blanks around them. -/
theorem fits_of_isWhole {x : Node} (h : x.IsWhole) : Fits x := by
  induction h with
  | @leaf l hl =>
      intro cs
      rw [Node.lexemes, Lexeme.written_scalar hl]
      constructor
      · rintro ⟨w, hslot, hscalar⟩
        exact ⟨w, .leaf hscalar, hslot⟩
      · rintro ⟨w, hwrites, hslot⟩
        cases hwrites with
        | leaf hscalar => exact ⟨w, hslot, hscalar⟩
  | @list xs _ ih =>
      intro cs
      have hlex : Lexeme.Written (Node.list xs .closed).lexemes cs ↔
          ∃ ws w, Slot w cs ∧ List.Forall₂ Node.Writes xs ws ∧ Grammar.IsList ws w := by
        cases xs with
        | nil =>
            rw [Node.lexemes]
            exact written_none rfl rfl
        | cons x xs =>
            rw [Node.lexemes]
            have hopening : Lexeme.openList.mark? = some '[' := rfl
            have hclosing : Lexeme.closeList.mark? = some ']' := rfl
            exact written_some hopening hclosing laterItems_nil laterItems_cons ih
      rw [hlex]
      constructor
      · rintro ⟨ws, w, hslot, hall, hlist⟩
        exact ⟨w, .list hall hlist, hslot⟩
      · rintro ⟨w, hwrites, hslot⟩
        cases hwrites with
        | @list _ ws _ hall hlist => exact ⟨ws, w, hslot, hall, hlist⟩
  | @object kvs hkeys _ ih =>
      intro cs
      have hmember : ∀ kv ∈ kvs, ∀ cs,
          Lexeme.Written (.string kv.1 :: .colon :: kv.2.lexemes) cs ↔
            ∃ m, MemberOf Node.Writes kv m ∧ Grammar.IsMember m cs :=
        fun kv hkv => written_member (hkeys kv hkv) (ih kv hkv)
      have hlex : Lexeme.Written (Node.object kvs .closed).lexemes cs ↔
          ∃ ms w, Slot w cs ∧ List.Forall₂ (MemberOf Node.Writes) kvs ms ∧
            Grammar.IsObject ms w := by
        cases kvs with
        | nil =>
            rw [Node.lexemes]
            exact written_none rfl rfl
        | cons kv kvs =>
            rw [Node.lexemes]
            have hopening : Lexeme.openObject.mark? = some '{' := rfl
            have hclosing : Lexeme.closeObject.mark? = some '}' := rfl
            exact written_some hopening hclosing laterMembers_nil laterMembers_cons hmember
      rw [hlex]
      constructor
      · rintro ⟨ms, w, hslot, hall, hobject⟩
        exact ⟨w, .object hall hobject, hslot⟩
      · rintro ⟨w, hwrites, hslot⟩
        cases hwrites with
        | @object _ ms _ hall hobject => exact ⟨ms, w, hslot, hall, hobject⟩

/-! ## Documents -/

/-- A text nests into a node that can be skipped, with nothing behind it, if it is a text of the
node with blanks around it. -/
theorem ofString_eq_iff {text : String} {x : Node} :
    Document.ofString text = ⟨x, false⟩ ∧ x.skip = .ok () ↔
      ∃ w, x.Writes w ∧ Slot w text.toList := by
  rw [Document.ofString, Document.ofGlyphs, ofLexemes_eq_iff]
  constructor
  · rintro ⟨hwhole, hscan⟩
    have hsound : ∀ l ∈ Lexeme.scan (Glyph.ofChars text.toList), l.isSound = true := by
      rw [hscan]
      exact isSound_lexemes hwhole
    have hwritten := Lexeme.written_scan hsound
    rw [hscan] at hwritten
    exact (fits_of_isWhole hwhole _).mp hwritten
  · rintro ⟨w, hwrites, hslot⟩
    have hwhole := isWhole_of_writes x hwrites
    exact ⟨hwhole, Lexeme.scan_written ((fits_of_isWhole hwhole _).mpr ⟨w, hwrites, hslot⟩)⟩

theorem slot_self (w : List Char) : Slot w w :=
  ⟨[], [], List.forall_mem_nil _, List.forall_mem_nil _, (List.append_nil w).symm⟩

/-- A text is the text of one node only. -/
theorem writes_unique {x y : Node} {w : List Char} (hx : x.Writes w) (hy : y.Writes w) :
    x = y := by
  have hslot : Slot w (String.ofList w).toList := by
    rw [String.toList_ofList]
    exact slot_self w
  have hdocument := (ofString_eq_iff.mpr ⟨w, hx, hslot⟩).1
  have hdocument' := (ofString_eq_iff.mpr ⟨w, hy, hslot⟩).1
  exact congrArg Document.root (hdocument.symm.trans hdocument')

/-! ## Values of the grammar -/

theorem exists_forall₂ {α β : Type} {R : α → β → Prop} {bs : List β}
    (h : ∀ b ∈ bs, ∃ a, R a b) : ∃ as, List.Forall₂ R as bs := by
  induction bs with
  | nil => exact ⟨[], .nil⟩
  | cons b bs ih =>
      rw [List.forall_mem_cons] at h
      obtain ⟨a, ha⟩ := h.1
      obtain ⟨as, has⟩ := ih h.2
      exact ⟨a :: as, .cons ha has⟩

theorem forall_mem_iff {α β : Type} {R : α → β → Prop} {P : α → Prop} {Q : β → Prop}
    {as : List α} {bs : List β} (h : List.Forall₂ R as bs)
    (hP : ∀ a b, R a b → (P a ↔ Q b)) : (∀ a ∈ as, P a) ↔ ∀ b ∈ bs, Q b := by
  induction h with
  | nil => exact iff_of_true (List.forall_mem_nil _) (List.forall_mem_nil _)
  | @cons a b as bs hab _ ih => rw [List.forall_mem_cons, List.forall_mem_cons, hP a b hab, ih]

/-- What is related to every item of a list is related to one of another list. -/
theorem exists_of_forall₂ {α β : Type} {R : α → β → Prop} {as : List α} {bs : List β}
    (h : List.Forall₂ R as bs) {b : β} (hb : b ∈ bs) : ∃ a ∈ as, R a b := by
  induction h with
  | nil => cases hb
  | @cons a b' as bs hab _ ih =>
      rcases List.mem_cons.mp hb with rfl | hmem
      · exact ⟨a, List.mem_cons_self, hab⟩
      · obtain ⟨a', ha', hrelated⟩ := ih hmem
        exact ⟨a', List.mem_cons_of_mem a ha', hrelated⟩

theorem isValue_of_scalar {l : Lexeme} {w : List Char} (h : l.Scalar w) : IsValue w := by
  cases h with
  | null => exact .null
  | bool b => exact .bool b
  | number hnumber => exact .number (NumberLiteral.isNumber_iff.mpr ⟨_, hnumber⟩)
  | string hparts => exact .string (isBody_of_partsOf hparts)

theorem isValue_of_writes {x : Node} (h : x.IsWhole) : ∀ w, x.Writes w → IsValue w := by
  induction h with
  | leaf _ =>
      intro w hwrites
      cases hwrites with
      | leaf hscalar => exact isValue_of_scalar hscalar
  | list _ ih =>
      intro w hwrites
      cases hwrites with
      | list hall hlist =>
          refine .list hlist fun v hv => ?_
          obtain ⟨x, hx, hwrites⟩ := exists_of_forall₂ hall hv
          exact ih x hx v hwrites
  | object _ _ ih =>
      intro w hwrites
      cases hwrites with
      | object hall hobject =>
          refine .object hobject (fun m hm => ?_) fun m hm => ?_
          · obtain ⟨_, _, hkey, _⟩ := exists_of_forall₂ hall hm
            exact isBody_of_partsOf hkey.1
          · obtain ⟨_, hx, _, hwrites⟩ := exists_of_forall₂ hall hm
            exact ih _ hx _ hwrites

theorem exists_memberOf {m : Grammar.Member} (hkey : Grammar.IsBody m.1)
    (hvalue : ∃ x : Node, x.Writes m.2) : ∃ kv, MemberOf Node.Writes kv m := by
  obtain ⟨parts, hparts⟩ := exists_partsOf hkey
  obtain ⟨x, hx⟩ := hvalue
  exact ⟨(⟨parts, .closed⟩, x), .mk ⟨hparts, rfl⟩ hx⟩

/-- The values of the grammar are the texts of nodes. -/
theorem isValue_iff {w : List Char} : IsValue w ↔ ∃ x : Node, x.Writes w := by
  constructor
  · intro h
    induction h with
    | null => exact ⟨.leaf .null, .leaf .null⟩
    | bool b => exact ⟨.leaf (.bool b), .leaf (.bool b)⟩
    | number hnumber =>
        obtain ⟨n, hn⟩ := NumberLiteral.isNumber_iff.mp hnumber
        exact ⟨.leaf (.number n), .leaf (.number hn)⟩
    | string hbody =>
        obtain ⟨parts, hparts⟩ := exists_partsOf hbody
        exact ⟨.leaf (.string ⟨parts, .closed⟩), .leaf (.string hparts)⟩
    | list hlist _ ih =>
        obtain ⟨xs, hall⟩ := exists_forall₂ ih
        exact ⟨.list xs .closed, .list hall hlist⟩
    | object hobject hkeys _ ih =>
        obtain ⟨kvs, hall⟩ := exists_forall₂ fun m hm => exists_memberOf (hkeys m hm) (ih m hm)
        exact ⟨.object kvs .closed, .object hall hobject⟩
  · rintro ⟨x, hwrites⟩
    exact isValue_of_writes (isWhole_of_writes x hwrites) w hwrites

end Json
end SearchPolling
