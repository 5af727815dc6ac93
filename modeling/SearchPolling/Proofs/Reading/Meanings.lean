import SearchPolling.Proofs.Reading.Marked
import SearchPolling.Proofs.Reading.RecordTexts

/-!
# What decoders read

Which texts spell the values of a type, said of the grammar alone, and that the decoder of the type
reads each value from these texts and from no others.  Here this is shown for values that have no
parts.
-/

namespace SearchPolling
namespace Json

open Grammar (IsList IsObject IsValue)

/-- A number as a binary64 value; a negative integer is converted by its size. -/
def Number.toFloat : Number → Float
  | .natural n => n.toFloat
  | .negative n => -n.toInt.natAbs.toUInt64.toFloat
  | .real x => x

/-- Which texts spell which values. -/
abbrev Spelling (α : Type) := α → List Char → Prop

namespace Spelling

variable {α : Type}

def string : Spelling String := fun s w =>
  ∃ body, w = Grammar.quoted body ∧ Grammar.Denotes body s.toList

def nat : Spelling UInt64 := fun k w =>
  w = Decimal.natDigits k.toNat

/-- A number that is no integer of 64 bits has to be one that binary64 can hold. -/
def real : Spelling Float := fun x w =>
  ∃ (l : NumberLiteral) (n : Number), l.SpelledBy w ∧ l.value = .ok n ∧ x = n.toFloat

def nullable (spells : Spelling α) : Spelling (Option α) := fun o w =>
  (w = Grammar.nullWord ∧ o = none) ∨ (w ≠ Grammar.nullWord ∧ ∃ a, o = some a ∧ spells a w)

end Spelling

/-! ## Nodes and what they are read from -/

/-- A node and the text that it is read from, in which marks stand for what is not UTF-8. -/
def Node.IsReadFrom (x : Node) (w : List Char) : Prop :=
  x.marked.Writes w

/-- A member of an object, and its key and value in the text that it is read from. -/
def MemberReadFrom (kv : StringToken × Node) (m : Grammar.Member) : Prop :=
  MemberOf Node.Writes (kv.1.marked, kv.2.marked) m

section

variable {x : Node} {w : List Char}

theorem leaf_of_marked {l : Lexeme} (h : x.marked = .leaf l) (hl : ∀ token, l ≠ .string token) :
    x = .leaf l := by
  cases x with
  | leaf l' =>
      cases l' with
      | string token => exact absurd (Node.leaf.inj h).symm (hl _)
      | _ => exact h
  | _ => cases h

theorem null_of_readFrom (h : x.IsReadFrom Grammar.nullWord) : x = .leaf .null :=
  leaf_of_marked (writes_unique h (.leaf .null)) nofun

theorem string_of_marked {token : StringToken} (h : x.marked = .leaf (.string token)) :
    ∃ token' : StringToken, x = .leaf (.string token') ∧ token'.marked = token := by
  cases x with
  | leaf l =>
      obtain ⟨token', rfl, htoken⟩ := exists_of_marked_string (Node.leaf.inj h)
      exact ⟨token', rfl, htoken⟩
  | _ => cases h

theorem list_of_marked {ys : List Node} {tail : Tail} (h : x.marked = .list ys tail) :
    ∃ xs : List Node, x = .list xs tail ∧ xs.map Node.marked = ys := by
  cases x with
  | list xs tail' =>
      obtain ⟨hys, rfl⟩ := Node.list.inj h
      exact ⟨xs, rfl, (markedItems_eq_map xs).symm.trans hys⟩
  | _ => cases h

theorem object_of_marked {kvs' : List (StringToken × Node)} {tail : Tail}
    (h : x.marked = .object kvs' tail) : ∃ kvs : List (StringToken × Node),
      x = .object kvs tail ∧ kvs.map (fun kv => (kv.1.marked, kv.2.marked)) = kvs' := by
  cases x with
  | object kvs tail' =>
      obtain ⟨hkvs, rfl⟩ := Node.object.inj h
      exact ⟨kvs, rfl, (markedMembers_eq_map kvs).symm.trans hkvs⟩
  | _ => cases h

/-- Nothing is missing in a node if nothing is missing in what it is marked as. -/
theorem isWhole_of_marked (h : x.marked.IsWhole) : x.IsWhole := by
  generalize hy : x.marked = y at h
  induction h generalizing x with
  | @leaf l hl =>
      cases x with
      | leaf l' =>
          obtain rfl := Node.leaf.inj hy
          exact .leaf ((isScalar_marked l').symm.trans hl)
      | _ => cases hy
  | list _ ih =>
      obtain ⟨xs, rfl, rfl⟩ := list_of_marked hy
      exact .list fun x hx => ih x.marked (List.mem_map_of_mem hx) rfl
  | object hkeys _ ih =>
      obtain ⟨kvs, rfl, rfl⟩ := object_of_marked hy
      rw [List.forall_mem_map] at hkeys ih
      exact .object hkeys fun kv hkv => ih kv hkv rfl

theorem skip_of_readFrom (h : x.IsReadFrom w) : x.skip = .ok () :=
  skip_of_isWhole (isWhole_of_marked (isWhole_of_writes _ h))

/-- A text of a list is read as the list of what its items are read as. -/
theorem exists_items (h : x.IsReadFrom w) {ws : List (List Char)} (hlist : IsList ws w)
    (hvalues : ∀ v ∈ ws, IsValue v) :
    ∃ xs : List Node, x = .list xs .closed ∧ List.Forall₂ Node.IsReadFrom xs ws := by
  obtain ⟨ys, hall⟩ := exists_forall₂ fun v hv => isValue_iff.mp (hvalues v hv)
  obtain ⟨xs, rfl, rfl⟩ := list_of_marked (writes_unique h (.list hall hlist))
  rw [List.forall₂_map_left_iff] at hall
  exact ⟨xs, rfl, hall⟩

theorem exists_members (h : x.IsReadFrom w) {ms : List Grammar.Member} (hobject : IsObject ms w)
    (hkeys : ∀ m ∈ ms, Grammar.IsBody m.1) (hvalues : ∀ m ∈ ms, IsValue m.2) :
    ∃ kvs : List (StringToken × Node), x = .object kvs .closed ∧
      List.Forall₂ MemberReadFrom kvs ms := by
  obtain ⟨kvs', hall⟩ := exists_forall₂ fun m hm =>
    exists_memberOf (hkeys m hm) (isValue_iff.mp (hvalues m hm))
  obtain ⟨kvs, rfl, rfl⟩ := object_of_marked (writes_unique h (.object hall hobject))
  rw [List.forall₂_map_left_iff] at hall
  exact ⟨kvs, rfl, hall⟩

/-- A list is read from the texts of its items in brackets. -/
theorem isList_of_readFrom {xs : List Node} {tail : Tail} (h : (Node.list xs tail).IsReadFrom w) :
    tail = .closed ∧ ∃ ws, IsList ws w ∧ List.Forall₂ Node.IsReadFrom xs ws := by
  rw [Node.IsReadFrom, Node.marked, markedItems_eq_map] at h
  cases h with
  | list hall hlist =>
      rw [List.forall₂_map_left_iff] at hall
      exact ⟨rfl, _, hlist, hall⟩

theorem isObject_of_readFrom {kvs : List (StringToken × Node)} {tail : Tail}
    (h : (Node.object kvs tail).IsReadFrom w) :
    tail = .closed ∧ ∃ ms, IsObject ms w ∧ List.Forall₂ MemberReadFrom kvs ms := by
  rw [Node.IsReadFrom, Node.marked, markedMembers_eq_map] at h
  cases h with
  | object hall hobject =>
      rw [List.forall₂_map_left_iff] at hall
      exact ⟨rfl, _, hobject, hall⟩

theorem isValue_of_readFrom (h : x.IsReadFrom w) : IsValue w :=
  isValue_iff.mpr ⟨_, h⟩

theorem text_of_memberReadFrom {kv : StringToken × Node} {m : Grammar.Member}
    (h : MemberReadFrom kv m) {name : String} :
    kv.1.text = .ok name ↔ Grammar.Denotes m.1 name.toList :=
  StringToken.text_marked.symm.trans (text_of_memberOf h)

theorem isName_of_memberReadFrom {kv : StringToken × Node} {m : Grammar.Member}
    (h : MemberReadFrom kv m) : (∃ name, kv.1.text = .ok name) ↔ Grammar.IsName m.1 := by
  rw [← Polling.Record.isName_iff_of_memberOf h]
  exact exists_congr fun _ => StringToken.text_marked.symm

theorem value_of_memberReadFrom {kv : StringToken × Node} {m : Grammar.Member}
    (h : MemberReadFrom kv m) : kv.2.IsReadFrom m.2 := by
  obtain ⟨key, y⟩ := kv
  cases h with
  | mk _ hwrites => exact hwrites

end

/-! ## Decoders of plain values -/

/-- Whether a decoder reads a value where it stands just from the texts that spell it. -/
structure Decoder.TakesAt {α : Type} (d : Decoder α) (ctx : Context) (spells : Spelling α) :
    Prop where
  eq_ok {x : Node} {w : List Char} {a : α} : x.IsReadFrom w → (d ctx x = .ok a ↔ spells a w)
  isValue {a : α} {w : List Char} : spells a w → IsValue w
  skip {x : Node} {a : α} : d ctx x = .ok a → x.skip = .ok ()

namespace Decoder

variable {α : Type} {ctx : Context}

theorem run_eq_ok {d : Decoder α} {doc : Document} {a : α} :
    d.run doc = .ok a ↔ d .outermost doc.root = .ok a ∧ doc.followed = false := by
  cases hfollowed : doc.followed <;> simp [run, hfollowed, bind_eq_ok, refuse, pure, Except.pure]

/-- Bytes are read as a value just if they are a text that spells it, with blank space around it.
Marks stand for what is not UTF-8. -/
theorem TakesAt.ofBytes_eq_ok {d : Decoder α} {spells : Spelling α}
    (h : d.TakesAt .outermost spells) {bytes : List UInt8} {a : α} :
    d.ofBytes bytes = .ok a ↔
      ∃ w, Grammar.Slot w (Text.Glyph.marked (Text.Glyph.ofBytes bytes)) ∧ spells a w := by
  rw [ofBytes, run_eq_ok]
  constructor
  · rintro ⟨hread, hfollowed⟩
    obtain ⟨w, hw, hslot⟩ := writes_of_ofGlyphs (congrArg (Document.mk _) hfollowed) (h.skip hread)
    exact ⟨w, hslot, (h.eq_ok hw).mp hread⟩
  · rintro ⟨w, hslot, hspells⟩
    obtain ⟨x, hdocument, hw⟩ := ofGlyphs_of_isValue (h.isValue hspells) hslot
    rw [hdocument]
    exact ⟨(h.eq_ok hw).mpr hspells, rfl⟩

theorem exists_of_text {expected : String} {x : Node} {s : String}
    (h : text expected ctx x = .ok s) :
    ∃ token : StringToken, x = .leaf (.string token) ∧ token.text = .ok s := by
  rw [text.eq_def] at h
  split at h
  · next token => exact ⟨token, rfl, mapError_eq_ok.mp h⟩
  · exact absurd h unexpected_ne_ok

theorem takesAt_string (ctx : Context) : string.TakesAt ctx Spelling.string where
  eq_ok {x w s} hx := by
    constructor
    · intro h
      obtain ⟨token, rfl, htext⟩ := exists_of_text h
      rw [← StringToken.text_marked] at htext
      rw [Node.IsReadFrom, Node.marked, Lexeme.marked] at hx
      cases hx with
      | leaf hscalar =>
          generalize token.marked = token' at htext hscalar
          cases hscalar with
          | @string body parts hparts =>
              exact ⟨body, rfl, (StringToken.text_eq_ok hparts).mp htext⟩
    · rintro ⟨body, rfl, hdenotes⟩
      obtain ⟨parts, hparts⟩ := exists_partsOf (StringToken.isBody_of_isName ⟨_, hdenotes⟩)
      obtain ⟨token, rfl, htoken⟩ := string_of_marked (writes_unique hx (.leaf (.string hparts)))
      have htext := (StringToken.text_eq_ok hparts).mpr hdenotes
      rw [← htoken, StringToken.text_marked] at htext
      exact mapError_eq_ok.mpr htext
  isValue := by
    rintro s w ⟨body, rfl, hdenotes⟩
    exact .string (StringToken.isBody_of_isName ⟨_, hdenotes⟩)
  skip h := by
    obtain ⟨token, rfl, htext⟩ := exists_of_text h
    rw [Node.skip, Lexeme.skip, skip_eq_ok]
    exact closed_of_decode (mapError_eq_ok.mpr htext)

theorem exists_of_number {expected : String} {x : Node} {n : Number}
    (h : number expected ctx x = .ok n) :
    ∃ l : NumberLiteral, x = .leaf (.number l) ∧ l.value = .ok n := by
  rw [number.eq_def] at h
  split at h
  · next l => exact ⟨l, rfl, mapError_eq_ok.mp h⟩
  · exact absurd h unexpected_ne_ok

theorem spelledBy_of_readFrom {l : NumberLiteral} {w : List Char}
    (h : (Node.leaf (.number l)).IsReadFrom w) : l.SpelledBy w := by
  cases h with
  | leaf hscalar =>
      cases hscalar with
      | number hspelled => exact hspelled

theorem leaf_of_spelledBy {x : Node} {l : NumberLiteral} {w : List Char} (hx : x.IsReadFrom w)
    (h : l.SpelledBy w) : x = .leaf (.number l) :=
  leaf_of_marked (writes_unique hx (.leaf (.number h))) nofun

theorem takesAt_nat (ctx : Context) : nat.TakesAt ctx Spelling.nat where
  eq_ok {x w k} hx := by
    constructor
    · intro h
      obtain ⟨l, rfl, hvalue⟩ := exists_of_nat h
      exact (NumberLiteral.value_eq_natural_iff (spelledBy_of_readFrom hx)).mp hvalue
    · rintro rfl
      have hnode := writes_unique hx (Json.nat k).writes_node
      rw [leaf_of_marked hnode nofun]
      exact nat_node ctx k
  isValue := by
    rintro k w rfl
    exact isValue_iff.mpr ⟨_, (Json.nat k).writes_node⟩
  skip := skip_of_nat

theorem real_eq (ctx : Context) (x : Node) :
    real ctx x = (number "f64" ctx x).map Number.toFloat := rfl

theorem takesAt_real (ctx : Context) : real.TakesAt ctx Spelling.real where
  eq_ok {x w v} hx := by
    rw [real_eq, map_eq_ok]
    constructor
    · rintro ⟨n, hn, rfl⟩
      obtain ⟨l, rfl, hvalue⟩ := exists_of_number hn
      exact ⟨l, n, spelledBy_of_readFrom hx, hvalue, rfl⟩
    · rintro ⟨l, n, hspelled, hvalue, rfl⟩
      rw [leaf_of_spelledBy hx hspelled]
      exact ⟨n, mapError_eq_ok.mpr hvalue, rfl⟩
  isValue := by
    rintro v w ⟨l, n, hspelled, -, -⟩
    exact .number (NumberLiteral.isNumber_iff.mpr ⟨l, hspelled⟩)
  skip h := by
    rw [real_eq, map_eq_ok] at h
    obtain ⟨n, hn, -⟩ := h
    obtain ⟨l, rfl, -⟩ := exists_of_number hn
    rfl

theorem TakesAt.nullable {d : Decoder α} {spells : Spelling α} (h : d.TakesAt ctx spells) :
    d.nullable.TakesAt ctx spells.nullable where
  eq_ok {x w o} hx := by
    by_cases hnull : x = .leaf .null
    · have hword : w = Grammar.nullWord := by
        subst hnull
        cases hx with
        | leaf hscalar =>
            cases hscalar with
            | null => rfl
      subst hnull
      rw [Spelling.nullable]
      simp [hword, Decoder.nullable, eq_comm]
    · have hword : w ≠ Grammar.nullWord := by
        rintro rfl
        exact hnull (null_of_readFrom hx)
      rw [nullable_of_ne hnull, map_eq_ok, Spelling.nullable]
      simp only [hword, false_and, false_or, ne_eq, not_false_eq_true, true_and]
      refine exists_congr fun a => ?_
      rw [h.eq_ok hx, and_comm, eq_comm]
  isValue := by
    rintro o w (⟨rfl, -⟩ | ⟨-, a, -, hspells⟩)
    · exact .null
    · exact h.isValue hspells
  skip {x o} hread := by
    by_cases hnull : x = .leaf .null
    · subst hnull
      rfl
    · rw [nullable_of_ne hnull, map_eq_ok] at hread
      obtain ⟨a, ha, -⟩ := hread
      exact h.skip ha

end Decoder

end Json
end SearchPolling
