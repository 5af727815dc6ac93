import SearchPolling.Proofs.Reading.Elements
import SearchPolling.Proofs.Reading.Reals

/-!
# The node of a written value

The text of a value is a text of the grammar, and the text of the value's own node, in which
nothing is missing or ill formed.  The node stands alone in the text, so that a decoder that
reads the text reads the node: `Decoder.ofString_render`.
-/

namespace SearchPolling
namespace Json

open Grammar (Slot)

mutual

/-- The node that a value is written as. -/
def node : Json → Node
  | .null => .leaf .null
  | .bool b => .leaf (.bool b)
  | .number n => .leaf n.lexeme
  | .string s => .leaf (.string (.ofText s))
  | .list xs => .list (itemNodes xs) .closed
  | .object kvs => .object (memberNodes kvs) .closed

def itemNodes : List Json → List Node
  | [] => []
  | x :: xs => x.node :: itemNodes xs

def memberNodes : List (String × Json) → List (StringToken × Node)
  | [] => []
  | (k, v) :: rest => (.ofText k, v.node) :: memberNodes rest

end

/-- The items of a list are written with commas between them. -/
theorem separated_itemChars (x : Json) (xs : List Json) :
    ∃ body, x.chars ++ itemChars xs = body ++ [']'] ∧
      Grammar.Separated Slot (x.chars :: xs.map chars) body := by
  induction xs generalizing x with
  | nil => exact ⟨x.chars, rfl, .one (slot_self _)⟩
  | cons y xs ih =>
      obtain ⟨body, hbody, hparts⟩ := ih y
      refine ⟨x.chars ++ ',' :: body, ?_, .cons (slot_self _) hparts⟩
      rw [itemChars, hbody, List.append_assoc, List.cons_append]

/-- What stands between the quotes of a text, as it is written. -/
def bodyChars (s : String) : List Char :=
  s.toList.flatMap escapeChar

theorem isMember_chars (k : String) (v : Json) :
    Grammar.IsMember (bodyChars k, v.chars) (stringChars k ++ ':' :: v.chars) :=
  ⟨_, _, slot_self _, slot_self _, rfl⟩

/-- The members of an object are written with commas between them. -/
theorem separated_memberChars (k : String) (v : Json) (kvs : List (String × Json)) :
    ∃ body, stringChars k ++ ':' :: (v.chars ++ memberChars kvs) = body ++ ['\x7d'] ∧
      Grammar.Separated Grammar.IsMember
        ((bodyChars k, v.chars) :: kvs.map fun kv => (bodyChars kv.1, kv.2.chars)) body := by
  induction kvs generalizing k v with
  | nil =>
      refine ⟨_, ?_, .one (isMember_chars k v)⟩
      rw [memberChars, List.append_assoc, List.cons_append]
  | cons kv kvs ih =>
      obtain ⟨k', v'⟩ := kv
      obtain ⟨body, hbody, hparts⟩ := ih k' v'
      refine ⟨_, ?_, .cons (isMember_chars k v) hparts⟩
      rw [memberChars, hbody, List.append_assoc, List.append_assoc, List.cons_append,
        List.cons_append]

theorem isList_chars (xs : List Json) : Grammar.IsList (xs.map chars) (Json.list xs).chars := by
  cases xs with
  | nil => exact .none (List.forall_mem_nil _)
  | cons x xs =>
      obtain ⟨body, hbody, hparts⟩ := separated_itemChars x xs
      rw [chars, hbody]
      exact .some hparts

theorem isObject_chars (kvs : List (String × Json)) :
    Grammar.IsObject (kvs.map fun kv => (bodyChars kv.1, kv.2.chars)) (Json.object kvs).chars := by
  cases kvs with
  | nil => exact .none (List.forall_mem_nil _)
  | cons kv kvs =>
      obtain ⟨k, v⟩ := kv
      obtain ⟨body, hbody, hparts⟩ := separated_memberChars k v kvs
      rw [chars, hbody]
      exact .some hparts

/-- A number is written as its own lexeme. -/
theorem scalar_number (n : Number) : n.lexeme.Scalar n.chars := by
  rcases n.chars_cases with ⟨hchars, hlexeme⟩ | ⟨hchars, hlexeme⟩
  · rw [hchars, hlexeme]
    exact .null
  · rw [hchars, hlexeme]
    exact .number (NumberLiteral.spelledBy_chars n.isPlain_literal)

mutual

/-- The text of a value is the text of its node. -/
theorem writes_node (j : Json) : j.node.Writes j.chars := by
  match j with
  | .null => exact .leaf .null
  | .bool true => exact .leaf (.bool true)
  | .bool false => exact .leaf (.bool false)
  | .number n => exact .leaf (scalar_number n)
  | .string s => exact .leaf (.string (StringToken.partsOf_ofText s))
  | .list xs => exact .list (writes_itemNodes xs) (isList_chars xs)
  | .object kvs => exact .object (writes_memberNodes kvs) (isObject_chars kvs)

theorem writes_itemNodes (xs : List Json) :
    List.Forall₂ Node.Writes (itemNodes xs) (xs.map chars) := by
  match xs with
  | [] => exact .nil
  | x :: xs => exact .cons (writes_node x) (writes_itemNodes xs)

theorem writes_memberNodes (kvs : List (String × Json)) :
    List.Forall₂ (MemberOf Node.Writes) (memberNodes kvs)
      (kvs.map fun kv => (bodyChars kv.1, kv.2.chars)) := by
  match kvs with
  | [] => exact .nil
  | (k, v) :: kvs =>
      exact .cons (.mk ⟨StringToken.partsOf_ofText k, rfl⟩ (writes_node v))
        (writes_memberNodes kvs)

end

/-- The text of a value holds the value's node and nothing else. -/
theorem document_render (j : Json) : Document.ofString j.render = ⟨j.node, false⟩ := by
  have hslot : Slot j.chars j.render.toList := by
    rw [render, String.toList_ofList]
    exact slot_self _
  exact (ofString_eq_iff.mpr ⟨_, j.writes_node, hslot⟩).1

/-- Whoever reads the text of a value reads its node. -/
theorem Decoder.ofString_render {α : Type} (d : Decoder α) (j : Json) :
    d.ofString j.render = d Context.outermost j.node := by
  rw [Decoder.ofString, document_render, Decoder.run]
  cases d Context.outermost j.node with
  | error f => rfl
  | ok a => rfl

end Json
end SearchPolling
