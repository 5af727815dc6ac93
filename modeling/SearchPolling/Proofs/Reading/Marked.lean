import SearchPolling.Proofs.Reading.Elements
import SearchPolling.Proofs.Reading.Strays

/-!
# Bytes that are read

A piece that is not UTF-8 may stand in a string that nobody asks for, and nowhere else; that is, it
may stand where the escape of half a surrogate pair may.  So bytes are read as the text with marks
that hold such an escape, and what the grammar says of texts of characters goes for bytes.
-/

namespace SearchPolling
namespace Json

open Text (Glyph)
open Text.Glyph (marks)

/-! ## Marks in texts -/

namespace StringToken

theorem flatMap_mark_of_notMem {parts : List StringPart} (h : .stray ∉ parts) :
    parts.flatMap StringPart.mark = parts := by
  induction parts with
  | nil => rfl
  | cons p parts ih =>
      rw [List.mem_cons, not_or] at h
      rw [List.flatMap_cons, ih h.2]
      cases p with
      | stray => exact absurd rfl h.1
      | _ => rfl

theorem unescape_trailing {n : Nat} (h : isTrailingSurrogate n = true) (ending : StringEnd)
    (rest : List StringPart) : unescape ending (.unit n :: rest) = .error .loneSurrogate := by
  rw [unescape.eq_def]
  simp only [h, if_true]

/-- A mark denotes nothing, whatever stands around it. -/
theorem unescape_mark_ne_ok {ending : StringEnd} {parts : List StringPart} (h : .stray ∈ parts)
    (cs : List Char) : unescape ending (parts.flatMap StringPart.mark) ≠ .ok cs := by
  have hlater {p : StringPart} {rest : List StringPart} (h : .stray ∈ p :: rest)
      (hp : .stray ≠ p) : .stray ∈ rest := List.mem_of_ne_of_mem hp h
  intro hcs
  fun_induction unescape ending parts generalizing cs with
  | case1 _ => cases h
  | case2 => cases h
  | case3 c rest ih =>
      obtain ⟨cs, hrest, -⟩ := map_eq_ok.mp hcs
      exact ih (hlater h (by simp)) cs hrest
  | case4 c rest ih =>
      obtain ⟨cs, hrest, -⟩ := map_eq_ok.mp hcs
      exact ih (hlater h (by simp)) cs hrest
  | case5 rest ih =>
      obtain ⟨cs, hrest, -⟩ := map_eq_ok.mp hcs
      cases (unescape_trailing (by decide) ending _).symm.trans hrest
  | case6 n rest htrailing =>
      cases (unescape_trailing htrailing ending _).symm.trans hcs
  | case7 n htrailing hleading => simp at h
  | case8 m htrailing hleading n rest htrailing' ih =>
      simp only [List.flatMap_cons, StringPart.mark, List.singleton_append, unescape, htrailing,
        hleading, htrailing', Bool.false_eq_true, if_false, if_true] at hcs
      obtain ⟨cs, hrest, -⟩ := map_eq_ok.mp hcs
      exact ih (hlater (hlater h (by simp)) (by simp)) cs hrest
  | case9 m htrailing hleading n rest htrailing' =>
      simp [StringPart.mark, unescape, htrailing, hleading, htrailing'] at hcs
  | case10 m htrailing hleading p rest hp =>
      cases p with
      | unit n => exact hp n rfl
      | _ => simp [StringPart.mark, unescape, htrailing, hleading] at hcs
  | case11 n rest htrailing hleading ih =>
      have hunit : (StringPart.unit n).mark = [.unit n] := rfl
      rw [List.flatMap_cons, hunit, List.singleton_append, unescape.eq_def] at hcs
      simp only [htrailing, hleading] at hcs
      obtain ⟨cs, hrest, -⟩ := map_eq_ok.mp hcs
      exact ih (hlater h (by simp)) cs hrest

theorem text_marked {t : StringToken} {s : String} : t.marked.text = .ok s ↔ t.text = .ok s := by
  by_cases hstray : .stray ∈ t.parts
  · refine iff_of_false (fun h => ?_) fun h => ?_
    · simp only [text, marked] at h
      split at h
      · cases h
      · next cs hcs => exact unescape_mark_ne_ok hstray cs hcs
    · simp only [text, List.contains_iff_mem.mpr hstray, if_true] at h
      split at h <;> cases h
  · rw [marked, flatMap_mark_of_notMem hstray]

end StringToken

/-! ## Marks in nodes -/

mutual

/-- A node with a mark in place of each piece that is not UTF-8. -/
def Node.marked : Node → Node
  | .absent => .absent
  | .leaf l => .leaf l.marked
  | .list xs tail => .list (markedItems xs) tail
  | .object kvs tail => .object (markedMembers kvs) tail

def markedItems : List Node → List Node
  | [] => []
  | x :: xs => x.marked :: markedItems xs

def markedMembers : List (StringToken × Node) → List (StringToken × Node)
  | [] => []
  | (key, x) :: rest => (key.marked, x.marked) :: markedMembers rest

end

theorem markedItems_eq_map (xs : List Node) : markedItems xs = xs.map Node.marked := by
  induction xs with
  | nil => rfl
  | cons x xs ih => rw [markedItems, ih, List.map_cons]

theorem markedMembers_eq_map (kvs : List (StringToken × Node)) :
    markedMembers kvs = kvs.map fun kv => (kv.1.marked, kv.2.marked) := by
  induction kvs with
  | nil => rfl
  | cons kv kvs ih => rw [markedMembers, ih, List.map_cons]

mutual

theorem lexemes_marked (x : Node) : x.marked.lexemes = x.lexemes.map Lexeme.marked := by
  match x with
  | .absent => rfl
  | .leaf l => rfl
  | .list [] tail => rfl
  | .list (x :: xs) tail =>
      rw [Node.marked, markedItems, Node.lexemes, Node.lexemes, lexemes_marked x,
        laterItems_marked xs, List.map_cons, List.map_append]
      rfl
  | .object [] tail => rfl
  | .object ((key, x) :: kvs) tail =>
      rw [Node.marked, markedMembers, Node.lexemes, Node.lexemes, lexemes_marked x,
        laterMembers_marked kvs, List.map_cons, List.map_cons, List.map_cons, List.map_append]
      rfl

theorem laterItems_marked (xs : List Node) :
    laterItems (markedItems xs) = (laterItems xs).map Lexeme.marked := by
  match xs with
  | [] => rfl
  | x :: xs =>
      rw [markedItems, laterItems, laterItems, lexemes_marked x, laterItems_marked xs,
        List.map_cons, List.map_append]
      rfl

theorem laterMembers_marked (kvs : List (StringToken × Node)) :
    laterMembers (markedMembers kvs) = (laterMembers kvs).map Lexeme.marked := by
  match kvs with
  | [] => rfl
  | (key, x) :: kvs =>
      rw [markedMembers, laterMembers, laterMembers, lexemes_marked x, laterMembers_marked kvs,
        List.map_cons, List.map_cons, List.map_cons, List.map_append]
      rfl

end

theorem isScalar_marked (l : Lexeme) : l.marked.isScalar = l.isScalar := by
  cases l <;> rfl

theorem isWhole_marked {x : Node} (h : x.IsWhole) : x.marked.IsWhole := by
  induction h with
  | @leaf l hl => exact .leaf ((isScalar_marked l).trans hl)
  | @list xs _ ih =>
      rw [Node.marked, markedItems_eq_map]
      exact .list (List.forall_mem_map.mpr ih)
  | @object kvs hkeys _ ih =>
      rw [Node.marked, markedMembers_eq_map]
      exact .object (List.forall_mem_map.mpr hkeys) (List.forall_mem_map.mpr ih)

/-! ## Nodes without their marks -/

/-- Whether lexemes that are those of a node but for marks are the lexemes of a node, which is the
same but for marks. -/
def Unmarks (y : Node) : Prop :=
  ∀ ls : List Lexeme, ls.map Lexeme.marked = y.lexemes →
    ∃ x : Node, x.IsWhole ∧ x.lexemes = ls ∧ x.marked = y

theorem eq_of_marked {l m : Lexeme} (h : l.marked = m) (hm : m.mark?.isSome = true) :
    l = m := by
  cases l with
  | string token =>
      subst h
      cases hm
  | _ => exact h

theorem exists_of_marked_string {l : Lexeme} {key : StringToken} (h : l.marked = .string key) :
    ∃ key', l = .string key' ∧ key'.marked = key := by
  cases l with
  | string token => exact ⟨token, rfl, Lexeme.string.inj h⟩
  | _ => cases h

theorem exists_laterItems {ys : List Node} (hys : ∀ y ∈ ys, Unmarks y) {ls : List Lexeme}
    (h : ls.map Lexeme.marked = laterItems ys) :
    ∃ xs : List Node, (∀ x ∈ xs, x.IsWhole) ∧ laterItems xs = ls ∧ markedItems xs = ys := by
  induction ys generalizing ls with
  | nil =>
      obtain ⟨l, rfl, hl⟩ := List.map_eq_singleton_iff.mp h
      obtain rfl := eq_of_marked hl rfl
      exact ⟨[], nofun, rfl, rfl⟩
  | cons y ys ih =>
      rw [List.forall_mem_cons] at hys
      rw [laterItems_cons] at h
      obtain ⟨l, ls, rfl, hl, h⟩ := List.map_eq_cons_iff.mp h
      obtain ⟨ls, ls', rfl, hy, hlater⟩ := List.map_eq_append_iff.mp h
      obtain rfl := eq_of_marked hl rfl
      obtain ⟨x, hx, rfl, rfl⟩ := hys.1 ls hy
      obtain ⟨xs, hxs, rfl, rfl⟩ := ih hys.2 hlater
      exact ⟨x :: xs, List.forall_mem_cons.mpr ⟨hx, hxs⟩, rfl, rfl⟩

/-- The lexemes of a member but for marks. -/
theorem exists_member {key : StringToken} {y : Node} (hy : Unmarks y) {ls later : List Lexeme}
    (h : ls.map Lexeme.marked = .string key :: .colon :: (y.lexemes ++ later)) :
    ∃ (key' : StringToken) (x : Node) (ls' : List Lexeme), key'.marked = key ∧ x.IsWhole ∧
      x.marked = y ∧ ls = .string key' :: .colon :: (x.lexemes ++ ls') ∧
      ls'.map Lexeme.marked = later := by
  obtain ⟨l, ls, rfl, hl, h⟩ := List.map_eq_cons_iff.mp h
  obtain ⟨m, ls, rfl, hm, h⟩ := List.map_eq_cons_iff.mp h
  obtain ⟨ls, ls', rfl, hvalue, hlater⟩ := List.map_eq_append_iff.mp h
  obtain ⟨key', rfl, hkey⟩ := exists_of_marked_string hl
  obtain rfl := eq_of_marked hm rfl
  obtain ⟨x, hx, rfl, hmarked⟩ := hy ls hvalue
  exact ⟨key', x, ls', hkey, hx, hmarked, rfl, hlater⟩

theorem exists_laterMembers {kvs : List (StringToken × Node)}
    (hkeys : ∀ kv ∈ kvs, kv.1.ending = .closed) (hkvs : ∀ kv ∈ kvs, Unmarks kv.2)
    {ls : List Lexeme} (h : ls.map Lexeme.marked = laterMembers kvs) :
    ∃ kvs' : List (StringToken × Node), (∀ kv ∈ kvs', kv.1.ending = .closed) ∧
      (∀ kv ∈ kvs', kv.2.IsWhole) ∧ laterMembers kvs' = ls ∧ markedMembers kvs' = kvs := by
  induction kvs generalizing ls with
  | nil =>
      obtain ⟨l, rfl, hl⟩ := List.map_eq_singleton_iff.mp h
      obtain rfl := eq_of_marked hl rfl
      exact ⟨[], nofun, nofun, rfl, rfl⟩
  | cons kv kvs ih =>
      rw [List.forall_mem_cons] at hkeys hkvs
      rw [laterMembers_cons] at h
      obtain ⟨l, ls, rfl, hl, hrest⟩ := List.map_eq_cons_iff.mp h
      obtain rfl := eq_of_marked hl rfl
      obtain ⟨key, x, ls, hkey, hx, hmarked, rfl, hlater⟩ := exists_member hkvs.1 hrest
      obtain ⟨kvs', hkeys', hwhole, rfl, rfl⟩ := ih hkeys.2 hkvs.2 hlater
      refine ⟨(key, x) :: kvs', List.forall_mem_cons.mpr ⟨?_, hkeys'⟩,
        List.forall_mem_cons.mpr ⟨hx, hwhole⟩, rfl, ?_⟩
      · exact (congrArg StringToken.ending hkey).trans hkeys.1
      · rw [markedMembers, hkey, hmarked]

theorem unmarks_of_isWhole {y : Node} (h : y.IsWhole) : Unmarks y := by
  induction h with
  | @leaf l hl =>
      intro ls hls
      rw [Node.lexemes] at hls
      obtain ⟨l', rfl, rfl⟩ := List.map_eq_singleton_iff.mp hls
      exact ⟨.leaf l', .leaf ((isScalar_marked l').symm.trans hl), rfl, rfl⟩
  | @list ys _ ih =>
      intro ls hls
      cases ys with
      | nil =>
          obtain ⟨l, ls, rfl, hl, hls⟩ := List.map_eq_cons_iff.mp hls
          obtain ⟨m, rfl, hm⟩ := List.map_eq_singleton_iff.mp hls
          obtain rfl := eq_of_marked hl rfl
          obtain rfl := eq_of_marked hm rfl
          exact ⟨.list [] .closed, .list nofun, rfl, rfl⟩
      | cons y ys =>
          rw [List.forall_mem_cons] at ih
          rw [Node.lexemes] at hls
          obtain ⟨l, ls, rfl, hl, hls⟩ := List.map_eq_cons_iff.mp hls
          obtain ⟨ls, ls', rfl, hy, hlater⟩ := List.map_eq_append_iff.mp hls
          obtain rfl := eq_of_marked hl rfl
          obtain ⟨x, hx, rfl, rfl⟩ := ih.1 ls hy
          obtain ⟨xs, hxs, rfl, rfl⟩ := exists_laterItems ih.2 hlater
          exact ⟨.list (x :: xs) .closed, .list (List.forall_mem_cons.mpr ⟨hx, hxs⟩), rfl, rfl⟩
  | @object kvs hkeys _ ih =>
      intro ls hls
      cases kvs with
      | nil =>
          obtain ⟨l, ls, rfl, hl, hls⟩ := List.map_eq_cons_iff.mp hls
          obtain ⟨m, rfl, hm⟩ := List.map_eq_singleton_iff.mp hls
          obtain rfl := eq_of_marked hl rfl
          obtain rfl := eq_of_marked hm rfl
          exact ⟨.object [] .closed, .object nofun nofun, rfl, rfl⟩
      | cons kv kvs =>
          rw [List.forall_mem_cons] at ih hkeys
          rw [Node.lexemes] at hls
          obtain ⟨l, ls, rfl, hl, hrest⟩ := List.map_eq_cons_iff.mp hls
          obtain rfl := eq_of_marked hl rfl
          obtain ⟨key, x, ls, hkey, hx, hmarked, rfl, hlater⟩ := exists_member ih.1 hrest
          obtain ⟨kvs', hkeys', hwhole, rfl, rfl⟩ := exists_laterMembers hkeys.2 ih.2 hlater
          have hclosed : key.ending = .closed :=
            (congrArg StringToken.ending hkey).trans hkeys.1
          refine ⟨.object ((key, x) :: kvs') .closed, .object ?_ ?_, rfl, ?_⟩
          · exact List.forall_mem_cons.mpr ⟨hclosed, hkeys'⟩
          · exact List.forall_mem_cons.mpr ⟨hx, hwhole⟩
          · rw [Node.marked, markedMembers, hkey, hmarked]

/-! ## Documents -/

/-- A node that is read from glyphs, with nothing behind it, is written by the marked text, with
blanks around it. -/
theorem writes_of_ofGlyphs {gs : List Glyph} {x : Node}
    (h : Document.ofGlyphs gs = ⟨x, false⟩) (hskip : x.skip = .ok ()) :
    ∃ w, x.marked.Writes w ∧ Grammar.Slot w (Glyph.marked gs) := by
  obtain ⟨hwhole, hscan⟩ := ofLexemes_eq_iff.mp ⟨h, hskip⟩
  have hsound : ∀ l ∈ Lexeme.scan gs, l.isSound = true := by
    rw [hscan]
    exact isSound_lexemes hwhole
  have hmarked : Lexeme.scan (marks gs) = x.marked.lexemes := by
    rw [Lexeme.scan_marks_of_sound (.inl hsound), hscan, lexemes_marked]
  have htext : (String.ofList (Glyph.marked gs)).toList = Glyph.marked gs := String.toList_ofList
  rw [← htext]
  apply ofString_eq_iff.mp
  rw [Document.ofString, Document.ofGlyphs, htext, ofLexemes_eq_iff]
  exact ⟨isWhole_marked hwhole, hmarked⟩

theorem ofGlyphs_of_isValue {gs : List Glyph} {w : List Char} (h : Grammar.IsValue w)
    (hslot : Grammar.Slot w (Glyph.marked gs)) :
    ∃ x, Document.ofGlyphs gs = ⟨x, false⟩ ∧ x.marked.Writes w := by
  obtain ⟨y, hy⟩ := isValue_iff.mp h
  have hwhole := isWhole_of_writes y hy
  have hmarked : Lexeme.scan (marks gs) = y.lexemes :=
    Lexeme.scan_written ((fits_of_isWhole hwhole _).mpr ⟨w, hy, hslot⟩)
  have hscan : (Lexeme.scan gs).map Lexeme.marked = y.lexemes := by
    rw [← hmarked]
    refine (Lexeme.scan_marks_of_sound (.inr ?_)).symm
    rw [hmarked]
    exact isSound_lexemes hwhole
  obtain ⟨x, hx, hlexemes, rfl⟩ := unmarks_of_isWhole hwhole _ hscan
  exact ⟨x, (ofLexemes_eq_iff.mpr ⟨hx, hlexemes.symm⟩).1, hy⟩

end Json
end SearchPolling
