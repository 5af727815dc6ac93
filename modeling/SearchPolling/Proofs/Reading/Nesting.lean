import SearchPolling.Json.Decode
import SearchPolling.Proofs.Reading.Spelling

/-!
# The nesting of lexemes

Which lexemes nest into which node.  The lexemes of a node in which nothing is missing nest into
this node, wherever it stands.  Conversely, a text whose lexemes nest into a node that can be
skipped, with nothing behind it, consists of the lexemes of the node: what has been taken in is
kept in the frames, and a fault that is met is a fault of the whole node.
-/

namespace SearchPolling
namespace Json

mutual

/-- The lexemes of a node in which nothing is missing. -/
def Node.lexemes : Node → List Lexeme
  | .absent => []
  | .leaf l => [l]
  | .list [] _ => [.openList, .closeList]
  | .list (x :: xs) _ => .openList :: (x.lexemes ++ laterItems xs)
  | .object [] _ => [.openObject, .closeObject]
  | .object ((key, x) :: rest) _ =>
    .openObject :: .string key :: .colon :: (x.lexemes ++ laterMembers rest)

/-- The lexemes of the items of a list that follow its first, and of its end. -/
def laterItems : List Node → List Lexeme
  | [] => [.closeList]
  | x :: xs => .comma :: (x.lexemes ++ laterItems xs)

/-- The lexemes of the members of an object that follow its first, and of its end. -/
def laterMembers : List (StringToken × Node) → List Lexeme
  | [] => [.closeObject]
  | (key, x) :: rest => .comma :: .string key :: .colon :: (x.lexemes ++ laterMembers rest)

end

theorem laterItems_nil : laterItems [] = [.closeList] := rfl

theorem laterItems_cons (x : Node) (xs : List Node) :
    laterItems (x :: xs) = .comma :: (x.lexemes ++ laterItems xs) := rfl

theorem laterMembers_nil : laterMembers [] = [.closeObject] := rfl

theorem laterMembers_cons (kv : StringToken × Node) (kvs : List (StringToken × Node)) :
    laterMembers (kv :: kvs) =
      .comma :: ((.string kv.1 :: .colon :: kv.2.lexemes) ++ laterMembers kvs) := rfl

/-- Nodes in which nothing is missing or ill formed. -/
inductive Node.IsWhole : Node → Prop
  | leaf {l : Lexeme} : l.isScalar = true → IsWhole (.leaf l)
  | list {xs : List Node} : (∀ x ∈ xs, IsWhole x) → IsWhole (.list xs .closed)
  | object {kvs : List (StringToken × Node)} : (∀ kv ∈ kvs, kv.1.ending = .closed) →
      (∀ kv ∈ kvs, IsWhole kv.2) → IsWhole (.object kvs .closed)

/-! ## Values that are skipped -/

theorem refuse_ne_ok {α : Type} {flaw : Flaw} {a : α} : refuse flaw ≠ .ok a :=
  nofun

theorem skip_eq_ok {token : StringToken} : token.skip = .ok () ↔ token.ending = .closed := by
  rw [StringToken.skip]
  cases token.ending <;> simp [StringEnd.flaw?, refuse]

theorem skipItems_eq_ok {xs : List Node} : skipItems xs = .ok () ↔ ∀ x ∈ xs, x.skip = .ok () := by
  induction xs with
  | nil => simp [skipItems]
  | cons x xs ih => rw [skipItems, bind_unit_eq_ok, ih, List.forall_mem_cons]

theorem skipMembers_eq_ok {kvs : List (StringToken × Node)} :
    skipMembers kvs = .ok () ↔ ∀ kv ∈ kvs, kv.1.ending = .closed ∧ kv.2.skip = .ok () := by
  induction kvs with
  | nil => simp [skipMembers]
  | cons kv kvs ih =>
      rw [skipMembers, bind_unit_eq_ok, bind_unit_eq_ok, ih, skip_eq_ok, List.forall_mem_cons,
        and_assoc]

theorem skip_leaf_eq_ok {l : Lexeme} : (Node.leaf l).skip = .ok () ↔ l.isScalar = true := by
  rw [Node.skip]
  cases l <;> simp [Lexeme.skip, Lexeme.isScalar, refuse, skip_eq_ok]

theorem skip_list_eq_ok {xs : List Node} {tail : Tail} :
    (Node.list xs tail).skip = .ok () ↔
      (∀ x ∈ xs, x.skip = .ok ()) ∧ tail.skipItems = .ok () := by
  rw [Node.skip, bind_unit_eq_ok, skipItems_eq_ok]

theorem skip_object_eq_ok {kvs : List (StringToken × Node)} {tail : Tail} :
    (Node.object kvs tail).skip = .ok () ↔
      (∀ kv ∈ kvs, kv.1.ending = .closed ∧ kv.2.skip = .ok ()) ∧
        tail.skipMembers = .ok () := by
  rw [Node.skip, bind_unit_eq_ok, skipMembers_eq_ok]

theorem skip_list_ne_ok {xs : List Node} {tail : Tail} (h : tail.skipItems ≠ .ok ()) :
    (Node.list xs tail).skip ≠ .ok () :=
  fun hskip => h (skip_list_eq_ok.mp hskip).2

theorem skip_object_ne_ok {kvs : List (StringToken × Node)} {tail : Tail}
    (h : tail.skipMembers ≠ .ok ()) : (Node.object kvs tail).skip ≠ .ok () :=
  fun hskip => h (skip_object_eq_ok.mp hskip).2

theorem skip_noColon_ne_ok {key : StringToken} {next : Option Lexeme} :
    (Tail.noColon key next).skipMembers ≠ .ok () :=
  fun hskip => refuse_ne_ok (bind_unit_eq_ok.mp hskip).2

/-- A node in which nothing is missing can be skipped. -/
theorem skip_of_isWhole {x : Node} (h : x.IsWhole) : x.skip = .ok () := by
  induction h with
  | leaf hl => exact skip_leaf_eq_ok.mpr hl
  | list _ ih => exact skip_list_eq_ok.mpr ⟨ih, rfl⟩
  | object hkeys _ ih => exact skip_object_eq_ok.mpr ⟨fun kv hkv => ⟨hkeys kv hkv, ih kv hkv⟩, rfl⟩

/-! ## Lexemes that are read -/

/-- The first lexeme of a node closes no list. -/
theorem lexemes_cons {x : Node} (h : x.IsWhole) :
    ∃ l ls, x.lexemes = l :: ls ∧ l ≠ .closeList := by
  cases h with
  | @leaf l hl =>
      refine ⟨l, [], by rw [Node.lexemes], ?_⟩
      rintro rfl
      cases hl
  | @list xs _ =>
      cases xs with
      | nil => exact ⟨_, _, by rw [Node.lexemes], by simp⟩
      | cons x xs => exact ⟨_, _, by rw [Node.lexemes], by simp⟩
  | @object kvs _ _ =>
      cases kvs with
      | nil => exact ⟨_, _, by rw [Node.lexemes], by simp⟩
      | cons kv kvs => exact ⟨_, _, by rw [Node.lexemes], by simp⟩

namespace Reader

/-- Takes in lexemes one after another. -/
abbrev steps (r : Reader) (ls : List Lexeme) : Reader :=
  ls.foldl step r

theorem step_listOpened {l : Lexeme} (h : l ≠ .closeList) (frames : List Frame) :
    step (.listOpened frames) l = step (.value (.item [] :: frames)) l := by
  cases l with
  | closeList => exact absurd rfl h
  | _ => rfl

theorem step_itemComma {l : Lexeme} (h : l ≠ .closeList) (items : List Node)
    (frames : List Frame) :
    step (.itemComma items frames) l = step (.value (.item items :: frames)) l := by
  cases l with
  | closeList => exact absurd rfl h
  | _ => rfl

/-- The value that opens a list is read as any other value. -/
theorem steps_listOpened {x : Node} (h : x.IsWhole) (ls : List Lexeme) (frames : List Frame) :
    steps (.listOpened frames) (x.lexemes ++ ls) =
      steps (.value (.item [] :: frames)) (x.lexemes ++ ls) := by
  obtain ⟨l, rest, hlexemes, hopens⟩ := lexemes_cons h
  rw [hlexemes, List.cons_append, steps, steps, List.foldl_cons, List.foldl_cons,
    step_listOpened hopens]

theorem steps_itemComma {x : Node} (h : x.IsWhole) (ls : List Lexeme) (items : List Node)
    (frames : List Frame) :
    steps (.itemComma items frames) (x.lexemes ++ ls) =
      steps (.value (.item items :: frames)) (x.lexemes ++ ls) := by
  obtain ⟨l, rest, hlexemes, hopens⟩ := lexemes_cons h
  rw [hlexemes, List.cons_append, steps, steps, List.foldl_cons, List.foldl_cons,
    step_itemComma hopens]

theorem begin_isScalar {l : Lexeme} (h : l.isScalar = true) (frames : List Frame) :
    begin frames l = plug (.leaf l) frames := by
  cases l with
  | string token =>
      have hclosed : token.ending = .closed := by simpa [Lexeme.isScalar] using h
      rw [begin, if_pos hclosed]
  | null => rfl
  | bool b => rfl
  | number n => rfl
  | _ => cases h

/-- Whether a node is read wherever a value may stand. -/
def Reads (x : Node) : Prop :=
  ∀ ls frames, steps (.value frames) (x.lexemes ++ ls) = steps (plug x frames) ls

theorem steps_laterItems {xs : List Node} (hwhole : ∀ x ∈ xs, x.IsWhole)
    (hreads : ∀ x ∈ xs, Reads x) (ls : List Lexeme) (items : List Node) (frames : List Frame) :
    steps (.itemRead items frames) (laterItems xs ++ ls) =
      steps (plug (.list (items.reverse ++ xs) .closed) frames) ls := by
  induction xs generalizing items with
  | nil =>
      rw [laterItems, List.append_nil]
      rfl
  | cons x xs ih =>
      rw [List.forall_mem_cons] at hwhole hreads
      have hcomma : steps (.itemRead items frames) (laterItems (x :: xs) ++ ls) =
          steps (.itemComma items frames) (x.lexemes ++ (laterItems xs ++ ls)) := by
        rw [laterItems, List.cons_append, List.append_assoc]
        rfl
      rw [hcomma, steps_itemComma hwhole.1, hreads.1, plug, ih hwhole.2 hreads.2]
      simp only [List.reverse_cons, List.append_assoc, List.singleton_append]

theorem step_string {key : StringToken} (h : key.ending = .closed)
    (members : List (StringToken × Node)) (frames : List Frame) :
    Reader.key members frames (.string key) = .keyRead members key frames :=
  if_pos h

theorem steps_laterMembers {kvs : List (StringToken × Node)}
    (hkeys : ∀ kv ∈ kvs, kv.1.ending = .closed) (hreads : ∀ kv ∈ kvs, Reads kv.2)
    (ls : List Lexeme) (members : List (StringToken × Node)) (frames : List Frame) :
    steps (.memberRead members frames) (laterMembers kvs ++ ls) =
      steps (plug (.object (members.reverse ++ kvs) .closed) frames) ls := by
  induction kvs generalizing members with
  | nil =>
      rw [laterMembers, List.append_nil]
      rfl
  | cons kv kvs ih =>
      obtain ⟨key, x⟩ := kv
      rw [List.forall_mem_cons] at hkeys hreads
      have hcomma : steps (.memberRead members frames) (laterMembers ((key, x) :: kvs) ++ ls) =
          steps (.value (.member members key :: frames))
            (x.lexemes ++ (laterMembers kvs ++ ls)) := by
        rw [laterMembers, List.cons_append, List.cons_append, List.cons_append,
          List.append_assoc]
        simp only [steps, List.foldl_cons, step, step_string hkeys.1]
      rw [hcomma, hreads.1, plug, ih hkeys.2 hreads.2]
      simp only [List.reverse_cons, List.append_assoc, List.singleton_append]

/-- The lexemes of a node end with the node in its place. -/
theorem reads_of_isWhole {x : Node} (h : x.IsWhole) : Reads x := by
  induction h with
  | @leaf l hl =>
      intro ls frames
      rw [Node.lexemes]
      exact congrArg (steps · ls) (begin_isScalar hl frames)
  | @list xs hwhole ih =>
      intro ls frames
      cases xs with
      | nil =>
          rw [Node.lexemes]
          rfl
      | cons x xs =>
          rw [List.forall_mem_cons] at hwhole ih
          have hopened : steps (.value frames) ((Node.list (x :: xs) .closed).lexemes ++ ls) =
              steps (.listOpened frames) (x.lexemes ++ (laterItems xs ++ ls)) := by
            rw [Node.lexemes, List.cons_append, List.append_assoc]
            rfl
          rw [hopened, steps_listOpened hwhole.1, ih.1, plug, steps_laterItems hwhole.2 ih.2]
          rfl
  | @object kvs hkeys _ ih =>
      intro ls frames
      cases kvs with
      | nil =>
          rw [Node.lexemes]
          rfl
      | cons kv kvs =>
          obtain ⟨key, x⟩ := kv
          rw [List.forall_mem_cons] at hkeys ih
          have hopened : steps (.value frames)
              ((Node.object ((key, x) :: kvs) .closed).lexemes ++ ls) =
                steps (.value (.member [] key :: frames))
                  (x.lexemes ++ (laterMembers kvs ++ ls)) := by
            rw [Node.lexemes, List.cons_append, List.cons_append, List.cons_append,
              List.append_assoc]
            simp only [steps, List.foldl_cons, step, begin, step_string hkeys.1]
          rw [hopened, ih.1, plug, steps_laterMembers hkeys.2 ih.2]
          rfl

end Reader

/-! ## Lexemes that have been read -/

/-- The lexemes of a list before its next item; the items are given last first. -/
def itemsBefore : List Node → List Lexeme
  | [] => [.openList]
  | x :: before => itemsBefore before ++ (x.lexemes ++ [.comma])

/-- The lexemes of an object before its next member; the members are given last first. -/
def membersBefore : List (StringToken × Node) → List Lexeme
  | [] => [.openObject]
  | (key, x) :: before =>
    membersBefore before ++ (.string key :: .colon :: (x.lexemes ++ [.comma]))

theorem itemsBefore_append (before : List Node) (x : Node) (after : List Node) (tail : Tail) :
    itemsBefore before ++ (x.lexemes ++ laterItems after) =
      (Node.list (before.reverse ++ x :: after) tail).lexemes := by
  induction before generalizing x after with
  | nil => rw [itemsBefore, List.reverse_nil, List.nil_append, Node.lexemes, List.singleton_append]
  | cons y before ih =>
      have hrest := ih y (x :: after)
      rw [laterItems] at hrest
      rw [List.reverse_cons, List.append_assoc, List.singleton_append, ← hrest, itemsBefore]
      simp only [List.append_assoc, List.singleton_append]

theorem membersBefore_append (before : List (StringToken × Node)) (key : StringToken) (x : Node)
    (after : List (StringToken × Node)) (tail : Tail) :
    membersBefore before ++ (.string key :: .colon :: (x.lexemes ++ laterMembers after)) =
      (Node.object (before.reverse ++ (key, x) :: after) tail).lexemes := by
  induction before generalizing key x after with
  | nil =>
      rw [membersBefore, List.reverse_nil, List.nil_append, Node.lexemes, List.singleton_append]
  | cons kv before ih =>
      obtain ⟨key', y⟩ := kv
      have hrest := ih key' y ((key, x) :: after)
      rw [laterMembers] at hrest
      rw [List.reverse_cons, List.append_assoc, List.singleton_append, ← hrest, membersBefore]
      simp only [List.append_assoc, List.cons_append, List.nil_append]

namespace Frame

/-- The lexemes of a list or an object up to the value in hand. -/
def lexemes : Frame → List Lexeme
  | .item before => itemsBefore before
  | .member before key => membersBefore before ++ [.string key, .colon]

/-- Whether nothing is missing up to the value in hand. -/
def IsWhole : Frame → Prop
  | .item before => ∀ x ∈ before, x.IsWhole
  | .member before key =>
    (∀ kv ∈ before, kv.1.ending = .closed) ∧ (∀ kv ∈ before, kv.2.IsWhole) ∧ key.ending = .closed

end Frame

/-- The lexemes up to the value in hand. -/
def framesLexemes : List Frame → List Lexeme
  | [] => []
  | f :: frames => framesLexemes frames ++ f.lexemes

namespace Reader

/-- What a reader has taken in: all of it is in its frames, or a fault has been met or something
that follows the value. -/
def Took (ls : List Lexeme) : Reader → Prop
  | .value frames => (∀ f ∈ frames, f.IsWhole) ∧ ls = framesLexemes frames
  | .listOpened frames =>
    (∀ f ∈ frames, f.IsWhole) ∧ ls = framesLexemes (.item [] :: frames)
  | .itemRead items frames => ∃ x before, items = x :: before ∧ x.IsWhole ∧
    (∀ f ∈ Frame.item before :: frames, f.IsWhole) ∧
      ls = framesLexemes (.item before :: frames) ++ x.lexemes
  | .itemComma items frames =>
    (∀ f ∈ Frame.item items :: frames, f.IsWhole) ∧ ls = framesLexemes (.item items :: frames)
  | .objectOpened frames =>
    (∀ f ∈ frames, f.IsWhole) ∧ ls = framesLexemes frames ++ membersBefore []
  | .memberRead members frames => ∃ key x before, members = (key, x) :: before ∧ x.IsWhole ∧
    (∀ f ∈ Frame.member before key :: frames, f.IsWhole) ∧
      ls = framesLexemes (.member before key :: frames) ++ x.lexemes
  | .memberComma members frames =>
    (∀ kv ∈ members, kv.1.ending = .closed) ∧ (∀ kv ∈ members, kv.2.IsWhole) ∧
      (∀ f ∈ frames, f.IsWhole) ∧ ls = framesLexemes frames ++ membersBefore members
  | .keyRead members key frames => (∀ f ∈ Frame.member members key :: frames, f.IsWhole) ∧
    ls = framesLexemes frames ++ (membersBefore members ++ [.string key])
  | .complete root => root.IsWhole ∧ ls = root.lexemes
  | .stopped document => document.followed = true ∨ document.root.skip ≠ .ok ()

theorem took_plug {x : Node} (hx : x.IsWhole) {frames : List Frame}
    (hframes : ∀ f ∈ frames, f.IsWhole) :
    Took (framesLexemes frames ++ x.lexemes) (plug x frames) := by
  cases frames with
  | nil => exact ⟨hx, rfl⟩
  | cons f frames =>
      cases f with
      | item before => exact ⟨x, before, rfl, hx, hframes, rfl⟩
      | member before key => exact ⟨key, x, before, rfl, hx, hframes, rfl⟩

/-- A fault in its place is a fault of the whole node. -/
theorem skip_abandon {v : Node} (hv : v.skip ≠ .ok ()) (frames : List Frame) :
    (abandon v frames).skip ≠ .ok () := by
  induction frames generalizing v with
  | nil => exact hv
  | cons f frames ih =>
      cases f with
      | item before =>
          refine ih fun hskip => hv ?_
          exact (skip_list_eq_ok.mp hskip).1 v (by simp)
      | member before key =>
          refine ih fun hskip => hv ?_
          exact ((skip_object_eq_ok.mp hskip).1 (key, v) (by simp)).2

theorem took_stop {v : Node} (hv : v.skip ≠ .ok ()) (ls : List Lexeme) (frames : List Frame) :
    Took ls (stop v frames) :=
  .inr (skip_abandon hv frames)

theorem took_begin {frames : List Frame} (hframes : ∀ f ∈ frames, f.IsWhole) (l : Lexeme) :
    Took (framesLexemes frames ++ [l]) (begin frames l) := by
  by_cases hl : l.isScalar = true
  · rw [begin_isScalar hl]
    have htook := took_plug (.leaf hl) hframes
    rwa [Node.lexemes] at htook
  · have hskip : (Node.leaf l).skip ≠ .ok () := mt skip_leaf_eq_ok.mp hl
    cases l with
    | openList => exact ⟨hframes, rfl⟩
    | openObject => exact ⟨hframes, rfl⟩
    | null => exact absurd rfl hl
    | bool b => exact absurd rfl hl
    | number n => exact absurd rfl hl
    | string token =>
        have hopen : token.ending ≠ .closed := by simpa [Lexeme.isScalar] using hl
        rw [begin, if_neg hopen]
        exact took_stop hskip _ _
    | _ => exact took_stop hskip _ _

theorem took_key {members : List (StringToken × Node)} {frames : List Frame}
    (hkeys : ∀ kv ∈ members, kv.1.ending = .closed) (hvalues : ∀ kv ∈ members, kv.2.IsWhole)
    (hframes : ∀ f ∈ frames, f.IsWhole) (l : Lexeme) :
    Took (framesLexemes frames ++ membersBefore members ++ [l])
      (Reader.key members frames l) := by
  cases l with
  | string token =>
      by_cases hclosed : token.ending = .closed
      · rw [step_string hclosed]
        refine ⟨List.forall_mem_cons.mpr ⟨⟨hkeys, hvalues, hclosed⟩, hframes⟩, ?_⟩
        rw [List.append_assoc]
      · rw [Reader.key, if_neg hclosed]
        have hskip : (Tail.brokenKey token).skipMembers ≠ .ok () := mt skip_eq_ok.mp hclosed
        apply took_stop
        exact skip_object_ne_ok hskip
  | _ =>
      apply took_stop
      exact skip_object_ne_ok refuse_ne_ok

/-- What a reader has taken in it keeps when it takes in one more lexeme. -/
theorem took_step {r : Reader} {ls : List Lexeme} (h : Took ls r) (l : Lexeme) :
    Took (ls ++ [l]) (step r l) := by
  cases r with
  | value frames =>
      obtain ⟨hframes, rfl⟩ := h
      exact took_begin hframes l
  | listOpened frames =>
      obtain ⟨hframes, rfl⟩ := h
      by_cases hl : l = .closeList
      · subst hl
        have htook := took_plug (x := .list [] .closed) (.list nofun) hframes
        rw [Node.lexemes] at htook
        simpa [framesLexemes, Frame.lexemes, itemsBefore, step] using htook
      · rw [step_listOpened hl]
        have hfirst : (Frame.item []).IsWhole := List.forall_mem_nil _
        exact took_begin (List.forall_mem_cons.mpr ⟨hfirst, hframes⟩) l
  | itemRead items frames =>
      obtain ⟨x, before, rfl, hx, hwhole, rfl⟩ := h
      rw [List.forall_mem_cons] at hwhole
      have hitems : ∀ y ∈ x :: before, y.IsWhole := List.forall_mem_cons.mpr ⟨hx, hwhole.1⟩
      cases l with
      | comma =>
          refine ⟨List.forall_mem_cons.mpr ⟨hitems, hwhole.2⟩, ?_⟩
          simp only [framesLexemes, Frame.lexemes, itemsBefore, List.append_assoc]
      | closeList =>
          have hlexemes : (Node.list (x :: before).reverse .closed).lexemes =
              itemsBefore before ++ (x.lexemes ++ [.closeList]) := by
            rw [List.reverse_cons, ← itemsBefore_append, laterItems]
          have hlist : (Node.list (x :: before).reverse .closed).IsWhole :=
            .list fun y hy => hitems y (List.mem_reverse.mp hy)
          have htook := took_plug hlist hwhole.2
          rw [hlexemes] at htook
          simpa only [framesLexemes, Frame.lexemes, List.append_assoc, step] using htook
      | _ =>
          apply took_stop
          exact skip_list_ne_ok refuse_ne_ok
  | itemComma items frames =>
      obtain ⟨hwhole, rfl⟩ := h
      by_cases hl : l = .closeList
      · subst hl
        apply took_stop
        exact skip_list_ne_ok refuse_ne_ok
      · rw [step_itemComma hl]
        exact took_begin hwhole l
  | objectOpened frames =>
      obtain ⟨hframes, rfl⟩ := h
      by_cases hl : l = .closeObject
      · subst hl
        have htook := took_plug (x := .object [] .closed) (.object nofun nofun) hframes
        rw [Node.lexemes] at htook
        rwa [List.append_assoc]
      · have hstep : step (.objectOpened frames) l = Reader.key [] frames l := by
          cases l with
          | closeObject => exact absurd rfl hl
          | _ => rfl
        rw [hstep]
        exact took_key (List.forall_mem_nil _) (List.forall_mem_nil _) hframes l
  | memberRead members frames =>
      obtain ⟨key, x, before, rfl, hx, hwhole, rfl⟩ := h
      rw [List.forall_mem_cons] at hwhole
      obtain ⟨⟨hkeys, hvalues, hkey⟩, hframes⟩ := hwhole
      have hkeys' : ∀ kv ∈ (key, x) :: before, kv.1.ending = .closed :=
        List.forall_mem_cons.mpr ⟨hkey, hkeys⟩
      have hvalues' : ∀ kv ∈ (key, x) :: before, kv.2.IsWhole :=
        List.forall_mem_cons.mpr ⟨hx, hvalues⟩
      cases l with
      | comma =>
          refine ⟨hkeys', hvalues', hframes, ?_⟩
          simp only [framesLexemes, Frame.lexemes, membersBefore, List.append_assoc,
            List.cons_append, List.nil_append]
      | closeObject =>
          have hlexemes : (Node.object ((key, x) :: before).reverse .closed).lexemes =
              membersBefore before ++
                (.string key :: .colon :: (x.lexemes ++ [.closeObject])) := by
            rw [List.reverse_cons, ← membersBefore_append, laterMembers]
          have hobject : (Node.object ((key, x) :: before).reverse .closed).IsWhole :=
            .object (fun kv hkv => hkeys' kv (List.mem_reverse.mp hkv))
              fun kv hkv => hvalues' kv (List.mem_reverse.mp hkv)
          have htook := took_plug hobject hframes
          rw [hlexemes] at htook
          simpa only [framesLexemes, Frame.lexemes, List.append_assoc, List.cons_append,
            List.nil_append, step] using htook
      | _ =>
          apply took_stop
          exact skip_object_ne_ok refuse_ne_ok
  | memberComma members frames =>
      obtain ⟨hkeys, hvalues, hframes, rfl⟩ := h
      by_cases hl : l = .closeObject
      · subst hl
        apply took_stop
        exact skip_object_ne_ok refuse_ne_ok
      · have hstep : step (.memberComma members frames) l = Reader.key members frames l := by
          cases l with
          | closeObject => exact absurd rfl hl
          | _ => rfl
        rw [hstep]
        exact took_key hkeys hvalues hframes l
  | keyRead members key frames =>
      obtain ⟨hwhole, rfl⟩ := h
      cases l with
      | colon =>
          refine ⟨hwhole, ?_⟩
          simp only [framesLexemes, Frame.lexemes, List.append_assoc, List.cons_append,
            List.nil_append]
      | _ =>
          apply took_stop
          exact skip_object_ne_ok skip_noColon_ne_ok
  | complete root => exact .inl rfl
  | stopped document => exact h

theorem took_steps {r : Reader} {ls : List Lexeme} (h : Took ls r) (more : List Lexeme) :
    Took (ls ++ more) (steps r more) := by
  induction more generalizing r ls with
  | nil => rwa [List.append_nil]
  | cons l more ih =>
      have hrest := ih (took_step h l)
      rwa [List.append_assoc, List.singleton_append] at hrest

/-- A text that ends with its value has been taken in as a whole. -/
theorem took_finish {r : Reader} {ls : List Lexeme} (h : Took ls r)
    (hfollowed : r.finish.followed = false) (hskip : r.finish.root.skip = .ok ()) :
    r.finish.root.IsWhole ∧ ls = r.finish.root.lexemes := by
  cases r with
  | complete root => exact h
  | stopped document =>
      rcases h with hmore | hfault
      · rw [finish, hmore] at hfollowed
        cases hfollowed
      · exact absurd hskip hfault
  | value frames =>
      refine absurd hskip (skip_abandon ?_ frames)
      exact refuse_ne_ok
  | listOpened _ | itemRead _ _ | itemComma _ _ =>
      refine absurd hskip (skip_abandon ?_ _)
      exact skip_list_ne_ok refuse_ne_ok
  | objectOpened _ | memberRead _ _ | memberComma _ _ =>
      refine absurd hskip (skip_abandon ?_ _)
      exact skip_object_ne_ok refuse_ne_ok
  | keyRead _ _ _ =>
      refine absurd hskip (skip_abandon ?_ _)
      exact skip_object_ne_ok skip_noColon_ne_ok

end Reader

/-- Lexemes nest into a node that can be skipped, with nothing behind it, if they are the lexemes
of this node and nothing is missing in it. -/
theorem ofLexemes_eq_iff {ls : List Lexeme} {x : Node} :
    Document.ofLexemes ls = ⟨x, false⟩ ∧ x.skip = .ok () ↔ x.IsWhole ∧ ls = x.lexemes := by
  constructor
  · rintro ⟨hdocument, hskip⟩
    have hnone : Reader.Took [] (.value []) := ⟨nofun, rfl⟩
    have htook : Reader.Took ls (Reader.steps (.value []) ls) := Reader.took_steps hnone ls
    have hfinish : (Reader.steps (.value []) ls).finish = ⟨x, false⟩ := hdocument
    have hwhole := Reader.took_finish htook (by rw [hfinish]) (by rw [hfinish]; exact hskip)
    rwa [hfinish] at hwhole
  · rintro ⟨hwhole, rfl⟩
    have hreads := Reader.reads_of_isWhole hwhole [] []
    rw [List.append_nil] at hreads
    exact ⟨congrArg Reader.finish hreads, skip_of_isWhole hwhole⟩

/-! ## Lexemes that are well formed -/

theorem isSound_string {token : StringToken} (h : token.ending = .closed) :
    (Lexeme.string token).isSound = true := by
  simp [Lexeme.isSound, Lexeme.isScalar, h]

theorem isSound_laterItems {xs : List Node} (h : ∀ x ∈ xs, ∀ l ∈ x.lexemes, l.isSound = true) :
    ∀ l ∈ laterItems xs, l.isSound = true := by
  induction xs with
  | nil =>
      rw [laterItems_nil, List.forall_mem_singleton]
      rfl
  | cons x xs ih =>
      rw [List.forall_mem_cons] at h
      rw [laterItems_cons, List.forall_mem_cons, List.forall_mem_append]
      exact ⟨rfl, h.1, ih h.2⟩

theorem isSound_laterMembers {kvs : List (StringToken × Node)}
    (hkeys : ∀ kv ∈ kvs, kv.1.ending = .closed)
    (hvalues : ∀ kv ∈ kvs, ∀ l ∈ kv.2.lexemes, l.isSound = true) :
    ∀ l ∈ laterMembers kvs, l.isSound = true := by
  induction kvs with
  | nil =>
      rw [laterMembers_nil, List.forall_mem_singleton]
      rfl
  | cons kv kvs ih =>
      rw [List.forall_mem_cons] at hkeys hvalues
      rw [laterMembers_cons, List.forall_mem_cons, List.forall_mem_append, List.forall_mem_cons,
        List.forall_mem_cons]
      exact ⟨rfl, ⟨isSound_string hkeys.1, rfl, hvalues.1⟩, ih hkeys.2 hvalues.2⟩

/-- All lexemes of a node in which nothing is missing are well formed. -/
theorem isSound_lexemes {x : Node} (h : x.IsWhole) : ∀ l ∈ x.lexemes, l.isSound = true := by
  induction h with
  | @leaf l hl =>
      rw [Node.lexemes, List.forall_mem_singleton, Lexeme.isSound, hl, Bool.or_true]
  | @list xs _ ih =>
      cases xs with
      | nil =>
          rw [Node.lexemes, List.forall_mem_cons, List.forall_mem_singleton]
          exact ⟨rfl, rfl⟩
      | cons x xs =>
          rw [List.forall_mem_cons] at ih
          rw [Node.lexemes, List.forall_mem_cons, List.forall_mem_append]
          exact ⟨rfl, ih.1, isSound_laterItems ih.2⟩
  | @object kvs hkeys _ ih =>
      cases kvs with
      | nil =>
          rw [Node.lexemes, List.forall_mem_cons, List.forall_mem_singleton]
          exact ⟨rfl, rfl⟩
      | cons kv kvs =>
          rw [List.forall_mem_cons] at hkeys ih
          rw [Node.lexemes, List.forall_mem_cons, List.forall_mem_cons, List.forall_mem_cons,
            List.forall_mem_append]
          exact ⟨rfl, isSound_string hkeys.1, rfl, ih.1, isSound_laterMembers hkeys.2 ih.2⟩

end Json
end SearchPolling
