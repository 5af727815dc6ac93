import SearchPolling.Proofs.Reading.Dictionaries
import SearchPolling.Proofs.Reading.Nodes

/-!
# Values that are read

A decoder that takes any value makes one whose objects have their keys in ascending order, and
which nests no deeper than decoders go.  Such a value is read back from its own node just if
it stands where its depth is left, and every binary64 number in it is read back from its own
text.
-/

namespace SearchPolling
namespace Json

theorem inPart_eq_ok {α : Type} {s : Segment} {x : Except Fault α} {a : α} :
    inPart s x = .ok a ↔ x = .ok a :=
  mapError_eq_ok

theorem StringToken.decode_ofText (s : String) : (StringToken.ofText s).decode = .ok s := by
  rw [StringToken.decode, StringToken.text_ofText]
  rfl

theorem Number.decode_literal {n : Number} (h : n.isInteger = true) :
    n.literal.decode = .ok n := by
  rw [NumberLiteral.decode, Number.value_literal h]
  rfl

/-! ## Values -/

mutual

/-- How many lists and objects of a value stand inside one another. -/
def depth : Json → Nat
  | .list xs => itemDepth xs + 1
  | .object kvs => memberDepth kvs + 1
  | _ => 0

def itemDepth : List Json → Nat
  | [] => 0
  | x :: xs => max x.depth (itemDepth xs)

def memberDepth : List (String × Json) → Nat
  | [] => 0
  | (_, v) :: rest => max v.depth (memberDepth rest)

end

mutual

/-- The binary64 numbers of a value. -/
def reals : Json → List Float
  | .number (.real x) => [x]
  | .list xs => itemReals xs
  | .object kvs => memberReals kvs
  | _ => []

def itemReals : List Json → List Float
  | [] => []
  | x :: xs => x.reals ++ itemReals xs

def memberReals : List (String × Json) → List Float
  | [] => []
  | (_, v) :: rest => v.reals ++ memberReals rest

end

/-- Numbers that are not written as other numbers: an integer that is kept as a negative one is
negative. -/
def Number.IsNormal : Number → Prop
  | .negative n => n < 0
  | _ => True

mutual

/-- Values as they are read: in all objects the keys ascend. -/
def IsNormal : Json → Prop
  | .number n => n.IsNormal
  | .list xs => AreNormal xs
  | .object kvs => Dictionary.IsSorted kvs ∧ HaveNormal kvs
  | _ => True

def AreNormal : List Json → Prop
  | [] => True
  | x :: xs => x.IsNormal ∧ AreNormal xs

def HaveNormal : List (String × Json) → Prop
  | [] => True
  | (_, v) :: rest => v.IsNormal ∧ HaveNormal rest

end

theorem areNormal_iff {xs : List Json} : AreNormal xs ↔ ∀ x ∈ xs, x.IsNormal := by
  induction xs with
  | nil => simp [AreNormal]
  | cons x xs ih => simp [AreNormal, ih]

theorem haveNormal_iff {kvs : List (String × Json)} :
    HaveNormal kvs ↔ ∀ kv ∈ kvs, kv.2.IsNormal := by
  induction kvs with
  | nil => simp [HaveNormal]
  | cons kv kvs ih => simp [HaveNormal, ih]

theorem itemDepth_le_iff {xs : List Json} {n : Nat} :
    itemDepth xs ≤ n ↔ ∀ x ∈ xs, x.depth ≤ n := by
  induction xs with
  | nil => simp [itemDepth]
  | cons x xs ih => rw [itemDepth, Nat.max_le, ih, List.forall_mem_cons]

theorem memberDepth_le_iff {kvs : List (String × Json)} {n : Nat} :
    memberDepth kvs ≤ n ↔ ∀ kv ∈ kvs, kv.2.depth ≤ n := by
  induction kvs with
  | nil => simp [memberDepth]
  | cons kv kvs ih => rw [memberDepth, Nat.max_le, ih, List.forall_mem_cons]

/-! ## What is read -/

/-- What a literal denotes is a number that is written as such. -/
theorem Number.isNormal_of_value {l : NumberLiteral} {n : Number} (h : l.value = .ok n) :
    n.IsNormal := by
  rw [NumberLiteral.value] at h
  split at h
  · next hinteger =>
      obtain rfl := Except.ok.inj h
      rw [NumberLiteral.integer?] at hinteger
      split at hinteger
      · simp only at hinteger
        split at hinteger
        · split at hinteger
          · next hsize =>
              obtain rfl := Option.some.inj hinteger
              simp only [Bool.and_eq_true, decide_eq_true_eq] at hsize
              have hlt : (Int64.ofInt (-(digitsValue l.whole : Int))).toInt < 0 := by
                rw [Int64.toInt_ofInt_of_le (by omega) (by omega)]
                omega
              exact Int64.lt_iff_toInt_lt.mpr hlt
          · cases hinteger
        · split at hinteger
          · obtain rfl := Option.some.inj hinteger
            trivial
          · cases hinteger
      · cases hinteger
  · split at h
    · obtain rfl := Except.ok.inj h
      trivial
    · cases h

/-- How many levels are left in a context. -/
def Context.levels (ctx : Context) : Nat :=
  127 - ctx.depth

theorem enter_eq_ok {ctx ctx' : Context} :
    ctx.enter = .ok ctx' ↔
      1 ≤ ctx.levels ∧ ctx' = { ctx with depth := ctx.depth + 1 } := by
  rw [Context.enter, Context.levels]
  split
  · next h => simp [eq_comm]; omega
  · next h => simp; omega

theorem levels_of_enter {ctx ctx' : Context} (h : ctx.enter = .ok ctx') :
    ctx'.levels + 1 = ctx.levels := by
  obtain ⟨hleft, rfl⟩ := enter_eq_ok.mp h
  simp only [Context.levels] at hleft ⊢
  omega

theorem isNormal_of_leaf {ctx : Context} {l : Lexeme} {j : Json}
    (h : (Node.leaf l).any ctx = .ok j) : j.IsNormal ∧ j.depth = 0 := by
  cases l with
  | null => exact Except.ok.inj h ▸ ⟨trivial, rfl⟩
  | bool b => exact Except.ok.inj h ▸ ⟨trivial, rfl⟩
  | number n =>
      obtain ⟨m, hm, rfl⟩ := map_eq_ok.mp h
      exact ⟨Number.isNormal_of_value (mapError_eq_ok.mp hm), rfl⟩
  | string token =>
      obtain ⟨s, -, rfl⟩ := map_eq_ok.mp h
      exact ⟨trivial, rfl⟩
  | _ => cases h

mutual

/-- Whatever the node, the value that is read is normal and fits the levels that are left. -/
theorem isNormal_of_any {ctx : Context} (x : Node) {j : Json} (h : x.any ctx = .ok j) :
    j.IsNormal ∧ j.depth ≤ ctx.levels := by
  match x with
  | .absent => cases h
  | .leaf l =>
      obtain ⟨hnormal, hdepth⟩ := isNormal_of_leaf h
      exact ⟨hnormal, hdepth ▸ Nat.zero_le _⟩
  | .list xs tail =>
      rw [Node.any] at h
      obtain ⟨ctx', henter, h⟩ := bind_eq_ok.mp h
      obtain ⟨js, hitems, h⟩ := bind_eq_ok.mp h
      obtain ⟨-, -, h⟩ := bind_eq_ok.mp h
      obtain rfl := Except.ok.inj h
      have hall := isNormal_of_anyItems xs hitems
      have hdepth := itemDepth_le_iff.mpr fun x hx => (hall x hx).2
      refine ⟨areNormal_iff.mpr fun x hx => (hall x hx).1, ?_⟩
      rw [depth, ← levels_of_enter henter]
      exact Nat.succ_le_succ hdepth
  | .object kvs tail =>
      rw [Node.any] at h
      obtain ⟨ctx', henter, h⟩ := bind_eq_ok.mp h
      obtain ⟨js, hmembers, h⟩ := bind_eq_ok.mp h
      obtain rfl : .object (Dictionary.ofBindings js) = j := by
        simp only at h
        split at h
        · obtain ⟨-, -, h⟩ := bind_eq_ok.mp h
          obtain ⟨-, -, h⟩ := bind_eq_ok.mp h
          exact Except.ok.inj h
        · obtain ⟨-, -, h⟩ := bind_eq_ok.mp h
          exact Except.ok.inj h
      have hall := isNormal_of_anyMembers kvs hmembers
      have hbound {kv : String × Json} (hkv : kv ∈ Dictionary.ofBindings js) :=
        hall kv (Dictionary.mem_ofBindings hkv)
      have hdepth := memberDepth_le_iff.mpr fun kv hkv => (hbound hkv).2
      refine ⟨⟨Dictionary.isSorted_ofBindings js,
        haveNormal_iff.mpr fun kv hkv => (hbound hkv).1⟩, ?_⟩
      rw [depth, ← levels_of_enter henter]
      exact Nat.succ_le_succ hdepth

theorem isNormal_of_anyItems {ctx : Context} {i : Nat} (xs : List Node) {js : List Json}
    (h : anyItems ctx i xs = .ok js) : ∀ j ∈ js, j.IsNormal ∧ j.depth ≤ ctx.levels := by
  match xs with
  | [] =>
      rw [anyItems] at h
      obtain rfl := Except.ok.inj h
      simp
  | x :: xs =>
      rw [anyItems] at h
      obtain ⟨j, hfirst, h⟩ := bind_eq_ok.mp h
      obtain ⟨rest, hrest, h⟩ := bind_eq_ok.mp h
      obtain rfl := Except.ok.inj h
      rw [List.forall_mem_cons]
      exact ⟨isNormal_of_any x (inPart_eq_ok.mp hfirst), isNormal_of_anyItems xs hrest⟩

theorem isNormal_of_anyMembers {ctx : Context} (kvs : List (StringToken × Node))
    {js : List (String × Json)} (h : anyMembers ctx kvs = .ok js) :
    ∀ kv ∈ js, kv.2.IsNormal ∧ kv.2.depth ≤ ctx.levels := by
  match kvs with
  | [] =>
      rw [anyMembers] at h
      obtain rfl := Except.ok.inj h
      simp
  | (key, x) :: rest =>
      rw [anyMembers] at h
      obtain ⟨name, -, h⟩ := bind_eq_ok.mp h
      obtain ⟨j, hfirst, h⟩ := bind_eq_ok.mp h
      obtain ⟨more, hrest, h⟩ := bind_eq_ok.mp h
      obtain rfl := Except.ok.inj h
      rw [List.forall_mem_cons]
      exact ⟨isNormal_of_any x (inPart_eq_ok.mp hfirst), isNormal_of_anyMembers rest hrest⟩

end

/-! ## What is read again -/

/-- A binary64 number is read back from its own text.  The text has the fewest digits with which
it could be, but what is read is rounded more than once. -/
def ReadsBack (x : Float) : Prop :=
  Decoder.real.ofString (Json.real x).render = .ok x

instance (x : Float) : Decidable (ReadsBack x) :=
  match h : Decoder.real.ofString (Json.real x).render with
  | .ok y => decidable_of_iff (y = x) (by rw [ReadsBack, h, Except.ok.injEq])
  | .error f => .isFalse (by rw [ReadsBack, h]; exact nofun)

theorem real_node_eq_ok (ctx : Context) {x : Float} :
    Decoder.real ctx (Json.real x).node = .ok x ↔ ReadsBack x := by
  rw [ReadsBack, Decoder.ofString_render]
  rfl

/-- Where a binary64 number stands it is read as any value just if it is read back. -/
theorem any_real_eq_ok (ctx : Context) {x : Float} :
    (Json.real x).node.any ctx = .ok (Json.real x) ↔ ReadsBack x := by
  rw [← real_node_eq_ok ctx]
  by_cases hfinite : x.isFinite = true
  · have hnode : (Json.real x).node = .leaf (.number (Number.real x).literal) :=
      congrArg Node.leaf (if_pos hfinite)
    rw [hnode]
    constructor
    · intro h
      obtain ⟨n, hn, hsame⟩ := map_eq_ok.mp h
      obtain rfl := Json.number.inj hsame
      exact map_eq_ok.mpr ⟨_, hn, rfl⟩
    · intro h
      obtain ⟨n, hn, hsame⟩ := map_eq_ok.mp h
      obtain ⟨y, rfl⟩ := Number.value_real (mapError_eq_ok.mp hn)
      obtain rfl : y = x := hsame
      exact map_eq_ok.mpr ⟨_, hn, rfl⟩
  · have hnode : (Json.real x).node = .leaf .null := congrArg Node.leaf (if_neg hfinite)
    rw [hnode]
    exact ⟨nofun, nofun⟩

theorem any_number_eq_ok (ctx : Context) {n : Number} (hn : n.IsNormal) :
    (Json.number n).node.any ctx = .ok (.number n) ↔
      ∀ x ∈ (Json.number n).reals, ReadsBack x := by
  have hinteger (h : n.isInteger = true) (hlexeme : n.lexeme = .number n.literal) :
      (Json.number n).node.any ctx = .ok (.number n) := by
    rw [node, hlexeme]
    exact map_eq_ok.mpr ⟨n, Number.decode_literal h, rfl⟩
  cases n with
  | natural n => simpa [reals] using hinteger rfl rfl
  | negative n => simpa [reals] using hinteger (decide_eq_true hn) rfl
  | real x =>
      have hreal := @any_real_eq_ok ctx x
      simpa [Json.real, reals] using hreal

/-- The keys of an object are read as they were written. -/
theorem keys_of_anyMembers {ctx : Context} {kvs js : List (String × Json)}
    (h : anyMembers ctx (memberNodes kvs) = .ok js) :
    js.map Prod.fst = kvs.map Prod.fst := by
  induction kvs generalizing js with
  | nil =>
      obtain rfl := Except.ok.inj h
      rfl
  | cons kv kvs ih =>
      rw [memberNodes, anyMembers] at h
      obtain ⟨name, hname, h⟩ := bind_eq_ok.mp h
      obtain ⟨j, -, h⟩ := bind_eq_ok.mp h
      obtain ⟨rest, hrest, h⟩ := bind_eq_ok.mp h
      obtain rfl := Except.ok.inj h
      obtain rfl := Except.ok.inj ((StringToken.decode_ofText kv.1).symm.trans hname)
      rw [List.map_cons, List.map_cons, ih hrest]

theorem exists_enter_iff {ctx : Context} {n : Nat} :
    (∃ ctx', ctx.enter = .ok ctx' ∧ n ≤ ctx'.levels) ↔ n + 1 ≤ ctx.levels := by
  constructor
  · rintro ⟨ctx', henter, hn⟩
    exact levels_of_enter henter ▸ Nat.succ_le_succ hn
  · intro hn
    obtain ⟨ctx', henter⟩ : ∃ ctx', ctx.enter = .ok ctx' :=
      ⟨_, enter_eq_ok.mpr ⟨by omega, rfl⟩⟩
    have hlevels := levels_of_enter henter
    exact ⟨ctx', henter, by omega⟩

theorem anyItems_cons_eq_ok {ctx : Context} {i : Nat} {x : Node} {xs : List Node} {j : Json}
    {js : List Json} :
    anyItems ctx i (x :: xs) = .ok (j :: js) ↔
      x.any ctx = .ok j ∧ anyItems ctx (i + 1) xs = .ok js := by
  rw [anyItems, bind_eq_ok]
  constructor
  · rintro ⟨j', hfirst, h⟩
    obtain ⟨js', hrest, h⟩ := bind_eq_ok.mp h
    obtain ⟨rfl, rfl⟩ := List.cons.inj (Except.ok.inj h)
    exact ⟨inPart_eq_ok.mp hfirst, hrest⟩
  · rintro ⟨hfirst, hrest⟩
    exact ⟨j, inPart_eq_ok.mpr hfirst, bind_eq_ok.mpr ⟨js, hrest, rfl⟩⟩

theorem anyMembers_cons_eq_ok {ctx : Context} {k : String} {x : Node}
    {kvs : List (StringToken × Node)} {j : Json} {js : List (String × Json)} :
    anyMembers ctx ((.ofText k, x) :: kvs) = .ok ((k, j) :: js) ↔
      x.any ctx = .ok j ∧ anyMembers ctx kvs = .ok js := by
  rw [anyMembers, bind_eq_ok]
  constructor
  · rintro ⟨name, -, h⟩
    obtain ⟨j', hfirst, h⟩ := bind_eq_ok.mp h
    obtain ⟨js', hrest, h⟩ := bind_eq_ok.mp h
    obtain ⟨hkv, rfl⟩ := List.cons.inj (Except.ok.inj h)
    obtain ⟨rfl, rfl⟩ := Prod.mk.inj hkv
    exact ⟨inPart_eq_ok.mp hfirst, hrest⟩
  · rintro ⟨hfirst, hrest⟩
    exact ⟨k, StringToken.decode_ofText k, bind_eq_ok.mpr
      ⟨j, inPart_eq_ok.mpr hfirst, bind_eq_ok.mpr ⟨js, hrest, rfl⟩⟩⟩

theorem any_list_eq_ok {ctx : Context} {xs : List Json} :
    (Json.list xs).node.any ctx = .ok (.list xs) ↔
      ∃ ctx', ctx.enter = .ok ctx' ∧ anyItems ctx' 0 (itemNodes xs) = .ok xs := by
  rw [node, Node.any, bind_eq_ok]
  refine exists_congr fun ctx' => and_congr_right fun _ => ?_
  constructor
  · intro h
    obtain ⟨js, hitems, h⟩ := bind_eq_ok.mp h
    obtain ⟨-, -, h⟩ := bind_eq_ok.mp h
    obtain rfl := Json.list.inj (Except.ok.inj h)
    exact hitems
  · intro h
    rw [h]
    rfl

theorem any_object_eq_ok {ctx : Context} {kvs : List (String × Json)}
    (hsorted : Dictionary.IsSorted kvs) :
    (Json.object kvs).node.any ctx = .ok (.object kvs) ↔
      ∃ ctx', ctx.enter = .ok ctx' ∧ anyMembers ctx' (memberNodes kvs) = .ok kvs := by
  rw [node, Node.any, bind_eq_ok]
  refine exists_congr fun ctx' => and_congr_right fun _ => ?_
  constructor
  · intro h
    obtain ⟨js, hmembers, h⟩ := bind_eq_ok.mp h
    obtain ⟨-, -, h⟩ := bind_eq_ok.mp h
    -- The keys that are read ascend as the ones that were written do.
    have hascending : Dictionary.IsSorted js := by
      have hkeys := List.pairwise_map.mpr hsorted
      rw [← keys_of_anyMembers hmembers] at hkeys
      exact List.pairwise_map.mp hkeys
    have hsame := Json.object.inj (Except.ok.inj h)
    rw [Dictionary.ofBindings_of_isSorted hascending] at hsame
    rw [hmembers, hsame]
  · intro h
    rw [h]
    exact congrArg (Except.ok ∘ Json.object) (Dictionary.ofBindings_of_isSorted hsorted)

mutual

/-- A normal value is read back from its node just if it fits the levels that are left, and
all its binary64 numbers are read back. -/
theorem any_node_eq_ok (j : Json) (hj : j.IsNormal) (ctx : Context) :
    j.node.any ctx = .ok j ↔ j.depth ≤ ctx.levels ∧ ∀ x ∈ j.reals, ReadsBack x := by
  match j with
  | .null => simp [node, Node.any, depth, reals]
  | .bool b => simp [node, Node.any, depth, reals]
  | .number n => simpa [depth] using any_number_eq_ok ctx hj
  | .string s =>
      have hs : (Json.string s).node.any ctx = .ok (.string s) :=
        map_eq_ok.mpr ⟨s, StringToken.decode_ofText s, rfl⟩
      simpa [depth, reals] using hs
  | .list xs =>
      rw [any_list_eq_ok, depth, reals, ← exists_enter_iff]
      simp only [anyItems_eq_ok xs hj, ← and_assoc, exists_and_right]
  | .object kvs =>
      rw [any_object_eq_ok hj.1, depth, reals, ← exists_enter_iff]
      simp only [anyMembers_eq_ok kvs hj.2, ← and_assoc, exists_and_right]

theorem anyItems_eq_ok (xs : List Json) (hxs : AreNormal xs) (ctx : Context) (i : Nat) :
    anyItems ctx i (itemNodes xs) = .ok xs ↔
      itemDepth xs ≤ ctx.levels ∧ ∀ x ∈ itemReals xs, ReadsBack x := by
  match xs with
  | [] => simp [itemNodes, anyItems, itemDepth, itemReals]
  | x :: xs =>
      rw [itemNodes, anyItems_cons_eq_ok, any_node_eq_ok x hxs.1, anyItems_eq_ok xs hxs.2,
        itemDepth, itemReals, Nat.max_le, List.forall_mem_append, and_and_and_comm]

theorem anyMembers_eq_ok (kvs : List (String × Json)) (hkvs : HaveNormal kvs) (ctx : Context) :
    anyMembers ctx (memberNodes kvs) = .ok kvs ↔
      memberDepth kvs ≤ ctx.levels ∧ ∀ x ∈ memberReals kvs, ReadsBack x := by
  match kvs with
  | [] => simp [memberNodes, anyMembers, memberDepth, memberReals]
  | (k, v) :: rest =>
      rw [memberNodes, anyMembers_cons_eq_ok, any_node_eq_ok v hkvs.1,
        anyMembers_eq_ok rest hkvs.2, memberDepth, memberReals, Nat.max_le,
        List.forall_mem_append, and_and_and_comm]

end

end Json
end SearchPolling
