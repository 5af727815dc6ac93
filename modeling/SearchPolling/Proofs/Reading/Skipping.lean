import SearchPolling.Proofs.Reading.Fields

/-!
# What is read could have been skipped

A decoder looks at everything that a reader looks at who only skips the value: where it reads a
value, nothing is missing that the grammar asks for.  This is shown for the types that records are
made of, and for records.
-/

namespace SearchPolling
namespace Json

/-- What is read as a truth value, or as a number, could have been skipped. -/
theorem skip_of_bool {ctx : Context} {x : Node} {b : Bool} (h : Decoder.bool ctx x = .ok b) :
    x.skip = .ok () := by
  rw [Decoder.bool.eq_def] at h
  split at h
  · rfl
  · exact absurd h unexpected_ne_ok

theorem exists_of_nat {ctx : Context} {x : Node} {k : UInt64} (h : Decoder.nat ctx x = .ok k) :
    ∃ n : NumberLiteral, x = .leaf (.number n) ∧ n.value = .ok (.natural k) := by
  obtain ⟨number, hnumber, h⟩ := bind_eq_ok.mp h
  rw [Decoder.number.eq_def] at hnumber
  split at hnumber
  · next n =>
      refine ⟨n, rfl, ?_⟩
      cases number with
      | natural k' =>
          obtain rfl := Except.ok.inj h
          exact mapError_eq_ok.mp hnumber
      | negative _ => cases h
      | real _ => cases h
  · exact absurd hnumber unexpected_ne_ok

theorem skip_of_nat {ctx : Context} {x : Node} {k : UInt64} (h : Decoder.nat ctx x = .ok k) :
    x.skip = .ok () := by
  obtain ⟨n, rfl, -⟩ := exists_of_nat h
  rfl

theorem closed_of_decode {key : StringToken} {name : String} (h : key.decode = .ok name) :
    key.ending = .closed := by
  by_cases hclosed : key.ending = .closed
  · exact hclosed
  · exact absurd (mapError_eq_ok.mp h) (StringToken.text_ne_ok hclosed name)

namespace Decoder

variable {σ : Type}

/-- Members that are read could have been skipped, if the values could. -/
theorem skip_of_members {onKey : σ → String → Except Fault (Node → Except Fault σ)}
    (hread : ∀ s name read x s', onKey s name = .ok read → read x = .ok s' → x.skip = .ok ())
    {s t : σ} {kvs : List (StringToken × Node)} {tail : Tail}
    (h : members onKey s kvs tail = .ok t) :
    (∀ kv ∈ kvs, kv.1.ending = .closed ∧ kv.2.skip = .ok ()) ∧ tail.skipMembers = .ok () := by
  induction kvs generalizing s with
  | nil =>
      refine ⟨List.forall_mem_nil _, ?_⟩
      rw [members.eq_def] at h
      simp only at h
      split at h
      · obtain ⟨name, -, h⟩ := bind_eq_ok.mp h
        obtain ⟨read, -, h⟩ := bind_eq_ok.mp h
        obtain ⟨hend, -⟩ := bind_unit_eq_ok.mp h
        cases hend
      · obtain ⟨hend, -⟩ := bind_unit_eq_ok.mp h
        cases tail with
        | brokenKey token =>
            obtain ⟨name, hname, -⟩ := map_eq_ok.mp hend
            exact skip_eq_ok.mpr (closed_of_decode hname)
        | noColon key next => cases hend
        | keyless l => cases hend
        | closed => rfl
        | unread => rfl
        | _ => cases hend
  | cons kv kvs ih =>
      rw [members] at h
      obtain ⟨name, hname, h⟩ := bind_eq_ok.mp h
      obtain ⟨read, hkey, h⟩ := bind_eq_ok.mp h
      obtain ⟨s', hs', h⟩ := bind_eq_ok.mp h
      obtain ⟨hrest, htail⟩ := ih h
      refine ⟨List.forall_mem_cons.mpr ⟨⟨closed_of_decode hname, ?_⟩, hrest⟩, htail⟩
      exact hread s name read kv.2 s' hkey (inPart_eq_ok.mp hs')

end Decoder

namespace Shape

variable {σ α : Type} {shape : Shape σ α} {ctx : Context}

/-- The fields of a list that are read could have been skipped. -/
theorem skip_of_positional {fields : List (Field σ)}
    (hfield : ∀ f ∈ fields, ∀ s x s', f.decode s ctx x = .ok s' → x.skip = .ok ()) {s t : σ}
    {i : Nat} {xs : List Node} {tail : Tail}
    (h : shape.positional ctx s i fields xs tail = .ok t) :
    (∀ x ∈ xs, x.skip = .ok ()) ∧ tail.skipItems = .ok () := by
  induction fields generalizing s i xs with
  | nil =>
      rw [positional] at h
      obtain ⟨hend, -⟩ := bind_unit_eq_ok.mp h
      cases xs with
      | nil =>
          refine ⟨List.forall_mem_nil _, ?_⟩
          cases tail <;> first | rfl | cases hend
      | cons x xs =>
          rw [endFields.eq_def] at hend
          simp only at hend
          split at hend <;> cases hend
  | cons f fields ih =>
      rw [List.forall_mem_cons] at hfield
      cases xs with
      | nil =>
          rw [positional] at h
          obtain ⟨hend, -⟩ := bind_unit_eq_ok.mp h
          refine ⟨List.forall_mem_nil _, ?_⟩
          cases tail <;> first | rfl | cases hend
      | cons x xs =>
          rw [positional] at h
          obtain ⟨s', hs', h⟩ := bind_eq_ok.mp h
          obtain ⟨hrest, htail⟩ := ih hfield.2 h
          exact ⟨List.forall_mem_cons.mpr ⟨hfield.1 s x s' (inPart_eq_ok.mp hs'), hrest⟩, htail⟩

/-- What a record is read from could have been skipped, if its fields could. -/
theorem skip_of_draft
    (hfield : ∀ f ∈ shape.fields, ∀ s ctx x s', f.decode s ctx x = .ok s' → x.skip = .ok ())
    {x : Node} {t : σ} (h : shape.draft ctx x = .ok t) : x.skip = .ok () := by
  rw [draft.eq_def] at h
  split at h
  · obtain ⟨ctx', -, h⟩ := bind_eq_ok.mp h
    exact skip_list_eq_ok.mpr (skip_of_positional (fun f hf s => hfield f hf s ctx') h)
  · obtain ⟨ctx', -, h⟩ := bind_eq_ok.mp h
    refine skip_object_eq_ok.mpr (Decoder.skip_of_members (fun s name read x s' hkey hs' => ?_) h)
    rw [onKey] at hkey
    split at hkey
    · obtain rfl := Except.ok.inj hkey
      obtain ⟨_, hskip, -⟩ := map_eq_ok.mp hs'
      exact hskip
    · next f hf =>
        split at hkey
        · cases hkey
        · obtain rfl := Except.ok.inj hkey
          exact hfield f (List.mem_of_find?_eq_some hf) s ctx' x s' hs'
  · exact absurd h unexpected_ne_ok

end Shape

end Json
end SearchPolling
