import SearchPolling.Dictionary

/-!
# Dictionaries and their order

The keys of a dictionary ascend.  Binding a key keeps that order, and a dictionary whose
bindings are bound one after another is the same dictionary again.
-/

namespace SearchPolling
namespace Dictionary

variable {α : Type}

/-- The keys ascend. -/
def IsSorted (d : Dictionary α) : Prop :=
  d.Pairwise fun a b => a.1 < b.1

theorem lt_of_not_lt_of_ne {k l : String} (h : ¬k < l) (hne : k ≠ l) : l < k :=
  String.not_le.mp fun hle => hne (String.le_antisymm hle (String.not_lt.mp h))

theorem mem_put {key : String} {value : α} {d : Dictionary α} {kv : String × α}
    (h : kv ∈ put key value d) : kv = (key, value) ∨ kv ∈ d := by
  induction d with
  | nil => exact .inl (List.mem_singleton.mp h)
  | cons first rest ih =>
      obtain ⟨k, v⟩ := first
      rw [put] at h
      split at h
      · exact List.mem_cons.mp h
      · split at h
        · rcases List.mem_cons.mp h with hnew | hold
          · exact .inl hnew
          · exact .inr (List.mem_cons_of_mem _ hold)
        · rcases List.mem_cons.mp h with rfl | hlater
          · exact .inr List.mem_cons_self
          · exact (ih hlater).imp id (List.mem_cons_of_mem _)

theorem IsSorted.put {d : Dictionary α} (h : d.IsSorted) (key : String) (value : α) :
    (put key value d).IsSorted := by
  induction d with
  | nil => exact List.pairwise_singleton _ _
  | cons first rest ih =>
      obtain ⟨k, v⟩ := first
      obtain ⟨hfirst, hrest⟩ := List.pairwise_cons.mp h
      rw [Dictionary.put]
      split
      · next hlt =>
          refine List.pairwise_cons.mpr ⟨fun kv hkv => ?_, h⟩
          rcases List.mem_cons.mp hkv with rfl | hlater
          · exact hlt
          · exact String.lt_trans hlt (hfirst kv hlater)
      · next hnlt =>
          split
          · next heq =>
              subst heq
              exact List.pairwise_cons.mpr ⟨hfirst, hrest⟩
          · next hne =>
              refine List.pairwise_cons.mpr ⟨fun kv hkv => ?_, ih hrest⟩
              rcases mem_put hkv with rfl | hold
              · exact lt_of_not_lt_of_ne hnlt hne
              · exact hfirst kv hold

/-- A key that comes after all others is bound at the end. -/
theorem put_of_last {key : String} {value : α} {d : Dictionary α}
    (h : (d ++ [(key, value)]).IsSorted) : put key value d = d ++ [(key, value)] := by
  induction d with
  | nil => rfl
  | cons first rest ih =>
      obtain ⟨k, v⟩ := first
      obtain ⟨hfirst, hrest⟩ := List.pairwise_cons.mp h
      have hlt : k < key := hfirst (key, value) (by simp)
      have hnlt : ¬key < k := String.lt_asymm hlt
      have hne : key ≠ k := by
        rintro rfl
        exact String.lt_irrefl key hlt
      rw [put, if_neg hnlt, if_neg hne, ih hrest, List.cons_append]

/-! ## Bindings -/

/-- The dictionary with bindings bound one after another. -/
abbrev bindAll (d : Dictionary α) (bindings : List (String × α)) : Dictionary α :=
  bindings.foldl (fun d kv => put kv.1 kv.2 d) d

theorem bindAll_of_isSorted {d e : Dictionary α} (h : (d ++ e).IsSorted) :
    d.bindAll e = d ++ e := by
  induction e generalizing d with
  | nil => rw [bindAll, List.foldl_nil, List.append_nil]
  | cons kv e ih =>
      have hsplit : d ++ kv :: e = (d ++ [kv]) ++ e := by
        rw [List.append_assoc, List.singleton_append]
      have hnow : put kv.1 kv.2 d = d ++ [kv] :=
        put_of_last ((hsplit ▸ h).sublist (List.sublist_append_left _ _))
      rw [bindAll, List.foldl_cons, hnow, hsplit]
      exact ih (hsplit ▸ h)

/-- What is bound was there or comes from one of the bindings. -/
theorem mem_bindAll {d : Dictionary α} {bindings : List (String × α)} {kv : String × α}
    (h : kv ∈ d.bindAll bindings) : kv ∈ d ∨ kv ∈ bindings := by
  induction bindings generalizing d with
  | nil => exact .inl h
  | cons first bindings ih =>
      rcases ih h with hput | hlater
      · rcases mem_put hput with rfl | hold
        · exact .inr List.mem_cons_self
        · exact .inl hold
      · exact .inr (List.mem_cons_of_mem _ hlater)

theorem IsSorted.bindAll {d : Dictionary α} (h : d.IsSorted) (bindings : List (String × α)) :
    (d.bindAll bindings).IsSorted := by
  induction bindings generalizing d with
  | nil => exact h
  | cons kv bindings ih => exact ih (h.put kv.1 kv.2)

theorem ofBindings_of_isSorted {d : Dictionary α} (h : d.IsSorted) : ofBindings d = d :=
  bindAll_of_isSorted (d := []) h

theorem isSorted_ofBindings (bindings : List (String × α)) : (ofBindings bindings).IsSorted :=
  IsSorted.bindAll (d := []) List.Pairwise.nil bindings

theorem mem_ofBindings {bindings : List (String × α)} {kv : String × α}
    (h : kv ∈ ofBindings bindings) : kv ∈ bindings :=
  (mem_bindAll (d := []) h).resolve_left List.not_mem_nil

end Dictionary
end SearchPolling
