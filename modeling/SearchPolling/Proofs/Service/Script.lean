import Mathlib.Data.List.Induction

/-!
# Runs with the same script

The script of a run is what somebody puts down about it while it goes on: everything that
happens is entered as something, or passed over.  Two runs with the same script differ in
what is passed over, anywhere and as much as one likes, and otherwise agree entry by
entry.  What is to be shown of two such runs is shown by induction on this.
-/

namespace SearchPolling

/-- A rule for putting down what happens. -/
structure Scribe (α ε : Type) where
  script : List α → List ε
  /-- What is entered of what happens after a past, unless it is passed over. -/
  noted? : List α → α → Option ε
  script_nil : script [] = []
  script_concat : ∀ past a, script (past ++ [a]) = script past ++ (noted? past a).toList

namespace Scribe

variable {α ε : Type}

/-- Two runs agree but for what is passed over in each of them. -/
inductive Alike (w : Scribe α ε) : List α → List α → Prop
  | start : Alike w [] []
  | left {as bs : List α} {a : α} (h : Alike w as bs) (ha : w.noted? as a = none) :
      Alike w (as ++ [a]) bs
  | right {as bs : List α} {b : α} (h : Alike w as bs) (hb : w.noted? bs b = none) :
      Alike w as (bs ++ [b])
  | both {as bs : List α} {a b : α} {e : ε} (h : Alike w as bs) (ha : w.noted? as a = some e)
      (hb : w.noted? bs b = some e) : Alike w (as ++ [a]) (bs ++ [b])

variable {w : Scribe α ε} {as bs : List α}

theorem script_concat_of_none {a : α} (ha : w.noted? as a = none) :
    w.script (as ++ [a]) = w.script as := by
  rw [w.script_concat, ha, Option.toList_none, List.append_nil]

theorem script_concat_of_some {a : α} {e : ε} (ha : w.noted? as a = some e) :
    w.script (as ++ [a]) = w.script as ++ [e] := by
  rw [w.script_concat, ha, Option.toList_some]

theorem Alike.script_eq (h : Alike w as bs) : w.script as = w.script bs := by
  induction h with
  | start => rfl
  | left _ ha ih => rw [script_concat_of_none ha, ih]
  | right _ hb ih => rw [script_concat_of_none hb, ih]
  | both _ ha hb ih => rw [script_concat_of_some ha, script_concat_of_some hb, ih]

theorem alike_of_script_eq (h : w.script as = w.script bs) : Alike w as bs := by
  induction as using List.reverseRecOn generalizing bs with
  | nil =>
      induction bs using List.reverseRecOn with
      | nil => exact .start
      | append_singleton bs b ih =>
          rw [w.script_nil, w.script_concat] at h
          obtain ⟨hscript, hentry⟩ := List.append_eq_nil_iff.mp h.symm
          refine .right (ih ?_) (by simpa using hentry)
          rw [w.script_nil, hscript]
  | append_singleton as a ihas =>
      cases ha : w.noted? as a with
      | none =>
          rw [script_concat_of_none ha] at h
          exact .left (ihas h) ha
      | some e =>
          -- The last entry of the one run stands in the other before what is passed over.
          induction bs using List.reverseRecOn with
          | nil =>
              rw [script_concat_of_some ha, w.script_nil] at h
              exact absurd (List.append_eq_nil_iff.mp h).2 (List.cons_ne_nil _ _)
          | append_singleton bs b ihbs =>
              cases hb : w.noted? bs b with
              | none =>
                  rw [script_concat_of_none hb] at h
                  exact .right (ihbs h) hb
              | some e' =>
                  rw [script_concat_of_some ha, script_concat_of_some hb] at h
                  obtain ⟨hscript, hlast⟩ := List.append_inj' h rfl
                  obtain rfl : e = e' := List.singleton_inj.mp hlast
                  exact .both (ihas hscript) ha hb

/-- To every point of a run there corresponds a point of each run with the same script. -/
theorem Alike.exists_prefix (h : Alike w as bs) {before : List α} (hbefore : before <+: as) :
    ∃ before', before' <+: bs ∧ Alike w before before' := by
  induction h with
  | start =>
      rw [List.prefix_nil.mp hbefore]
      exact ⟨[], List.prefix_rfl, .start⟩
  | left h ha ih =>
      rcases List.prefix_concat_iff.mp hbefore with rfl | hearlier
      · exact ⟨_, List.prefix_rfl, .left h ha⟩
      · exact ih hearlier
  | right h hb ih =>
      obtain ⟨before', hprefix, halike⟩ := ih hbefore
      exact ⟨before', hprefix.trans (List.prefix_append _ _), halike⟩
  | both h ha hb ih =>
      rcases List.prefix_concat_iff.mp hbefore with rfl | hearlier
      · exact ⟨_, List.prefix_rfl, .both h ha hb⟩
      · obtain ⟨before', hprefix, halike⟩ := ih hearlier
        exact ⟨before', hprefix.trans (List.prefix_append _ _), halike⟩

end Scribe
end SearchPolling
