import SearchPolling.Proofs.Service.Launch

/-!
# The ledger of queries

Every query that was issued is either on its way or has been answered, and is so once.
Queries are told apart by their numbers, which are handed out in order.
-/

namespace SearchPolling
namespace Polling

/-- Where all keys differ, an entry is the only one with its key. -/
theorem filter_key_eq_singleton {α β : Type} [DecidableEq β] (key : α → β) {xs : List α}
    (hnodup : (xs.map key).Nodup) {x : α} (hx : x ∈ xs) :
    xs.filter (key · = key x) = [x] := by
  induction xs with
  | nil => cases hx
  | cons y xs ih =>
      rw [List.map_cons, List.nodup_cons] at hnodup
      obtain ⟨hnew, hnodup⟩ := hnodup
      rcases List.mem_cons.mp hx with rfl | hmem
      · have hrest : xs.filter (key · = key x) = [] := by
          rw [List.filter_eq_nil_iff]
          intro y hy hkey
          exact hnew (of_decide_eq_true hkey ▸ List.mem_map_of_mem hy)
        rw [List.filter_cons_of_pos (by simp), hrest]
      · have hne : key y ≠ key x := fun heq => hnew (heq ▸ List.mem_map_of_mem hmem)
        rw [List.filter_cons_of_neg (by simpa using hne), ih hnodup hmem]

/-- The queries issued since a service was opened, those answered, and those on their
way agree.  The first of them has the number after `start`. -/
structure Ledger (start : Nat) (v : View) (issued landed : List Flight) : Prop where
  count : v.issued = start + issued.length
  numbers : issued.map (·.number) = List.range' (start + 1) issued.length
  split : issued.Perm (landed ++ v.flights)

namespace Ledger

variable {start : Nat} {v : View} {issued landed : List Flight}

/-- No two queries have the same number. -/
theorem nodup (h : Ledger start v issued landed) :
    ((landed ++ v.flights).map (·.number)).Nodup := by
  have hnodup : (issued.map (·.number)).Nodup := by
    rw [h.numbers]
    exact List.nodup_range'
  exact (h.split.map _).nodup_iff.mp hnodup

theorem nodup_flights (h : Ledger start v issued landed) :
    (v.flights.map (·.number)).Nodup := by
  have hnodup := h.nodup
  rw [List.map_append, List.nodup_append] at hnodup
  exact hnodup.2.1

/-- The queries are numbered in the order in which they are issued. -/
theorem number_le (h : Ledger start v issued landed) {f : Flight} (hf : f ∈ issued) :
    f.number ≤ v.issued := by
  have hmem : f.number ∈ issued.map (·.number) := List.mem_map_of_mem hf
  rw [h.numbers, List.mem_range'_1] at hmem
  rw [h.count]
  omega

theorem lt_number {earlier later : List Flight} (h : Ledger start v (earlier ++ later) landed)
    {f : Flight} (hf : f ∈ later) : start + earlier.length < f.number := by
  have hnumbers := h.numbers
  rw [List.map_append, List.length_append, ← List.range'_append_1] at hnumbers
  have hlater := (List.append_inj hnumbers (by simp)).2
  have hmem : f.number ∈ later.map (·.number) := List.mem_map_of_mem hf
  rw [hlater, List.mem_range'_1] at hmem
  omega

theorem issue (h : Ledger start v issued landed) {f : Flight} (hf : f.number = v.issued + 1) :
    Ledger start (v.issue f) (issued ++ [f]) landed where
  count := by
    simp only [View.issue, h.count, List.length_append, List.length_singleton]
    omega
  numbers := by
    rw [List.map_append, h.numbers, List.length_append, List.length_singleton,
      List.range'_concat, List.map_singleton, hf, h.count]
    simp only [Nat.one_mul, List.append_cancel_left_eq, List.cons.injEq, and_true]
    omega
  split := by
    simp only [View.issue, ← List.append_assoc]
    exact h.split.append_right [f]

/-- A query with a number of its own is the only one that goes when the queries of its
number go. -/
theorem perm_cons_filter {fs : List Flight} (hnodup : (fs.map (·.number)).Nodup)
    {f : Flight} (hf : f ∈ fs) :
    fs.Perm (f :: fs.filter (·.number ≠ f.number)) := by
  have hsplit := (List.filter_append_perm (fun g => decide (g.number = f.number)) fs).symm
  rw [filter_key_eq_singleton (·.number) hnodup hf] at hsplit
  simpa using hsplit

theorem land (h : Ledger start v issued landed) {f : Flight} (hf : f ∈ v.flights) :
    Ledger start (v.land f) issued (landed ++ [f]) where
  count := h.count
  numbers := h.numbers
  split := by
    have hperm := perm_cons_filter h.nodup_flights hf
    rw [List.append_assoc]
    exact h.split.trans (hperm.append_left landed)

/-- A view with the same queries has the same ledger. -/
theorem of_same (h : Ledger start v issued landed) {w : View}
    (hflights : w.flights = v.flights) (hissued : w.issued = v.issued) :
    Ledger start w issued landed :=
  ⟨hissued ▸ h.count, h.numbers, hflights ▸ h.split⟩

variable {κ : Type} [DecidableEq κ]

theorem step {s : Service κ} (h : Ledger start s.view issued landed) (a : Action κ) :
    Ledger start (s.step a).view (issued ++ (s.marks a).issued)
      (landed ++ (s.marks a).landed) := by
  cases s.turn a with
  | quiet hview hmarks =>
      rw [hview, hmarks]
      simpa only [List.append_nil] using h
  | obsolete generation _ _ hview hmarks =>
      rw [hview, hmarks]
      simp only [List.append_nil]
      exact h.of_same rfl rfl
  | ticked _ _ hview hmarks =>
      rw [hview, hmarks]
      simp only [List.append_nil]
      exact h.issue rfl
  | started _ _ hview hmarks =>
      rw [hview, hmarks]
      simp only [List.append_nil]
      exact (h.issue rfl).of_same rfl rfl
  | stopped hview hmarks =>
      rw [hview, hmarks]
      simp only [List.append_nil]
      exact h.of_same rfl rfl
  | reset _ hview hmarks =>
      rw [hview, hmarks]
      simp only [List.append_nil]
      exact h.of_same rfl rfl
  | answered f hf hview hmarks =>
      rw [hview, hmarks]
      simp only [List.append_nil]
      exact h.land hf

theorem run {s : Service κ} (h : Ledger start s.view issued landed) (as : List (Action κ)) :
    Ledger start (s.run as).view
      (issued ++ Service.along (fun s a => (s.marks a).issued) s as)
      (landed ++ Service.along (fun s a => (s.marks a).landed) s as) := by
  induction as generalizing s issued landed with
  | nil => simpa [Service.along] using h
  | cons a as ih => simpa [Service.along] using ih (h.step a)

end Ledger

variable {κ : Type} [DecidableEq κ]

namespace Launch

omit [DecidableEq κ] in
theorem ledger_opened (l : Launch) :
    Ledger l.world.issued (l.opened : Service κ).view [] [] := by
  rw [view_opened]
  exact ⟨rfl, rfl, .nil⟩

/-- The ledger of a run. -/
theorem ledger (l : Launch) (as : List (Action κ)) :
    Ledger l.world.issued (l.run as).view (l.issued as) (l.landed as) :=
  l.ledger_opened.run (l.course as)

end Launch
end Polling
end SearchPolling
