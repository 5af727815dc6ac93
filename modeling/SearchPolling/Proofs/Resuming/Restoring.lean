import SearchPolling.Proofs.Reading.RecordTexts
import SearchPolling.Proofs.Timers.Periods

/-!
# Which records are taken over

A launch takes over the record that the store offers: one that the loaded text spells, alone but
for blanks around it, and whose interval can be used.  Polling then has the interval, and goes on
if the record is active.  If the store offers no record, whatever it answered, polling is stopped
with the interval that is configured, or with the standard one in place of one that cannot be
used, and nothing has been set going.
-/

namespace SearchPolling
namespace Polling

open Json (Decoder Node)
open Json.Grammar (IsBody IsName Slot)

theorem ofText_eq_found {text : String} {r : Record} :
    Restored.ofText text = .found r ↔
      (∃ w, Slot w text.toList ∧ r.IsSpelled IsName w) ∧ IsInterval r.refreshInterval := by
  rw [← Record.ofString_eq_ok, ← checkInterval_eq_ok]
  simp only [Restored.ofText]
  cases hread : Record.decoder.ofString text with
  | error f => exact iff_of_false nofun fun h => nomatch h.1
  | ok record =>
      simp only [Except.ok.injEq]
      cases hcheck : record.check with
      | error e =>
          refine iff_of_false nofun ?_
          rintro ⟨rfl, hok⟩
          cases hcheck.symm.trans hok
      | ok _ =>
          constructor
          · intro h
            obtain rfl := Restored.found.inj h
            exact ⟨rfl, hcheck⟩
          · rintro ⟨rfl, -⟩
            rfl

namespace Launch

/-- A record that the store offers: its text spells the record, and the interval can be used.
All names of an object have to be of a given kind. -/
def Offers (Name : List Char → Prop) (l : Launch) (r : Record) : Prop :=
  ∃ text w, l.loaded = .ok (some text) ∧ Slot w text.toList ∧ r.IsSpelled Name w ∧
    IsInterval r.refreshInterval

theorem record?_eq_some {l : Launch} {r : Record} :
    l.found.record? = some r ↔ l.Offers IsName r := by
  have hfound : l.found.record? = some r ↔ l.found = .found r := by
    cases l.found <;> simp [Restored.record?]
  rw [hfound, found]
  constructor
  · intro h
    cases hloaded : l.loaded with
    | error e =>
        rw [hloaded] at h
        cases h
    | ok text =>
        rw [hloaded] at h
        cases text with
        | none => cases h
        | some text =>
            obtain ⟨⟨w, hslot, hspelled⟩, hinterval⟩ := ofText_eq_found.mp h
            exact ⟨text, w, hloaded, hslot, hspelled, hinterval⟩
  · rintro ⟨text, w, hloaded, hslot, hspelled, hinterval⟩
    rw [hloaded]
    exact ofText_eq_found.mpr ⟨⟨w, hslot, hspelled⟩, hinterval⟩

/-- Nothing happens at first where no record is found. -/
theorem course_of_none {κ : Type} {l : Launch} (h : l.found.record? = none) :
    l.course ([] : List (Action κ)) = [] := by
  have hinactive : l.found.isActive = false := by
    rw [Restored.isActive, h]
    rfl
  rw [course, first, hinactive]
  rfl

variable {κ : Type} [DecidableEq κ]

theorem run_of_none {l : Launch} (h : l.found.record? = none) :
    (l.run [] : Service κ) = l.opened := by
  rw [run, course_of_none h]
  rfl

/-- Where no record is found, the configured interval counts if it can be used. -/
theorem record_of_none {l : Launch} (h : l.found.record? = none) :
    (l.run [] : Service κ).state.record =
      ⟨false, if IsInterval l.interval then l.interval else 10⟩ := by
  rw [run_of_none h, record_opened, firstRecord, h]
  by_cases hinterval : IsInterval l.interval
  · rw [checkInterval_eq_ok.mpr hinterval, if_pos hinterval]
    rfl
  · cases hcheck : checkInterval l.interval with
    | error e =>
        rw [if_neg hinterval]
        rfl
    | ok _ => exact absurd (checkInterval_eq_ok.mp hcheck) hinterval

end Launch

variable {κ : Type} [DecidableEq κ]

/-- Whatever the store answers, a launch takes over a record just if the store offers it: the
text that is loaded is a text of the grammar that spells the record, with blanks around it at
most, all names in it denote texts, and the interval can be used.  Polling then has this interval
and goes on if the record is active.  In every other case polling is stopped with the configured
interval, or with the standard one if that cannot be used, and no query has been issued, no timer
armed and no snapshot taken, let alone stored. -/
theorem restores_offered_records (l : Launch) :
    (∀ r, l.found.record? = some r ↔ l.Offers IsName r) ∧
      (∀ r, l.Offers IsName r → (l.run [] : Service κ).state.record = r) ∧
      ((∀ r, ¬l.Offers IsName r) →
        (l.run [] : Service κ).state.record =
            ⟨false, if IsInterval l.interval then l.interval else 10⟩ ∧
          l.issued ([] : List (Action κ)) = [] ∧ (l.run [] : Service κ).flights = [] ∧
          l.armed ([] : List (Action κ)) = [] ∧ (l.run [] : Service κ).timers = [] ∧
          l.taken ([] : List (Action κ)) = [] ∧ l.passed ([] : List (Action κ)) = [] ∧
          (l.run [] : Service κ).waiting = [] ∧ (l.run [] : Service κ).writing = none ∧
          (l.run [] : Service κ).store = l.store) := by
  refine ⟨fun r => Launch.record?_eq_some, ?_, ?_⟩
  · intro r hoffers
    exact Launch.record_of_found (Launch.record?_eq_some.mpr hoffers)
  · intro hnone
    have hfound : l.found.record? = none := by
      rw [Option.eq_none_iff_forall_ne_some]
      intro r hr
      exact hnone r (Launch.record?_eq_some.mp hr)
    have halong {α : Type} (f : Service κ → Action κ → List α) : l.along f [] = [] := by
      rw [Launch.along, Launch.course_of_none hfound]
      rfl
    rw [Launch.record_of_none hfound, Launch.run_of_none hfound]
    exact ⟨rfl, halong _, congrArg View.flights l.view_opened, halong _, l.timers_opened,
      halong _, halong _, rfl, rfl, rfl⟩

/-- A list of an active record is taken over; where the store holds nothing, nothing is. -/
theorem restored_from_list :
    let l : Launch := { Launch.standard with loaded := .ok (some "[true,5]") }
    (l.run [] : Service Unit).state.record = ⟨true, 5⟩ ∧
      (Launch.standard.run [] : Service Unit).state.record = ⟨false, 10⟩ ∧
      Launch.standard.issued ([] : List (Action Unit)) = [] := by
  intro l
  have hlist : Json.Grammar.IsList [Json.Grammar.boolWord true, Decimal.natDigits 5]
      "[true,5]".toList :=
    .some (.cons (Json.slot_self _) (.one (Json.slot_self _)))
  have hoffers : l.Offers IsName ⟨true, 5⟩ :=
    ⟨"[true,5]", _, rfl, Json.slot_self _, .inr hlist, by decide⟩
  have hnone (r : Record) : ¬Launch.standard.Offers IsName r := by
    rintro ⟨text, w, hloaded, -⟩
    cases hloaded
  obtain ⟨-, htaken, -⟩ := restores_offered_records (κ := Unit) l
  obtain ⟨-, -, hstopped⟩ := restores_offered_records (κ := Unit) Launch.standard
  exact ⟨htaken _ hoffers, (hstopped hnone).1, (hstopped hnone).2.1⟩

/-! ## Names that denote no text -/

/-- An object with a third member, whose name is half of a surrogate pair. -/
def halvedText : String :=
  "\x7b\"active\":false,\"refreshInterval\":5,\"\\ud800\":0\x7d"

def halvedMembers : List (Json.StringToken × Node) :=
  [(.ofText "active", .leaf (.bool false)), (.ofText "refreshInterval", (Json.nat 5).node),
    (⟨[.unit 0xD800], .closed⟩, (Json.nat 0).node)]

theorem halved_grammar : ∃ ms, Json.Grammar.IsObject ms halvedText.toList ∧
    List.Forall₂ (Json.MemberOf Node.Writes) halvedMembers ms := by
  have hmembers : List.Forall₂ (Json.MemberOf Node.Writes) halvedMembers
      [(Json.bodyChars "active", Json.Grammar.boolWord false),
        (Json.bodyChars "refreshInterval", (Json.nat 5).chars),
        (Json.halfEscape, (Json.nat 0).chars)] :=
    .cons (.mk ⟨Json.StringToken.partsOf_ofText _, rfl⟩ (.leaf (.bool false)))
      (.cons (.mk ⟨Json.StringToken.partsOf_ofText _, rfl⟩ (Json.nat 5).writes_node)
        (.cons (.mk ⟨Json.partsOf_halfEscape, rfl⟩ (Json.nat 0).writes_node) .nil))
  have hslots (m : Json.Grammar.Member) :
      Json.Grammar.IsMember m (Json.Grammar.quoted m.1 ++ ':' :: m.2) :=
    ⟨_, _, Json.slot_self _, Json.slot_self _, rfl⟩
  refine ⟨_, ?_, hmembers⟩
  exact .some (.cons (hslots _) (.cons (hslots _) (.one (hslots _))))

/-- Such an object belongs to the grammar and holds both fields, but it is not taken over. -/
theorem unrestored_halved_name :
    let l : Launch := { Launch.standard with loaded := .ok (some halvedText) }
    l.Offers IsBody ⟨false, 5⟩ ∧ l.found.record? = none ∧
      (l.run [] : Service Unit).state.record = ⟨false, 10⟩ := by
  intro l
  obtain ⟨ms, hobject, hall⟩ := halved_grammar
  have hrefused : Record.decoder.ofString halvedText =
      .error (Json.Flaw.unfinishedSurrogate).fault := by
    have hwrites : (Node.object halvedMembers .closed).Writes halvedText.toList :=
      .object hall hobject
    have hdocument := (Json.ofString_eq_iff.mpr ⟨_, hwrites, Json.slot_self _⟩).1
    rw [Decoder.ofString, hdocument]
    rfl
  have hfound : l.found.record? = none := by
    have hunreadable : l.found = .unreadable (Json.Flaw.unfinishedSurrogate).fault := by
      simp only [Launch.found, l, Restored.ofLoad, Restored.ofText, hrefused]
    rw [hunreadable]
    rfl
  have hother : ¬Record.HasName ["active", "isActive"] halvedMembers[2] ∧
      ¬Record.HasName ["refreshInterval"] halvedMembers[2] := by
    constructor <;> rintro ⟨name, -, htext⟩ <;> cases htext
  have hactive (names : List String) : Record.HasName names halvedMembers[0] ↔ "active" ∈ names :=
    Record.hasName_iff (Json.StringToken.text_ofText "active")
  have hinterval (names : List String) :
      Record.HasName names halvedMembers[1] ↔ "refreshInterval" ∈ names :=
    Record.hasName_iff (Json.StringToken.text_ofText "refreshInterval")
  refine ⟨⟨halvedText, _, rfl, Json.slot_self _, .inl ⟨ms, hobject, ?_, ?_, ?_⟩, by decide⟩,
    hfound, Launch.record_of_none hfound⟩
  · intro m hm
    obtain ⟨_, -, hkey, hwrites⟩ := Json.exists_of_forall₂ hall hm
    exact ⟨Json.isBody_of_partsOf hkey.1, Json.isValue_iff.mpr ⟨_, hwrites⟩⟩
  · refine (Json.hasOne_forall₂ hall (fun _ _ => Record.hasName_iff_of_memberOf _)
      fun _ _ => @Json.bool_of_memberOf .outermost _ _ _).mp ?_
    refine ⟨[], _, _, rfl, (hactive _).mpr (by decide), rfl, ?_⟩
    exact List.forall_mem_cons.mpr ⟨mt (hinterval _).mp (by decide),
      List.forall_mem_singleton.mpr hother.1⟩
  · refine (Json.hasOne_forall₂ hall (fun _ _ => Record.hasName_iff_of_memberOf _)
      fun _ _ => @Json.nat_of_memberOf .outermost _ _ _).mp ?_
    refine ⟨[_], _, _, rfl, (hinterval _).mpr (by decide), Decoder.nat_node _ 5, ?_⟩
    exact List.forall_mem_cons.mpr ⟨mt (hactive _).mp (by decide),
      List.forall_mem_singleton.mpr hother.2⟩

end Polling
end SearchPolling
