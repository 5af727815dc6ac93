import SearchPolling.Proofs.Reading.Characters
import SearchPolling.Proofs.Reading.Values
import SearchPolling.Proofs.Resuming.Unattended
import SearchPolling.Proofs.Timers.Periods
import SearchPolling.Settings

/-!
# Launches from settings

The settings that an environment makes have an interval that polling takes as it is: an
environment with another one makes no settings at all.  The size of the sink is not looked
at.  A size of zero counts as one, but above the greatest capacity that a sink may be given
there are sizes of 64 bits that settings may have, and with these a service cannot be launched.
-/

namespace SearchPolling

namespace Settings

open Polling (IsInterval)

/-- An interval that is read has been checked. -/
theorem isInterval_of_interval {env : Environment} {seconds : UInt64}
    (h : interval env = .ok seconds) : IsInterval seconds := by
  rw [interval] at h
  obtain ⟨read, -, hchecked⟩ := Json.bind_eq_ok.mp h
  cases hcheck : Polling.checkInterval read with
  | error e =>
      rw [hcheck] at hchecked
      cases hchecked
  | ok _ =>
      rw [hcheck] at hchecked
      obtain rfl : read = seconds := Except.ok.inj hchecked
      exact Polling.checkInterval_eq_ok.mp hcheck

theorem isInterval_of_ofEnvironment {env : Environment} {s : Settings}
    (h : ofEnvironment env = .ok s) : IsInterval s.defaultInterval := by
  rw [ofEnvironment] at h
  cases hurl : env.text? "SEARCH_API_URL" with
  | none =>
      rw [hurl] at h
      cases h
  | some url =>
      rw [hurl] at h
      obtain ⟨timeout, -, h⟩ := Json.bind_eq_ok.mp h
      obtain ⟨buffer, -, h⟩ := Json.bind_eq_ok.mp h
      obtain ⟨seconds, hseconds, h⟩ := Json.bind_eq_ok.mp h
      obtain rfl := Except.ok.inj h
      exact isInterval_of_interval hseconds

/-- How a service is launched with settings. -/
def launch (s : Settings) (world : Polling.Surroundings) (store : Store.Memory)
    (loaded : Except Store.Failure (Option String)) : Polling.Launch where
  stateKey := s.stateKey
  interval := s.defaultInterval
  capacity := s.resultBuffer.toNat
  measured := true
  world := world
  store := store
  loaded := loaded

end Settings

namespace Polling

variable {κ : Type}

namespace Launch

/-- The service that is launched, if its sink has a capacity that can be asked for. -/
def opened? (l : Launch) : Option (Service κ) :=
  (Sink.ofCapacity? l.capacity).map l.opened.withSink

theorem opened?_eq (l : Launch) :
    (l.opened? : Option (Service κ)) =
      if l.capacity ≤ Sink.greatestCapacity then some l.opened else none := by
  rw [opened?, Sink.ofCapacity?]
  split
  · rw [Option.map_some, ← l.sink_opened]
    rfl
  · rfl

/-- An interval that can be used is neither replaced nor remarked upon. -/
theorem opening_of_isInterval {l : Launch} (h : IsInterval l.interval) :
    (l.opening : Engine.Placed κ).engine.state = .initial l.interval ∧
      (l.opening : Engine.Placed κ).world.notices = l.world.notices := by
  have hstate : State.opening l.interval = ⟨.initial l.interval,
      [.measure (.active false), .measure (.suppressed false),
        .measure (.refreshInterval l.interval)]⟩ := by
    rw [State.opening, checkInterval_eq_ok.mpr h]
    rfl
  rw [opening, Engine.opening, hstate]
  cases hmeasured : l.measured <;>
    constructor <;>
    simp [Engine.carryOut, Engine.performAll, Engine.perform, Surroundings.measure]

end Launch

/-- Settings from an environment have an interval that a service takes as it is, without a
remark.  The size of the sink is in the range that a sink asks for just if it is at most the
greatest capacity.  Whether there is memory for its slots is not asked here. -/
theorem launch_of_settings {env : Environment} {s : Settings}
    (h : Settings.ofEnvironment env = .ok s) (world : Surroundings) (store : Store.Memory)
    (loaded : Except Store.Failure (Option String)) :
    let l := s.launch world store loaded
    IsInterval s.defaultInterval ∧
      (l.opening : Engine.Placed κ).engine.state = .initial s.defaultInterval ∧
      (l.opening : Engine.Placed κ).world.notices = world.notices ∧
      (l.opened? : Option (Service κ)) =
        if s.resultBuffer.toNat ≤ Sink.greatestCapacity then some l.opened else none := by
  intro l
  have hinterval : IsInterval s.defaultInterval := Settings.isInterval_of_ofEnvironment h
  obtain ⟨hstate, hnotices⟩ := Launch.opening_of_isInterval (κ := κ) (l := l) hinterval
  exact ⟨hinterval, hstate, hnotices, l.opened?_eq⟩

/-- An environment that sets the size of the sink. -/
def environmentOfBuffer (text : String) : Environment :=
  (Environment.empty.set "SEARCH_API_URL" (Text.utf8 "http://metron-rest:8082")).set
    "RESULT_BUFFER" (Text.utf8 text)

/-- Every size of 64 bits makes settings. -/
theorem ofEnvironment_environmentOfBuffer {text : String} {n : UInt64}
    (h : Settings.number? text = some n) :
    Settings.ofEnvironment (environmentOfBuffer text) = .ok {
      searchUrl := "http://metron-rest:8082", searchTimeout := 30
      redisUrl := "redis://127.0.0.1/", bindAddress := "0.0.0.0:3000"
      stateKey := standardStateKey, defaultInterval := standardInterval, resultBuffer := n } := by
  have htext (name : String) : (environmentOfBuffer text).text? name =
      if name = "RESULT_BUFFER" then some text
      else if name = "SEARCH_API_URL" then some "http://metron-rest:8082" else none := by
    simp only [Environment.text?, environmentOfBuffer, Environment.set]
    split
    · rw [Option.bind_some, Text.ofUtf8?_utf8]
    · split
      · rw [Option.bind_some, Text.ofUtf8?_utf8]
      · rfl
  simp only [Settings.ofEnvironment, Settings.number, Settings.interval, htext]
  simp [h]
  rfl

theorem launch_of_settings_4096 :
    ∃ s, Settings.ofEnvironment (environmentOfBuffer "4096") = .ok s ∧
      IsInterval s.defaultInterval ∧
      ((s.launch Launch.standard.world .empty (.ok none)).opened? : Option (Service Unit)) =
        some (s.launch Launch.standard.world .empty (.ok none)).opened := by
  have hread : Settings.number? "4096" = some 4096 := by decide
  have hmade := ofEnvironment_environmentOfBuffer hread
  obtain ⟨hinterval, -, -, hopened⟩ :=
    launch_of_settings (κ := Unit) hmade Launch.standard.world .empty (.ok none)
  have hwithin : (4096 : UInt64).toNat ≤ Sink.greatestCapacity := by decide
  exact ⟨_, hmade, hinterval, hopened.trans (if_pos hwithin)⟩

/-- The greatest number of 64 bits can be configured, and cannot be launched with. -/
theorem unlaunchable_settings :
    ∃ s, Settings.ofEnvironment (environmentOfBuffer "18446744073709551615") = .ok s ∧
      ∀ world store loaded,
        ((s.launch world store loaded).opened? : Option (Service Unit)) = none := by
  have hread : Settings.number? "18446744073709551615" = some 18446744073709551615 := by decide
  refine ⟨_, ofEnvironment_environmentOfBuffer hread, ?_⟩
  intro world store loaded
  have hover : ¬(18446744073709551615 : UInt64).toNat ≤ Sink.greatestCapacity := by decide
  rw [Launch.opened?_eq]
  exact if_neg hover

end Polling
end SearchPolling
