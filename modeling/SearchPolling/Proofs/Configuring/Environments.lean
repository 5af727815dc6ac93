import SearchPolling.Proofs.Configuring.Numerals
import SearchPolling.Proofs.Reading.Characters
import SearchPolling.Proofs.Reading.Values
import SearchPolling.Proofs.Timers.Periods

/-!
# Environments that configure the service

Of seven variables one has to be set and three are numbers, one of which is an interval.  An
environment makes settings just if no variable is at fault, and then the settings are what the
variables say.  Otherwise it is told what is wrong with the first variable that is at fault.

A variable whose bytes are no text is like one that is not set, and bindings from elsewhere
fill in the variables that are not set.
-/

namespace SearchPolling

namespace Environment

/-- A variable has a text just if it has the bytes of the text. -/
theorem text?_eq_some_iff {env : Environment} {name text : String} :
    env.text? name = some text ↔ env name = some (Text.utf8 text) := by
  rw [text?, Option.bind_eq_some_iff]
  constructor
  · rintro ⟨bytes, hbytes, htext⟩
    rw [hbytes, Text.ofUtf8?_eq_some_iff.mp htext]
  · intro h
    exact ⟨_, h, Text.ofUtf8?_utf8 text⟩

theorem text?_set (env : Environment) (name value other : String) :
    (env.set name (Text.utf8 value)).text? other =
      if other = name then some value else env.text? other := by
  rw [text?, set]
  split
  · rw [Option.bind_some, Text.ofUtf8?_utf8]
  · rfl

/-- Bindings fill in what has no text. -/
theorem text?_fill (env : Environment) (bindings : List (String × String)) (name : String) :
    (env.fill bindings).text? name = (env.text? name).or (bindings.lookup name) := by
  induction bindings generalizing env with
  | nil => simp [fill]
  | cons binding bindings ih =>
      obtain ⟨bound, value⟩ := binding
      rw [fill]
      by_cases hname : name = bound
      · subst hname
        rw [List.lookup_cons_self]
        split
        · rename_i hset
          obtain ⟨text, htext⟩ := Option.isSome_iff_exists.mp hset
          rw [ih, htext, Option.some_or, Option.some_or]
        · rename_i hunset
          rw [Bool.not_eq_true, Option.isSome_eq_false_iff, Option.isNone_iff_eq_none] at hunset
          rw [ih, text?_set, if_pos rfl, hunset, Option.some_or, Option.none_or]
      · have hlookup : List.lookup name ((bound, value) :: bindings) = bindings.lookup name := by
          rw [List.lookup_cons, beq_eq_false_iff_ne.mpr hname]
        rw [hlookup]
        split
        · exact ih env
        · rw [ih, text?_set, if_neg hname]

end Environment

namespace Settings

open Polling (IsInterval)

/-- The variables that are numbers, in reading order. -/
def numericVariables : List String :=
  ["SEARCH_TIMEOUT_SECS", "RESULT_BUFFER", "POLLING_DEFAULT_INTERVAL_SECS"]

/-- The variables that may be at fault, in reading order. -/
def checkedVariables : List String :=
  "SEARCH_API_URL" :: numericVariables

/-- The number that a variable stands for, which has a fixed one when it is not set. -/
def StandsFor (unset : UInt64) : Option String → UInt64 → Prop
  | none, n => n = unset
  | some text, n => Spells text.toList n.toNat

section

variable (value : String → Option String)

/-- The settings that the texts of variables describe. -/
structure Describes (s : Settings) : Prop where
  searchUrl : value "SEARCH_API_URL" = some s.searchUrl
  searchTimeout : StandsFor 30 (value "SEARCH_TIMEOUT_SECS") s.searchTimeout
  resultBuffer : StandsFor 64 (value "RESULT_BUFFER") s.resultBuffer
  defaultInterval : StandsFor 10 (value "POLLING_DEFAULT_INTERVAL_SECS") s.defaultInterval
  isInterval : IsInterval s.defaultInterval
  redisUrl : s.redisUrl = (value "REDIS_URL").getD "redis://127.0.0.1/"
  bindAddress : s.bindAddress = (value "BIND_ADDR").getD "0.0.0.0:3000"
  stateKey : s.stateKey = (value "POLLING_STATE_KEY").getD "autoPolling"

/-- A variable is at fault, and what is to be told of it. -/
inductive Fault (name : String) : SettingsError → Prop where
  | unset (hname : name = "SEARCH_API_URL") (h : value name = none) : Fault name (.missing name)
  | unspelled (hname : name ∈ numericVariables) {text : String} (htext : value name = some text)
    (h : ∀ n : UInt64, ¬Spells text.toList n.toNat) : Fault name (.invalid name text)
  | unusable (hname : name = "POLLING_DEFAULT_INTERVAL_SECS") {text : String} {n : UInt64}
    (htext : value name = some text) (hn : Spells text.toList n.toNat) (h : ¬IsInterval n) :
    Fault name (.invalid name (String.ofList (Decimal.natDigits n.toNat)))

/-- What is to be told of the first of several variables that is at fault. -/
def FirstFault : List String → SettingsError → Prop
  | [], _ => False
  | name :: names, e => Fault value name e ∨ (∀ e', ¬Fault value name e') ∧ FirstFault names e

/-- The variables with which the service is configured: one is set, and what is set of the
others can be used. -/
structure IsAdmissible : Prop where
  isSet : ∃ url, value "SEARCH_API_URL" = some url
  isNumber : ∀ name ∈ numericVariables, ∀ text, value name = some text →
    ∃ n : UInt64, Spells text.toList n.toNat
  isInterval : ∀ text, value "POLLING_DEFAULT_INTERVAL_SECS" = some text →
    ∃ n : UInt64, Spells text.toList n.toNat ∧ IsInterval n

end

variable {env : Environment} {name : String} {unset n : UInt64} {e : SettingsError}

/-! ## Numbers -/

theorem number_eq_ok_iff :
    number env name unset = .ok n ↔ StandsFor unset (env.text? name) n := by
  rw [number]
  cases env.text? name with
  | none => simp [StandsFor, eq_comm]
  | some text =>
      simp only [StandsFor, ← number?_eq_some_iff]
      cases number? text <;> simp

theorem number_eq_error_iff :
    number env name unset = .error e ↔ ∃ text, env.text? name = some text ∧
      (∀ n : UInt64, ¬Spells text.toList n.toNat) ∧ e = .invalid name text := by
  rw [number]
  cases env.text? name with
  | none => simp
  | some text =>
      have hspelled : (∀ n : UInt64, ¬Spells text.toList n.toNat) ↔ number? text = none := by
        simp only [← number?_eq_some_iff, Option.eq_none_iff_forall_ne_some, ne_eq]
      simp only [Option.some.injEq, exists_eq_left', hspelled]
      cases number? text <;> simp [eq_comm]

/-- Of a number that is not an interval only the text can be at fault. -/
theorem number_eq_error_iff_fault (hname : name ∈ numericVariables)
    (hother : name ≠ "POLLING_DEFAULT_INTERVAL_SECS") :
    number env name unset = .error e ↔ Fault env.text? name e := by
  rw [number_eq_error_iff]
  constructor
  · rintro ⟨text, htext, h, rfl⟩
    exact .unspelled hname htext h
  · intro h
    cases h with
    | unset hfirst =>
        subst hfirst
        exact absurd hname (by decide)
    | unspelled _ htext h => exact ⟨_, htext, h, rfl⟩
    | unusable hlast => exact absurd hlast hother

theorem interval_eq_ok_iff : interval env = .ok n ↔
    StandsFor 10 (env.text? "POLLING_DEFAULT_INTERVAL_SECS") n ∧ IsInterval n := by
  rw [interval, Json.bind_eq_ok]
  constructor
  · rintro ⟨m, hm, h⟩
    cases hcheck : Polling.checkInterval m with
    | error _ => simp [hcheck] at h
    | ok _ =>
        rw [hcheck] at h
        obtain rfl : m = n := Except.ok.inj h
        exact ⟨number_eq_ok_iff.mp hm, Polling.checkInterval_eq_ok.mp hcheck⟩
  · rintro ⟨hn, hinterval⟩
    refine ⟨n, number_eq_ok_iff.mpr hn, ?_⟩
    rw [Polling.checkInterval_eq_ok.mpr hinterval]
    rfl

/-- The number is told where the text spells one that is no interval. -/
theorem interval_eq_error_iff : interval env = .error e ↔
    Fault env.text? "POLLING_DEFAULT_INTERVAL_SECS" e := by
  rw [interval, Json.bind_eq_error, number_eq_error_iff]
  constructor
  · rintro (⟨text, htext, h, rfl⟩ | ⟨n, hn, h⟩)
    · exact .unspelled (by decide) htext h
    · cases hcheck : Polling.checkInterval n with
      | ok _ =>
          rw [hcheck] at h
          cases h
      | error refused =>
          rw [hcheck] at h
          obtain rfl := Except.error.inj h
          obtain ⟨hinterval, rfl⟩ := Polling.checkInterval_eq_error.mp hcheck
          rw [number_eq_ok_iff] at hn
          cases htext : env.text? "POLLING_DEFAULT_INTERVAL_SECS" with
          | none =>
              rw [htext] at hn
              obtain rfl : n = 10 := hn
              exact absurd (by decide) hinterval
          | some text =>
              rw [htext] at hn
              exact .unusable rfl htext hn hinterval
  · intro h
    cases h with
    | unset hfirst => exact absurd hfirst (by decide)
    | unspelled _ htext h => exact .inl ⟨_, htext, h, rfl⟩
    | @unusable _ text n htext hn h =>
        refine .inr ⟨n, ?_, ?_⟩
        · rw [number_eq_ok_iff, htext]
          exact hn
        · rw [Polling.checkInterval_eq_error.mpr ⟨h, rfl⟩]
          rfl

/-! ## Settings -/

theorem ofEnvironment_eq_ok_iff {s : Settings} :
    ofEnvironment env = .ok s ↔ Describes env.text? s := by
  rw [ofEnvironment]
  cases hurl : env.text? "SEARCH_API_URL" with
  | none =>
      constructor
      · intro h
        cases h
      · intro h
        have hset := h.searchUrl
        rw [hurl] at hset
        cases hset
  | some url =>
      simp only [Json.bind_eq_ok, number_eq_ok_iff, interval_eq_ok_iff]
      constructor
      · rintro ⟨timeout, htimeout, buffer, hbuffer, seconds, ⟨hseconds, hinterval⟩, h⟩
        obtain rfl := Except.ok.inj h
        exact ⟨hurl, htimeout, hbuffer, hseconds, hinterval, rfl, rfl, rfl⟩
      · intro h
        refine ⟨_, h.searchTimeout, _, h.resultBuffer, _, ⟨h.defaultInterval, h.isInterval⟩, ?_⟩
        obtain ⟨hset, -, -, -, -, hredis, haddress, hkey⟩ := h
        obtain rfl : url = s.searchUrl := Option.some.inj (hurl.symm.trans hset)
        have hstandard : Polling.standardStateKey = "autoPolling" := rfl
        rw [hstandard, ← hredis, ← haddress, ← hkey]
        rfl

/-- Variables are read one after another, up to the first that is at fault. -/
theorem bind_eq_error_iff_firstFault {α β : Type} {value : String → Option String}
    {x : Except SettingsError α} {f : α → Except SettingsError β} {names : List String}
    (hx : ∀ e, x = .error e ↔ Fault value name e)
    (hf : ∀ a, f a = .error e ↔ FirstFault value names e) :
    x >>= f = .error e ↔ FirstFault value (name :: names) e := by
  rw [Json.bind_eq_error, FirstFault, hx]
  apply or_congr_right
  simp only [hf, exists_and_right, ← hx]
  apply and_congr_left
  intro _
  cases x with
  | error e' => simp
  | ok a => simp

theorem ofEnvironment_eq_error_iff :
    ofEnvironment env = .error e ↔ FirstFault env.text? checkedVariables e := by
  rw [ofEnvironment, checkedVariables, FirstFault]
  cases hurl : env.text? "SEARCH_API_URL" with
  | none =>
      have hfault : Fault env.text? "SEARCH_API_URL" (.missing "SEARCH_API_URL") := .unset rfl hurl
      constructor
      · intro h
        obtain rfl := Except.error.inj h
        exact .inl hfault
      · rintro (h | ⟨hnone, -⟩)
        · cases h with
          | unset => rfl
          | unspelled hname => exact absurd hname (by decide)
          | unusable hname => exact absurd hname (by decide)
        · exact absurd hfault (hnone _)
  | some url =>
      have hnone : ∀ e', ¬Fault env.text? "SEARCH_API_URL" e' := by
        intro e' h
        cases h with
        | unset _ h =>
            rw [hurl] at h
            cases h
        | unspelled hname => exact absurd hname (by decide)
        | unusable hname => exact absurd hname (by decide)
      simp only [hnone, false_or, not_false_eq_true, implies_true, true_and]
      apply bind_eq_error_iff_firstFault
      · intro e'
        exact number_eq_error_iff_fault (by decide) (by decide)
      · intro timeout
        apply bind_eq_error_iff_firstFault
        · intro e'
          exact number_eq_error_iff_fault (by decide) (by decide)
        · intro buffer
          apply bind_eq_error_iff_firstFault
          · intro e'
            exact interval_eq_error_iff
          · intro seconds
            constructor
            · intro h
              cases h
            · intro h
              cases h

theorem exists_standsFor {text? : Option String} (unset : UInt64)
    (h : ∀ text, text? = some text → ∃ n : UInt64, Spells text.toList n.toNat) :
    ∃ n, StandsFor unset text? n := by
  cases text? with
  | none => exact ⟨unset, rfl⟩
  | some text => exact h text rfl

theorem exists_describes_iff {value : String → Option String} :
    (∃ s, Describes value s) ↔ IsAdmissible value := by
  have hspelled {unset n : UInt64} {name text : String} (htext : value name = some text)
      (h : StandsFor unset (value name) n) : Spells text.toList n.toNat := by
    rwa [htext] at h
  constructor
  · rintro ⟨s, h⟩
    refine ⟨⟨_, h.searchUrl⟩, ?_, ?_⟩
    · intro name hname text htext
      simp only [numericVariables, List.mem_cons, List.not_mem_nil, or_false] at hname
      rcases hname with rfl | rfl | rfl
      · exact ⟨_, hspelled htext h.searchTimeout⟩
      · exact ⟨_, hspelled htext h.resultBuffer⟩
      · exact ⟨_, hspelled htext h.defaultInterval⟩
    · intro text htext
      exact ⟨_, hspelled htext h.defaultInterval, h.isInterval⟩
  · rintro ⟨⟨url, hurl⟩, hnumber, hinterval⟩
    obtain ⟨timeout, htimeout⟩ := exists_standsFor 30 (hnumber "SEARCH_TIMEOUT_SECS" (by decide))
    obtain ⟨buffer, hbuffer⟩ := exists_standsFor 64 (hnumber "RESULT_BUFFER" (by decide))
    have hseconds : ∃ n, StandsFor 10 (value "POLLING_DEFAULT_INTERVAL_SECS") n ∧
        IsInterval n := by
      cases htext : value "POLLING_DEFAULT_INTERVAL_SECS" with
      | none => exact ⟨10, rfl, by decide⟩
      | some text => exact hinterval text htext
    obtain ⟨seconds, hstands, his⟩ := hseconds
    exact ⟨⟨url, timeout, _, _, _, seconds, buffer⟩,
      ⟨hurl, htimeout, hbuffer, hstands, his, rfl, rfl, rfl⟩⟩

/-- The texts of variables are those of the environment, and those of bindings where it has
none.  They make settings just if the address of the search service is set and the three numbers
can be used; then the settings are the ones that they describe.  Otherwise the first variable
that is at fault is told. -/
theorem settings_of_variables (env : Environment) (bindings : List (String × String)) :
    ∃ value : String → Option String,
      (∀ name text, value name = some text ↔ env name = some (Text.utf8 text) ∨
        (∀ other, env name ≠ some (Text.utf8 other)) ∧ bindings.lookup name = some text) ∧
      (∀ s, ofEnvironment (env.fill bindings) = .ok s ↔ Describes value s) ∧
      ((∃ s, ofEnvironment (env.fill bindings) = .ok s) ↔ IsAdmissible value) ∧
      ∀ e, ofEnvironment (env.fill bindings) = .error e ↔ FirstFault value checkedVariables e := by
  refine ⟨(env.fill bindings).text?, ?_, fun s => ofEnvironment_eq_ok_iff, ?_,
    fun e => ofEnvironment_eq_error_iff⟩
  · intro name text
    rw [Environment.text?_fill, Option.or_eq_some_iff, Environment.text?_eq_some_iff,
      Option.eq_none_iff_forall_ne_some]
    simp only [ne_eq, Environment.text?_eq_some_iff]
  · simp only [ofEnvironment_eq_ok_iff, exists_describes_iff]

end Settings
end SearchPolling
