import SearchPolling.Proofs.Searching.Course

/-!
# The causes of failures

A search that fails tells why.  It has timed out if nothing was heard in time, and the network
is to blame if the service could not be reached or broke off before it answered.  A status
that is no success is told with whatever can be read of the body.

After the head of a successful answer every trouble is told in one way: the answer is
undecodable.  That is so for contents that are no response, but also for a body that does not
come in time and for one that breaks off, though no whole body was there to be decoded.
-/

namespace SearchPolling
namespace Search

/-- Whether a status is a success. -/
def IsSuccess (status : Nat) : Prop :=
  200 ≤ status ∧ status < 300

instance (status : Nat) : Decidable (IsSuccess status) :=
  inferInstanceAs (Decidable (_ ∧ _))

namespace Answer

theorem result_of_success {a : Answer} (h : IsSuccess a.status) :
    a.result = match a.decode? with
      | some response => .ok response
      | none => .error (.undecodable "error decoding response body") := by
  have hsuccess : a.isSuccess = true := by simpa [isSuccess, IsSuccess] using h
  exact if_pos hsuccess

theorem result_of_not_success {a : Answer} (h : ¬IsSuccess a.status) :
    a.result = .error (.status a.status a.text) := by
  have hsuccess : ¬a.isSuccess = true := by simpa [isSuccess, IsSuccess] using h
  exact if_neg hsuccess

end Answer

namespace Client

/-- How the service deals with a search, unless there is no address to post it to. -/
def course? (c : Client) (r : Request) (server : Post → Course) : Option Course :=
  match c.target with
  | .ok url => some (server (post url r))
  | .error _ => none

/-- What comes of a search by a client that waits so long. -/
def searchWithin (timeout : Nat) (c : Client) (r : Request) (server : Post → Course) :
    Except Failure Response :=
  c.search r fun p => (server p).exchange timeout

variable {c : Client} {r : Request} {server : Post → Course} {timeout : Nat}

theorem network_of_target {f : Failure} (h : c.target = .error f) :
    ∃ reason, f = .network reason := by
  simp only [target] at h
  split at h
  · exact ⟨_, (Except.error.inj h).symm⟩
  · split at h
    · exact ⟨_, (Except.error.inj h).symm⟩
    · split at h
      · cases h
      · exact ⟨_, (Except.error.inj h).symm⟩

theorem searchWithin_of_none (timeout : Nat) (h : c.course? r server = none) :
    ∃ reason, c.searchWithin timeout r server = .error (.network reason) := by
  rw [course?] at h
  split at h
  · cases h
  · next f htarget =>
      obtain ⟨reason, rfl⟩ := network_of_target htarget
      refine ⟨reason, ?_⟩
      rw [searchWithin, search, htarget]
      rfl

theorem searchWithin_of_some {x : Course} (h : c.course? r server = some x) :
    ∃ url, c.searchWithin timeout r server = outcome url (x.exchange timeout) := by
  rw [course?] at h
  split at h
  · next url htarget =>
      obtain rfl := Option.some.inj h
      refine ⟨url, ?_⟩
      rw [searchWithin, search, htarget]
      rfl
  · cases h

/-! ## How each cause is told -/

section

variable {x : Course} {status : Nat}

theorem searchWithin_of_unheard (h : c.course? r server = some x) (hunheard : x.Unheard timeout) :
    c.searchWithin timeout r server = .error .timeout := by
  obtain ⟨url, hsearch⟩ := searchWithin_of_some h
  rw [hsearch, hunheard.exchange]
  rfl

theorem searchWithin_of_fails (h : c.course? r server = some x) (hfails : x.Fails timeout) :
    ∃ reason, c.searchWithin timeout r server = .error (.network reason) := by
  obtain ⟨url, hsearch⟩ := searchWithin_of_some h
  refine ⟨about "error sending request" url, ?_⟩
  rw [hsearch, hfails.exchange]
  rfl

theorem searchWithin_of_completes {contentType : Option String} {bytes : List UInt8}
    (h : c.course? r server = some x) (hcompletes : x.Completes timeout status contentType bytes) :
    c.searchWithin timeout r server = (Answer.mk status contentType (.whole bytes)).result := by
  obtain ⟨url, hsearch⟩ := searchWithin_of_some h
  rw [hsearch, hcompletes.exchange]
  rfl

/-- Of an answer without a whole body nothing but the status is told, be the body late or
broken off. -/
theorem searchWithin_of_partial (h : c.course? r server = some x)
    (hpartial : x.Stalls timeout status ∨ x.BreaksOff timeout status) :
    c.searchWithin timeout r server =
      if IsSuccess status then .error (.undecodable "error decoding response body")
      else .error (.status status "") := by
  obtain ⟨url, hsearch⟩ := searchWithin_of_some h
  obtain ⟨contentType, hstalls⟩ | ⟨contentType, hbroken⟩ :=
    hpartial.imp Course.Stalls.exchange Course.BreaksOff.exchange
  · rw [hsearch, hstalls, outcome]
    split
    · next hsuccess => rw [Answer.result_of_success hsuccess]; rfl
    · next hsuccess => rw [Answer.result_of_not_success hsuccess]; rfl
  · rw [hsearch, hbroken, outcome]
    split
    · next hsuccess => rw [Answer.result_of_success hsuccess]; rfl
    · next hsuccess => rw [Answer.result_of_not_success hsuccess]; rfl

end

/-- Each cause and what is told of it. -/
inductive Told (timeout : Nat) : Option Course → Except Failure Response → Prop where
  | nowhere (reason : String) : Told timeout none (.error (.network reason))
  | unheard {x : Course} : x.Unheard timeout → Told timeout (some x) (.error .timeout)
  | fails {x : Course} (reason : String) : x.Fails timeout →
    Told timeout (some x) (.error (.network reason))
  | refused {x : Course} {status : Nat} {contentType : Option String} {bytes : List UInt8} :
    ¬IsSuccess status → x.Completes timeout status contentType bytes →
    Told timeout (some x)
      (.error (.status status (Answer.mk status contentType (.whole bytes)).text))
  | refusedInPart {x : Course} {status : Nat} : ¬IsSuccess status →
    x.Stalls timeout status ∨ x.BreaksOff timeout status →
    Told timeout (some x) (.error (.status status ""))
  | inPart {x : Course} {status : Nat} (reason : String) : IsSuccess status →
    x.Stalls timeout status ∨ x.BreaksOff timeout status →
    Told timeout (some x) (.error (.undecodable reason))
  | undecodable {x : Course} {status : Nat} {contentType : Option String} {bytes : List UInt8}
    (reason : String) : IsSuccess status → x.Completes timeout status contentType bytes →
    (Response.decoder.ofBytes bytes).toOption = none →
    Told timeout (some x) (.error (.undecodable reason))
  | decoded {x : Course} {status : Nat} {contentType : Option String} {bytes : List UInt8}
    {response : Response} : IsSuccess status → x.Completes timeout status contentType bytes →
    (Response.decoder.ofBytes bytes).toOption = some response →
    Told timeout (some x) (.ok response)

namespace Told

variable {course : Option Course}

theorem unheard_of_timeout (h : Told timeout course (.error .timeout)) :
    ∃ x ∈ course, x.Unheard timeout := by
  cases h with
  | unheard hunheard => exact ⟨_, rfl, hunheard⟩

theorem fails_of_network {reason : String} (h : Told timeout course (.error (.network reason))) :
    course = none ∨ ∃ x ∈ course, x.Fails timeout := by
  cases h with
  | nowhere => exact .inl rfl
  | fails _ hfails => exact .inr ⟨_, rfl, hfails⟩

theorem refused_of_status {status : Nat} {message : String}
    (h : Told timeout course (.error (.status status message))) :
    ¬IsSuccess status ∧ ∃ x ∈ course,
      (∃ contentType bytes, x.Completes timeout status contentType bytes ∧
        message = (Answer.mk status contentType (.whole bytes)).text) ∨
      (x.Stalls timeout status ∨ x.BreaksOff timeout status) ∧ message = "" := by
  cases h with
  | refused hsuccess hcompletes =>
      exact ⟨hsuccess, _, rfl, .inl ⟨_, _, hcompletes, rfl⟩⟩
  | refusedInPart hsuccess hpartial => exact ⟨hsuccess, _, rfl, .inr ⟨hpartial, rfl⟩⟩

theorem cause_of_undecodable {reason : String}
    (h : Told timeout course (.error (.undecodable reason))) :
    ∃ x ∈ course, ∃ status, IsSuccess status ∧
      ((x.Stalls timeout status ∨ x.BreaksOff timeout status) ∨
        ∃ contentType bytes, x.Completes timeout status contentType bytes ∧
          (Response.decoder.ofBytes bytes).toOption = none) := by
  cases h with
  | inPart _ hsuccess hpartial => exact ⟨_, rfl, _, hsuccess, .inl hpartial⟩
  | undecodable _ hsuccess hcompletes hdecoded =>
      exact ⟨_, rfl, _, hsuccess, .inr ⟨_, _, hcompletes, hdecoded⟩⟩

theorem decoded_of_ok {response : Response} (h : Told timeout course (.ok response)) :
    ∃ x ∈ course, ∃ status contentType bytes, IsSuccess status ∧
      x.Completes timeout status contentType bytes ∧
        (Response.decoder.ofBytes bytes).toOption = some response := by
  cases h with
  | decoded hsuccess hcompletes hdecoded =>
      exact ⟨_, rfl, _, _, _, hsuccess, hcompletes, hdecoded⟩

end Told

theorem told_of_completes {x : Course} {status : Nat} {contentType : Option String}
    {bytes : List UInt8} (h : c.course? r server = some x)
    (hcompletes : x.Completes timeout status contentType bytes) :
    Told timeout (some x) (c.searchWithin timeout r server) := by
  rw [searchWithin_of_completes h hcompletes]
  by_cases hsuccess : IsSuccess status
  · rw [Answer.result_of_success hsuccess]
    cases hdecoded : (Response.decoder.ofBytes bytes).toOption with
    | some response =>
        simp only [Answer.decode?, hdecoded]
        exact .decoded hsuccess hcompletes hdecoded
    | none =>
        simp only [Answer.decode?, hdecoded]
        exact .undecodable _ hsuccess hcompletes hdecoded
  · rw [Answer.result_of_not_success hsuccess]
    exact .refused hsuccess hcompletes

theorem told_of_partial {x : Course} {status : Nat} (h : c.course? r server = some x)
    (hpartial : x.Stalls timeout status ∨ x.BreaksOff timeout status) :
    Told timeout (some x) (c.searchWithin timeout r server) := by
  rw [searchWithin_of_partial h hpartial]
  split
  · next hsuccess => exact .inPart _ hsuccess hpartial
  · next hsuccess => exact .refusedInPart hsuccess hpartial

/-- Every search tells one of the causes. -/
theorem told_searchWithin (timeout : Nat) (c : Client) (r : Request) (server : Post → Course) :
    Told timeout (c.course? r server) (c.searchWithin timeout r server) := by
  cases h : c.course? r server with
  | none =>
      obtain ⟨reason, hsearch⟩ := searchWithin_of_none timeout h
      rw [hsearch]
      exact .nowhere reason
  | some x =>
      rcases x.cases_of_timeout timeout with
        hunheard | hfails | ⟨status, contentType, bytes, hcompletes⟩ | ⟨status, hstalls⟩ |
          ⟨status, hbroken⟩
      · rw [searchWithin_of_unheard h hunheard]
        exact .unheard hunheard
      · obtain ⟨reason, hsearch⟩ := searchWithin_of_fails h hfails
        rw [hsearch]
        exact .fails reason hfails
      · exact told_of_completes h hcompletes
      · exact told_of_partial h (.inl hstalls)
      · exact told_of_partial h (.inr hbroken)

/-- A search times out just when nothing is heard in time, blames the network just when there
is no address or no connection that holds until an answer begins, and tells any status that
is no success with what it has read.  It succeeds just when a whole answer is there in time
and decodes.  In all other cases the answer is called undecodable: the body of a success may
not decode, but it may just as well be late or broken off. -/
theorem failures_by_cause (c : Client) (r : Request) (server : Post → Course) (timeout : Nat) :
    let course := c.course? r server
    let result := c.searchWithin timeout r server
    (result = .error .timeout ↔ ∃ x ∈ course, x.Unheard timeout) ∧
      ((∃ reason, result = .error (.network reason)) ↔
        course = none ∨ ∃ x ∈ course, x.Fails timeout) ∧
      (∀ status message, result = .error (.status status message) ↔ ¬IsSuccess status ∧
        ∃ x ∈ course, (∃ contentType bytes, x.Completes timeout status contentType bytes ∧
            message = (Answer.mk status contentType (.whole bytes)).text) ∨
          (x.Stalls timeout status ∨ x.BreaksOff timeout status) ∧ message = "") ∧
      ((∃ reason, result = .error (.undecodable reason)) ↔ ∃ x ∈ course, ∃ status,
        IsSuccess status ∧ ((x.Stalls timeout status ∨ x.BreaksOff timeout status) ∨
          ∃ contentType bytes, x.Completes timeout status contentType bytes ∧
            (Response.decoder.ofBytes bytes).toOption = none)) ∧
      ∀ response, result = .ok response ↔ ∃ x ∈ course, ∃ status contentType bytes,
        IsSuccess status ∧ x.Completes timeout status contentType bytes ∧
          (Response.decoder.ofBytes bytes).toOption = some response := by
  intro course result
  have htold : Told timeout course result := told_searchWithin timeout c r server
  refine ⟨⟨?_, ?_⟩, ⟨?_, ?_⟩, fun status message => ⟨?_, ?_⟩, ⟨?_, ?_⟩, fun response => ⟨?_, ?_⟩⟩
  · intro hresult
    exact (hresult ▸ htold).unheard_of_timeout
  · rintro ⟨x, hx, hunheard⟩
    exact searchWithin_of_unheard hx hunheard
  · rintro ⟨reason, hresult⟩
    exact (hresult ▸ htold).fails_of_network
  · rintro (hnone | ⟨x, hx, hfails⟩)
    · exact searchWithin_of_none timeout hnone
    · exact searchWithin_of_fails hx hfails
  · intro hresult
    exact (hresult ▸ htold).refused_of_status
  · rintro ⟨hsuccess, x, hx, ⟨contentType, bytes, hcompletes, rfl⟩ | ⟨hpartial, rfl⟩⟩
    · exact (searchWithin_of_completes hx hcompletes).trans
        (Answer.result_of_not_success hsuccess)
    · exact (searchWithin_of_partial hx hpartial).trans (if_neg hsuccess)
  · rintro ⟨reason, hresult⟩
    exact (hresult ▸ htold).cause_of_undecodable
  · rintro ⟨x, hx, status, hsuccess, hpartial | ⟨contentType, bytes, hcompletes, hdecoded⟩⟩
    · exact ⟨_, (searchWithin_of_partial hx hpartial).trans (if_pos hsuccess)⟩
    · refine ⟨"error decoding response body", (searchWithin_of_completes hx hcompletes).trans ?_⟩
      rw [Answer.result_of_success hsuccess]
      simp only [Answer.decode?, hdecoded]
  · intro hresult
    exact (hresult ▸ htold).decoded_of_ok
  · rintro ⟨x, hx, status, contentType, bytes, hsuccess, hcompletes, hdecoded⟩
    refine (searchWithin_of_completes hx hcompletes).trans ?_
    rw [Answer.result_of_success hsuccess]
    simp only [Answer.decode?, hdecoded]

/-- A service whose answer stops short of its end is taken for one that answers nonsense,
whether it falls silent or closes the connection. -/
theorem answers_in_part_undecodable :
    let c := Client.ofBase "http://search:8082"
    let body (rest : BodyCourse) : Course :=
      .head 20 200 (some "application/json") (.piece 30 [0x7b] rest)
    let stalled : Course := body .silent
    let closed : Course := body (.broken 10)
    (c.course? .standard fun _ => stalled).isSome ∧
      stalled.Stalls 300 200 ∧ closed.BreaksOff 300 200 ∧
      c.searchWithin 300 .standard (fun _ => stalled) =
        .error (.undecodable "error decoding response body") ∧
      c.searchWithin 300 .standard (fun _ => closed) =
        .error (.undecodable "error decoding response body") := by
  intro c body stalled closed
  have hposted : c.target.toOption.isSome := by decide +kernel
  have hcourse (x : Course) : c.course? .standard (fun _ => x) = some x := by
    rw [course?]
    split
    · rfl
    · next htarget => simp [htarget, Except.toOption] at hposted
  have hstalled : stalled.Stalls 300 200 := by
    refine .head 200 _ (by decide) ?_ ?_
    · intro time bytes harrives
      cases harrives with
      | piece _ _ hrest => cases hrest
    · intro time hbreaks
      cases hbreaks with
      | piece _ _ hrest => cases hrest
  have hclosed : closed.BreaksOff 300 200 := .head 200 _ (.piece 30 _ (.broken 10)) (by decide)
  refine ⟨by rw [hcourse]; rfl, hstalled, hclosed, ?_, ?_⟩
  · exact (searchWithin_of_partial (hcourse stalled) (.inl hstalled)).trans (if_pos (by decide))
  · exact (searchWithin_of_partial (hcourse closed) (.inr hclosed)).trans (if_pos (by decide))

end Client
end Search
end SearchPolling
