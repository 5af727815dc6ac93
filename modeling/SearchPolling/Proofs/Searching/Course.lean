import SearchPolling.Search.Client

/-!
# The course of an exchange

A service takes its time to answer, sends the body of its answer in pieces, and may fall
silent or break off at any moment.  A client waits for a limited time, which begins when it
posts and ends when it has the whole body.  What comes of posting is thus a matter of which
event comes first, and an event counts only if it comes before the time is up.

The time of a whole body and the time at which it breaks off are given by relations that do
not know of the limit.  Reading against the limit gives what these relations say.
-/

namespace SearchPolling
namespace Search

/-- How the body of an answer goes on.  Every event comes some time after the one before. -/
inductive BodyCourse where
  | piece (wait : Nat) (bytes : List UInt8) (rest : BodyCourse)
  | finished (wait : Nat)
  /-- The connection is closed though the body is not whole. -/
  | broken (wait : Nat)
  /-- Nothing more is heard. -/
  | silent

/-- How a service deals with what is posted. -/
inductive Course where
  | head (wait status : Nat) (contentType : Option String) (body : BodyCourse)
  /-- There is no connection, or it is closed before an answer. -/
  | broken (wait : Nat)
  /-- Nothing is heard. -/
  | silent

namespace BodyCourse

/-- What arrives of a body while so much time is left, after some bytes of it. -/
def deliver : Nat → List UInt8 → BodyCourse → Delivery
  | left, got, piece wait bytes rest =>
    if wait < left then deliver (left - wait) (got ++ bytes) rest else .late
  | left, got, finished wait => if wait < left then .whole got else .late
  | left, _, broken wait => if wait < left then .brokenOff else .late
  | _, _, silent => .late

/-- The whole body is there after some time. -/
inductive Arrives : BodyCourse → Nat → List UInt8 → Prop where
  | finished (wait : Nat) : Arrives (.finished wait) wait []
  | piece (wait : Nat) (bytes : List UInt8) {rest : BodyCourse} {time : Nat} {more : List UInt8} :
    Arrives rest time more → Arrives (.piece wait bytes rest) (wait + time) (bytes ++ more)

/-- The body breaks off after some time. -/
inductive Breaks : BodyCourse → Nat → Prop where
  | broken (wait : Nat) : Breaks (.broken wait) wait
  | piece (wait : Nat) (bytes : List UInt8) {rest : BodyCourse} {time : Nat} :
    Breaks rest time → Breaks (.piece wait bytes rest) (wait + time)

theorem deliver_of_arrives {b : BodyCourse} {time left : Nat} {bytes : List UInt8}
    (h : b.Arrives time bytes) (hleft : time < left) (got : List UInt8) :
    b.deliver left got = .whole (got ++ bytes) := by
  induction h generalizing left got with
  | finished wait =>
      rw [deliver, if_pos hleft, List.append_nil]
  | piece wait bytes _ ih =>
      rw [deliver, if_pos (by omega), ih (by omega), List.append_assoc]

theorem deliver_of_breaks {b : BodyCourse} {time left : Nat} (h : b.Breaks time)
    (hleft : time < left) (got : List UInt8) : b.deliver left got = .brokenOff := by
  induction h generalizing left got with
  | broken wait => rw [deliver, if_pos hleft]
  | piece wait bytes _ ih => rw [deliver, if_pos (by omega), ih (by omega)]

theorem exists_arrives_of_deliver {b : BodyCourse} {left : Nat} {got all : List UInt8}
    (h : b.deliver left got = .whole all) :
    ∃ time bytes, b.Arrives time bytes ∧ time < left ∧ all = got ++ bytes := by
  induction b generalizing left got with
  | piece wait bytes rest ih =>
      rw [deliver] at h
      split at h
      · obtain ⟨time, more, harrives, htime, rfl⟩ := ih h
        refine ⟨wait + time, bytes ++ more, harrives.piece wait bytes, by omega, ?_⟩
        rw [List.append_assoc]
      · cases h
  | finished wait =>
      rw [deliver] at h
      split at h
      · next hwait =>
          obtain rfl := Delivery.whole.inj h
          exact ⟨wait, [], .finished wait, hwait, (List.append_nil _).symm⟩
      · cases h
  | broken wait =>
      rw [deliver] at h
      split at h <;> cases h
  | silent => cases h

theorem exists_breaks_of_deliver {b : BodyCourse} {left : Nat} {got : List UInt8}
    (h : b.deliver left got = .brokenOff) : ∃ time, b.Breaks time ∧ time < left := by
  induction b generalizing left got with
  | piece wait bytes rest ih =>
      rw [deliver] at h
      split at h
      · obtain ⟨time, hbreaks, htime⟩ := ih h
        exact ⟨wait + time, hbreaks.piece wait bytes, by omega⟩
      · cases h
  | finished wait =>
      rw [deliver] at h
      split at h <;> cases h
  | broken wait =>
      rw [deliver] at h
      split at h
      · next hwait => exact ⟨wait, .broken wait, hwait⟩
      · cases h
  | silent => cases h

end BodyCourse

namespace Course

/-- What comes of a course for a client that waits so long. -/
def exchange (timeout : Nat) : Course → Exchange
  | head wait status contentType body =>
    if wait < timeout then .answered ⟨status, contentType, body.deliver (timeout - wait) []⟩
    else .late
  | broken wait => if wait < timeout then .broken else .late
  | silent => .late

/-- Nothing is heard before the time is up. -/
inductive Unheard (timeout : Nat) : Course → Prop where
  | head {wait : Nat} (status : Nat) (contentType : Option String) (body : BodyCourse) :
    timeout ≤ wait → Unheard timeout (.head wait status contentType body)
  | broken {wait : Nat} : timeout ≤ wait → Unheard timeout (.broken wait)
  | silent : Unheard timeout .silent

/-- There is no connection, or it is closed before an answer and before the time is up. -/
inductive Fails (timeout : Nat) : Course → Prop where
  | broken {wait : Nat} : wait < timeout → Fails timeout (.broken wait)

/-- A whole answer is there before the time is up. -/
inductive Completes (timeout : Nat) : Course → Nat → Option String → List UInt8 → Prop where
  | head {wait time : Nat} (status : Nat) (contentType : Option String) {body : BodyCourse}
    {bytes : List UInt8} : body.Arrives time bytes → wait + time < timeout →
    Completes timeout (.head wait status contentType body) status contentType bytes

/-- The head of an answer is there in time, but its body comes late. -/
inductive Stalls (timeout : Nat) : Course → Nat → Prop where
  | head {wait : Nat} (status : Nat) (contentType : Option String) {body : BodyCourse} :
    wait < timeout → (∀ time bytes, body.Arrives time bytes → timeout ≤ wait + time) →
    (∀ time, body.Breaks time → timeout ≤ wait + time) →
    Stalls timeout (.head wait status contentType body) status

/-- The head of an answer is there in time, but its body breaks off before the time is up. -/
inductive BreaksOff (timeout : Nat) : Course → Nat → Prop where
  | head {wait time : Nat} (status : Nat) (contentType : Option String) {body : BodyCourse} :
    body.Breaks time → wait + time < timeout →
    BreaksOff timeout (.head wait status contentType body) status

variable {timeout : Nat} {x : Course}

/-- Every course is one of five cases. -/
theorem cases_of_timeout (timeout : Nat) (x : Course) :
    x.Unheard timeout ∨ x.Fails timeout ∨
      (∃ status contentType bytes, x.Completes timeout status contentType bytes) ∨
      (∃ status, x.Stalls timeout status) ∨ ∃ status, x.BreaksOff timeout status := by
  cases x with
  | head wait status contentType body =>
      by_cases hwait : wait < timeout
      · right
        right
        -- Reading decides; that a body is late says that nothing ends it in time.
        cases hdelivery : body.deliver (timeout - wait) [] with
        | whole bytes =>
            obtain ⟨time, bytes, harrives, htime, -⟩ := body.exists_arrives_of_deliver hdelivery
            exact .inl ⟨status, contentType, bytes, .head status contentType harrives (by omega)⟩
        | brokenOff =>
            obtain ⟨time, hbreaks, htime⟩ := body.exists_breaks_of_deliver hdelivery
            exact .inr (.inr ⟨status, .head status contentType hbreaks (by omega)⟩)
        | late =>
            refine .inr (.inl ⟨status, .head status contentType hwait ?_ ?_⟩)
            · intro time bytes harrives
              apply Nat.le_of_not_lt
              intro htime
              rw [body.deliver_of_arrives harrives (by omega)] at hdelivery
              cases hdelivery
            · intro time hbreaks
              apply Nat.le_of_not_lt
              intro htime
              rw [body.deliver_of_breaks hbreaks (by omega)] at hdelivery
              cases hdelivery
      · exact .inl (.head status contentType body (by omega))
  | broken wait =>
      by_cases hwait : wait < timeout
      · exact .inr (.inl (.broken hwait))
      · exact .inl (.broken (by omega))
  | silent => exact .inl .silent

theorem Unheard.exchange (h : x.Unheard timeout) : x.exchange timeout = .late := by
  cases h with
  | head status contentType body hwait => exact if_neg (by omega)
  | broken hwait => exact if_neg (by omega)
  | silent => rfl

theorem Fails.exchange (h : x.Fails timeout) : x.exchange timeout = .broken := by
  obtain ⟨hwait⟩ := h
  exact if_pos hwait

theorem Completes.exchange {status : Nat} {contentType : Option String} {bytes : List UInt8}
    (h : x.Completes timeout status contentType bytes) :
    x.exchange timeout = .answered ⟨status, contentType, .whole bytes⟩ := by
  obtain ⟨status, contentType, harrives, htime⟩ := h
  rw [Course.exchange, if_pos (by omega), BodyCourse.deliver_of_arrives harrives (by omega),
    List.nil_append]

theorem BreaksOff.exchange {status : Nat} (h : x.BreaksOff timeout status) :
    ∃ contentType, x.exchange timeout = .answered ⟨status, contentType, .brokenOff⟩ := by
  obtain ⟨status, contentType, hbreaks, htime⟩ := h
  refine ⟨contentType, ?_⟩
  rw [Course.exchange, if_pos (by omega), BodyCourse.deliver_of_breaks hbreaks (by omega)]

theorem Stalls.exchange {status : Nat} (h : x.Stalls timeout status) :
    ∃ contentType, x.exchange timeout = .answered ⟨status, contentType, .late⟩ := by
  obtain ⟨status, contentType, hwait, hwhole, hbroken⟩ := h
  refine ⟨contentType, ?_⟩
  rw [Course.exchange, if_pos hwait]
  congr 2
  cases hdelivery : BodyCourse.deliver _ _ _ with
  | whole bytes =>
      obtain ⟨time, bytes, harrives, htime, -⟩ := BodyCourse.exists_arrives_of_deliver hdelivery
      have := hwhole time bytes harrives
      omega
  | brokenOff =>
      obtain ⟨time, hbreaks, htime⟩ := BodyCourse.exists_breaks_of_deliver hdelivery
      have := hbroken time hbreaks
      omega
  | late => rfl

end Course
end Search
end SearchPolling
