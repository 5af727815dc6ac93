import SearchPolling.Proofs.Publishing.Encoded
import SearchPolling.Proofs.Reading.ResponseTexts
import SearchPolling.Proofs.Searching.Causes

/-!
# Answers that count

A search gives a response just if an answer with a status of success has come as a whole and its
body spells this response.  There is nothing between a whole response and none: if one part of a
body that would be kept is not as it should be, the answer is undecodable.  Of an answer with
another status the body is never decoded.
-/

namespace SearchPolling
namespace Search

open Json.Grammar (IsBody IsName)
open Response (IsSpelledBy)

namespace Answer

variable {a : Answer} {r : Response}

theorem decode?_eq_some :
    a.decode? = some r ↔ ∃ bytes, a.body = .whole bytes ∧ IsSpelledBy IsName bytes r := by
  rw [decode?]
  cases a.body with
  | whole bytes =>
      simp only [Delivery.whole.injEq, exists_eq_left', ← Response.ofBytes_eq_ok]
      cases Response.decoder.ofBytes bytes <;> simp [Except.toOption]
  | brokenOff => simp
  | late => simp

theorem result_eq_ok : a.result = .ok r ↔ IsSuccess a.status ∧
    ∃ bytes, a.body = .whole bytes ∧ IsSpelledBy IsName bytes r := by
  rw [← decode?_eq_some]
  by_cases hsuccess : IsSuccess a.status
  · rw [result_of_success hsuccess]
    cases a.decode? <;> simp [hsuccess]
  · simp [result_of_not_success hsuccess, hsuccess]

theorem result_of_unspelled (hsuccess : IsSuccess a.status)
    (h : ∀ bytes r, a.body = .whole bytes → ¬IsSpelledBy IsName bytes r) :
    a.result = .error (.undecodable "error decoding response body") := by
  rw [result_of_success hsuccess]
  cases hdecode : a.decode? with
  | none => rfl
  | some r =>
      obtain ⟨bytes, hbody, hspelled⟩ := decode?_eq_some.mp hdecode
      exact absurd hspelled (h bytes r hbody)

theorem text_of_unread (h : ∀ bytes, a.body ≠ .whole bytes) : a.text = "" := by
  rw [text]
  cases hbody : a.body with
  | whole bytes => exact absurd hbody (h bytes)
  | brokenOff => rfl
  | late => rfl

end Answer

namespace Client

variable {c : Client} {query : Request} {carry : Post → Exchange}

theorem search_of_answer {url : Url} {a : Answer} (htarget : c.target = .ok url)
    (hanswer : carry (post url query) = .answered a) : c.search query carry = a.result := by
  rw [search, htarget]
  change outcome url (carry (post url query)) = a.result
  rw [hanswer]
  rfl

theorem exists_answer_of_search {r : Response} (h : c.search query carry = .ok r) :
    ∃ url a, c.target = .ok url ∧ carry (post url query) = .answered a := by
  obtain ⟨url, htarget, houtcome⟩ := Json.bind_eq_ok.mp h
  cases hcarry : carry (post url query) with
  | answered a => exact ⟨url, a, htarget, hcarry⟩
  | broken => rw [hcarry] at houtcome; cases houtcome
  | late => rw [hcarry] at houtcome; cases houtcome

/-! ## Bodies -/

open Json (StringToken bodyChars denotes_bodyChars halfEscape isNamed_bodyChars
  partsOf_halfEscape slot_self)
open Json.Grammar (IsMember IsNamed IsObject IsValue)
open Polling (answering backend)

/-- An object spells a response with a total alone if no member but the one of the total has the
name of a field. -/
theorem spells_total {Name : List Char → Prop} {ms : List Json.Grammar.Member} {w : List Char}
    (hobject : IsObject ((bodyChars "total", ['1']) :: ms) w) (hname : Name (bodyChars "total"))
    (hms : ∀ m ∈ ms, Name m.1 ∧ IsValue m.2)
    (hother : ∀ m ∈ ms, ∀ name ∈ ["total", "results", "facetCounts"], ¬IsNamed [name] m) :
    Response.spells Name 127 ⟨1, [], none⟩ w := by
  have hvalue : IsValue ['1'] := Json.isValue_iff.mpr ⟨_, (Json.nat 1).writes_node⟩
  have hmissing (name : String) (hname : name ∈ ["results", "facetCounts"]) :
      ∀ m ∈ (bodyChars "total", ['1']) :: ms, ¬IsNamed [name] m := by
    refine List.forall_mem_cons.mpr ⟨fun htotal => ?_, fun m hm => hother m hm name
      (List.mem_cons_of_mem _ hname)⟩
    rw [isNamed_bodyChars, List.mem_singleton] at htotal
    subst htotal
    exact absurd hname (by decide)
  refine ⟨126, rfl, .inl ⟨_, hobject, List.forall_mem_cons.mpr ⟨⟨hname, hvalue⟩, hms⟩, ?_⟩⟩
  rw [Response.entries, List.forall_mem_cons, List.forall_mem_cons, List.forall_mem_singleton]
  refine ⟨.inl ⟨[], _, ms, rfl, isNamed_bodyChars.mpr (by decide), rfl, fun m hm => ?_⟩,
    .inr ⟨rfl, hmissing _ (by simp)⟩, .inr ⟨rfl, hmissing _ (by simp)⟩⟩
  exact hother m hm "total" (by decide)

theorem isMember_plain (m : Json.Grammar.Member) :
    IsMember m (Json.Grammar.quoted m.1 ++ ':' :: m.2) :=
  ⟨_, _, slot_self _, slot_self _, rfl⟩

/-- An object with two documents, of which the second one is as given. -/
def textWith (second : String) : String :=
  "\x7b\"total\":2,\"results\":[\x7b\"id\":\"a\"\x7d," ++ second ++ "]\x7d"

theorem not_isSpelledBy {text : String} (r : Response)
    (h : (Response.decoder.ofBytes (Text.utf8 text)).toOption.isSome = false) :
    ¬IsSpelledBy IsName (Text.utf8 text) r := by
  intro hspelled
  rw [Response.ofBytes_eq_ok.mpr hspelled] at h
  cases h

theorem exists_ok_of_isSome {ε α : Type} {x : Except ε α} (h : x.toOption.isSome) :
    ∃ a, x = .ok a := by
  cases x with
  | ok a => exact ⟨a, rfl⟩
  | error e => cases h

theorem exists_target_backend : ∃ url, backend.target = .ok url :=
  exists_ok_of_isSome Polling.target_backend

/-- An object with a total and a member whose name is half of a surrogate pair. -/
def halfText : String :=
  "\x7b\"total\":1,\"\\ud800\":0\x7d"

theorem not_isNamed_halfEscape {names : List String} {w : List Char} :
    ¬IsNamed names (halfEscape, w) := by
  rintro ⟨name, -, hdenotes⟩
  cases (StringToken.text_eq_ok partsOf_halfEscape).mpr hdenotes

theorem isObject_halfText :
    IsObject [(bodyChars "total", ['1']), (halfEscape, ['0'])] halfText.toList :=
  .some (.cons (isMember_plain _) (.one (isMember_plain _)))

/-- An object with a total and a string that is not UTF-8. -/
def strayBytes : List UInt8 :=
  Text.utf8 "\x7b\"total\":1,\"x\":\"" ++ 0xFF :: Text.utf8 "\"\x7d"

/-! ## All or nothing -/

/-- A search gives a response just if it has been answered with a status of success and a whole
body that spells the response.  A body that spells none makes the answer undecodable, and an answer
with another status is told by this status, with no message if its body cannot be read. -/
theorem answers_all_or_nothing (c : Client) (query : Request) (carry : Post → Exchange) :
    (∀ r, c.search query carry = .ok r ↔ ∃ url a bytes, c.target = .ok url ∧
      carry (post url query) = .answered a ∧ IsSuccess a.status ∧ a.body = .whole bytes ∧
        IsSpelledBy IsName bytes r) ∧
    ∀ url a, c.target = .ok url → carry (post url query) = .answered a →
      (IsSuccess a.status →
        (∀ bytes r, a.body = .whole bytes → ¬IsSpelledBy IsName bytes r) →
          c.search query carry = .error (.undecodable "error decoding response body")) ∧
      (¬IsSuccess a.status → c.search query carry = .error (.status a.status a.text) ∧
        ((∀ bytes, a.body ≠ .whole bytes) → a.text = "")) := by
  refine ⟨fun r => ⟨fun h => ?_, ?_⟩, fun url a htarget hanswer => ?_⟩
  · obtain ⟨url, a, htarget, hanswer⟩ := exists_answer_of_search h
    rw [search_of_answer htarget hanswer, Answer.result_eq_ok] at h
    obtain ⟨hsuccess, bytes, hbody, hspelled⟩ := h
    exact ⟨url, a, bytes, htarget, hanswer, hsuccess, hbody, hspelled⟩
  · rintro ⟨url, a, bytes, htarget, hanswer, hsuccess, hbody, hspelled⟩
    rw [search_of_answer htarget hanswer, Answer.result_eq_ok]
    exact ⟨hsuccess, bytes, hbody, hspelled⟩
  · rw [search_of_answer htarget hanswer]
    exact ⟨Answer.result_of_unspelled, fun hrefused =>
      ⟨Answer.result_of_not_success hrefused, Answer.text_of_unread⟩⟩

/-- Of two documents both are taken, or neither if the second one has a number for an id, and what
is no success is told as such. -/
theorem answers_all_or_nothing_backend :
    let a : Answer := ⟨503, some "application/json", .brokenOff⟩
    let text := textWith "\x7b\"id\":\"b\"\x7d"
    (∃ r, backend.search .standard (answering text) = .ok r ∧
        r.results.map Hit.id = ["a", "b"] ∧ IsSpelledBy IsName (Text.utf8 text) r) ∧
      backend.search .standard (answering (textWith "\x7b\"id\":2\x7d")) =
        .error (.undecodable "error decoding response body") ∧
      backend.search .standard (fun _ => .answered a) = .error (.status 503 "") := by
  intro a text
  obtain ⟨url, htarget⟩ := exists_target_backend
  obtain ⟨hok, -⟩ := answers_all_or_nothing backend .standard (answering text)
  obtain ⟨-, hmalformed⟩ :=
    answers_all_or_nothing backend .standard (answering (textWith "\x7b\"id\":2\x7d"))
  obtain ⟨-, hrefused⟩ := answers_all_or_nothing backend .standard fun _ => .answered a
  refine ⟨?_, (hmalformed url _ htarget rfl).1 (by decide) ?_, ?_⟩
  · have hids : ((backend.search .standard (answering text)).map fun r =>
        r.results.map Hit.id).toOption = some ["a", "b"] := by decide +kernel
    cases hsearch : backend.search .standard (answering text) with
    | error f => rw [hsearch] at hids; cases hids
    | ok r =>
        rw [hsearch] at hids
        obtain ⟨_, _, bytes, -, ⟨⟩, -, ⟨⟩, hspelled⟩ := (hok r).mp hsearch
        exact ⟨r, rfl, Option.some.inj hids, hspelled⟩
  · rintro bytes r ⟨⟩
    exact not_isSpelledBy r (by decide +kernel)
  · obtain ⟨hstatus, htext⟩ := (hrefused url a htarget rfl).2 (by decide)
    rw [hstatus, htext fun _ => nofun]

/-- A body that belongs to the grammar and says all that a response has is refused for the name of
a member that nobody asks for, and another one is taken that is no text at all. -/
theorem refused_halved_name_taken_stray :
    IsSpelledBy IsBody (Text.utf8 halfText) ⟨1, [], none⟩ ∧
      backend.search .standard (answering halfText) =
        .error (.undecodable "error decoding response body") ∧
      Text.ofUtf8? strayBytes = none ∧ ∃ r,
        backend.search .standard (fun _ => .answered ⟨200, none, .whole strayBytes⟩) = .ok r := by
  obtain ⟨url, htarget⟩ := exists_target_backend
  refine ⟨Response.isSpelledBy_utf8.mpr ⟨_, slot_self _, ?_⟩, ?_, by decide +kernel, ?_⟩
  · refine spells_total isObject_halfText ?_ ?_ ?_
    · exact StringToken.isBody_of_isName ⟨_, denotes_bodyChars.mpr rfl⟩
    · refine List.forall_mem_singleton.mpr ⟨Json.isBody_of_partsOf partsOf_halfEscape, ?_⟩
      exact Json.isValue_iff.mpr ⟨_, (Json.nat 0).writes_node⟩
    · exact List.forall_mem_singleton.mpr fun _ _ => not_isNamed_halfEscape
  · rw [search_of_answer htarget rfl]
    refine Answer.result_of_unspelled (by decide) ?_
    rintro bytes r ⟨⟩
    exact not_isSpelledBy r (by decide +kernel)
  · exact exists_ok_of_isSome (by decide +kernel)

end Client
end Search
end SearchPolling
