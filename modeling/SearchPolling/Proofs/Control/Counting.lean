import Mathlib.Data.List.ProdSigma
import SearchPolling.Proofs.Control.Labels
import SearchPolling.Proofs.Service.Launch

/-!
# How requests are counted

Every request that is answered is counted once, under its method, its endpoint and the status
that was sent, and its duration is observed once.  Requests for the options of a path are the
exception: they are answered before anything is measured.

The rows of the registry are those of the answers, so there are no more of them than the
methods, the endpoints and the statuses allow.  Of endpoints and statuses there are a few.
Methods are made up by clients, and so there may be more rows than the routes account for.

Answers whose labels have the same hash share a row.
-/

namespace SearchPolling
namespace Polling

open Api (Request Response endpoints statuses)
open Metrics (Registry Series)
open Text

/-! ## The range of the labels -/

/-- The labels under which requests with these methods may be counted. -/
def requestLabels (methods : List String) : List (List String) :=
  (methods ×ˢ (endpoints ×ˢ statuses)).map fun c =>
    [c.1, c.2.1, String.ofList (Decimal.natDigits c.2.2)]

/-- The labels under which the durations of requests with these methods may be observed. -/
def durationLabels (methods : List String) : List (List String) :=
  (methods ×ˢ endpoints).map fun c => [c.1, c.2]

theorem length_requestLabels (methods : List String) :
    (requestLabels methods).length = methods.length * 88 := by
  rw [requestLabels, List.length_map, List.length_product, List.length_product]
  rfl

theorem length_durationLabels (methods : List String) :
    (durationLabels methods).length = methods.length * 11 := by
  rw [durationLabels, List.length_map, List.length_product]
  rfl

namespace Traffic

variable {κ : Type} {t : Traffic κ}

/-- The methods of the requests that were answered. -/
def methods (t : Traffic κ) : List String :=
  (t.answers.map (·.1.method)).dedup

theorem method_mem {a : Request × Response} (ha : a ∈ t.counted) : a.1.method ∈ t.methods := by
  apply List.mem_dedup.mpr
  exact List.mem_map_of_mem (List.mem_of_mem_filter ha)

theorem labels_subset (hrecorded : t.Recorded) (husual : t.Usual) :
    Series.labels t.registry.requests ⊆ requestLabels t.methods := by
  intro x hx
  rw [hrecorded.requests_eq] at hx
  obtain ⟨a, ha, rfl⟩ := List.mem_map.mp (Series.labels_tally_subset _ hx)
  have hstatus := husual.answers a (List.mem_of_mem_filter ha)
  apply List.mem_map.mpr
  refine ⟨(a.1.method, a.1.endpoint, a.2.status), ?_, rfl⟩
  exact List.pair_mem_product.mpr
    ⟨method_mem ha, List.pair_mem_product.mpr ⟨a.1.endpoint_mem, hstatus⟩⟩

theorem durations_subset (hrecorded : t.Recorded) :
    Series.labels (Series.counts t.registry.requestDurations) ⊆ durationLabels t.methods := by
  intro x hx
  rw [hrecorded.durations_eq] at hx
  obtain ⟨a, ha, rfl⟩ := List.mem_map.mp (Series.labels_tally_subset _ hx)
  apply List.mem_map.mpr
  refine ⟨(a.1.method, a.1.endpoint), ?_, rfl⟩
  exact List.pair_mem_product.mpr ⟨method_mem ha, a.1.endpoint_mem⟩

end Traffic

variable {κ : Type} [DecidableEq κ]

/-- Whatever requests are made, their labels are made of the methods that were used, the
endpoints and the statuses, so that there are at most 88 rows of counts and 11 of durations
for each method.  No text of a client but the method becomes a label. -/
theorem request_labels_range_over_methods {s : Service κ}
    (hrequests : s.world.registry.requests = [])
    (hdurations : s.world.registry.requestDurations = []) (incidents : List (Incident κ)) :
    let t := (Traffic.opened s).run incidents
    (Series.labels t.registry.requests).Nodup ∧
      Series.labels t.registry.requests ⊆ requestLabels t.methods ∧
      t.registry.requests.length ≤ t.methods.length * 88 ∧
      (Series.labels t.registry.requestDurations).Nodup ∧
      Series.labels t.registry.requestDurations ⊆ durationLabels t.methods ∧
      t.registry.requestDurations.length ≤ t.methods.length * 11 := by
  intro t
  have hrecorded : t.Recorded := (Traffic.Recorded.opened hrequests hdurations).run incidents
  have husual : t.Usual := (Traffic.Usual.opened s).run incidents
  have hcounted : (Series.labels t.registry.requests).Nodup := by
    rw [hrecorded.requests_eq]
    exact Series.nodup_labels_tally _
  have hobserved : (Series.labels (Series.counts t.registry.requestDurations)).Nodup := by
    rw [hrecorded.durations_eq]
    exact Series.nodup_labels_tally _
  have hlabels := Traffic.labels_subset hrecorded husual
  have hpairs := Traffic.durations_subset hrecorded
  have hrows := (List.subperm_of_subset hcounted hlabels).length_le
  have hrows' := (List.subperm_of_subset hobserved hpairs).length_le
  rw [length_requestLabels, Series.labels, List.length_map] at hrows
  rw [length_durationLabels, Series.labels_counts, Series.labels, List.length_map] at hrows'
  rw [Series.labels_counts] at hobserved hpairs
  exact ⟨hcounted, hlabels, hrows, hobserved, hpairs, hrows'⟩

/-- A method that was made up has a row of its own, within the range of its labels. -/
theorem labels_of_one_invented_method :
    let s : Service Unit := Launch.standard.run []
    let t := (Traffic.opened s).run
      [.receive ⟨"BREW", "/polling?persist=pot", [("host", "tea")], [1]⟩, .answer 0 0]
    s.world.registry.requests = [] ∧ s.world.registry.requestDurations = [] ∧
      Series.labels t.registry.requests = [["BREW", "/polling", "405"]] ∧
      t.methods = ["BREW"] ∧
      Series.labels t.registry.requests ⊆ requestLabels t.methods ∧
      t.registry.requestDurations.length ≤ 11 := by
  intro s t
  have hmethods : t.methods = ["BREW"] := by decide +kernel
  obtain ⟨-, hlabels, -, -, -, hrows⟩ := request_labels_range_over_methods
    (s := s) rfl rfl [.receive ⟨"BREW", "/polling?persist=pot", [("host", "tea")], [1]⟩, .answer 0 0]
  refine ⟨rfl, rfl, by decide +kernel, hmethods, hlabels, ?_⟩
  exact hrows.trans (by rw [hmethods]; decide)

/-! ## Methods that are made up -/

/-- The methods that HTTP has names for. -/
def standardMethods : List String :=
  ["GET", "HEAD", "POST", "PUT", "DELETE", "CONNECT", "OPTIONS", "TRACE", "PATCH"]

def letters : List Char :=
  "ABCDEFGHIJKLMNOPQRSTUVWXYZabcd".toList

/-- All pairs of letters, none of which is a standard method. -/
def inventedMethods : List String :=
  (letters ×ˢ letters).map fun c => String.ofList [c.1, c.2]

/-- A request with a method that was made up. -/
def invented (method : String) : Request :=
  ⟨method, "/", [], []⟩

/-- The answer to a method that the root path does not have. -/
def refused : Response :=
  (Response.empty 405).withHeaders [("allow", "GET,HEAD")]

theorem exists_letters {m : String} (h : m ∈ inventedMethods) :
    ∃ c ∈ letters, ∃ d ∈ letters, m = String.ofList [c, d] := by
  obtain ⟨⟨c, d⟩, hpair, rfl⟩ := List.mem_map.mp h
  obtain ⟨hc, hd⟩ := List.pair_mem_product.mp hpair
  exact ⟨c, hc, d, hd, rfl⟩

theorem nodup_inventedMethods : inventedMethods.Nodup := by
  have hletters : letters.Nodup := by decide
  apply (hletters.product hletters).map
  intro c d hcd
  have hchars := String.ofList_injective hcd
  simp only [List.cons.injEq, and_true] at hchars
  exact Prod.ext hchars.1 hchars.2

theorem notMem_standardMethods {m : String} (h : m ∈ inventedMethods) : m ∉ standardMethods := by
  have hlong : standardMethods.all (fun m => m.toList.length ≠ 2) = true := by decide
  obtain ⟨c, -, d, -, rfl⟩ := exists_letters h
  intro hstandard
  have hlength := List.all_eq_true.mp hlong _ hstandard
  rw [String.toList_ofList] at hlength
  exact of_decide_eq_true hlength rfl

theorem hasToken_invented {m : String} (h : m ∈ inventedMethods) :
    (invented m).hasToken = true := by
  have htokens : letters.all MediaType.isToken = true := by decide
  obtain ⟨c, hc, d, hd, rfl⟩ := exists_letters h
  have hfirst := List.all_eq_true.mp htokens c hc
  have hsecond := List.all_eq_true.mp htokens d hd
  simp [Request.hasToken, invented, hfirst, hsecond]

theorem key_of_letters {c d : Char} (hc : c ∈ letters) (hd : d ∈ letters) :
    Series.key [String.ofList [c, d]] =
      Fnv.absorb (Fnv.absorb Fnv.offset c.toUInt8) d.toUInt8 := by
  have hbytes : letters.all (fun c => String.utf8EncodeChar c = [c.toUInt8]) = true := by decide
  have hfirst := of_decide_eq_true (List.all_eq_true.mp hbytes c hc)
  have hsecond := of_decide_eq_true (List.all_eq_true.mp hbytes d hd)
  simp [Series.key, Fnv.hash, Fnv.absorbText, hfirst, hsecond]

/-- A letter that comes first is known by all but the eight lowest bits. -/
theorem letter_eq_of_shiftRight {c d : Char} (hc : c ∈ letters) (hd : d ∈ letters)
    (h : Fnv.absorb Fnv.offset c.toUInt8 >>> 8 = Fnv.absorb Fnv.offset d.toUInt8 >>> 8) :
    c = d := by
  have hall : letters.all (fun c => letters.all fun d =>
      Fnv.absorb Fnv.offset c.toUInt8 >>> 8 = Fnv.absorb Fnv.offset d.toUInt8 >>> 8 → c = d) =
        true := by
    decide +kernel
  exact of_decide_eq_true (List.all_eq_true.mp (List.all_eq_true.mp hall c hc) d hd) h

theorem letter_eq_of_toUInt8 {c d : Char} (hc : c ∈ letters) (hd : d ∈ letters)
    (h : c.toUInt8 = d.toUInt8) : c = d := by
  have hall : letters.all (fun c => letters.all fun d => c.toUInt8 = d.toUInt8 → c = d) = true := by
    decide +kernel
  exact of_decide_eq_true (List.all_eq_true.mp (List.all_eq_true.mp hall c hc) d hd) h

/-- Methods that were made up have different hashes.  The second letter changes no more than the
eight lowest bits, so that the first one is found above them. -/
theorem toldApart_inventedMethods : Series.ToldApart (inventedMethods.map fun m => [m]) := by
  intro x hx y hy hkey
  obtain ⟨m, hm, rfl⟩ := List.mem_map.mp hx
  obtain ⟨n, hn, rfl⟩ := List.mem_map.mp hy
  obtain ⟨c, hc, d, hd, rfl⟩ := exists_letters hm
  obtain ⟨c', hc', d', hd', rfl⟩ := exists_letters hn
  rw [key_of_letters hc hd, key_of_letters hc' hd'] at hkey
  obtain rfl : c = c' := by
    apply letter_eq_of_shiftRight hc hc'
    exact Fnv.shiftRight_eq_of_absorb hkey
  obtain rfl : d = d' := by
    apply letter_eq_of_toUInt8 hd hd'
    exact Fnv.absorb_right_inj.mp hkey
  rfl

/-- Labels that follow the method do not hide a difference between methods. -/
theorem toldApart_cons {methods : List String}
    (h : Series.ToldApart (methods.map fun m => [m])) (rest : List String) :
    Series.ToldApart (methods.map fun m => m :: rest) := by
  intro x hx y hy hkey
  obtain ⟨m, hm, rfl⟩ := List.mem_map.mp hx
  obtain ⟨n, hn, rfl⟩ := List.mem_map.mp hy
  have hmethods : Series.key [m] = Series.key [n] := (Fnv.hash_append_left_inj rest).mp hkey
  have hsame := h [m] (List.mem_map_of_mem hm) [n] (List.mem_map_of_mem hn) hmethods
  rw [List.head_eq_of_cons_eq hsame]

section Invented

variable {m : String}

theorem route_invented (m : String) : (invented m).route? = some .root := by
  have hsame : (invented m).route? = (invented "GET").route? := rfl
  rw [hsame]
  decide +kernel

theorem endpoint_invented (m : String) : (invented m).endpoint = "/" := by
  rw [Request.endpoint, route_invented]
  rfl

theorem isPreflight_invented (h : m ∉ standardMethods) : (invented m).isPreflight = false := by
  apply decide_eq_false
  rintro rfl
  exact h (by decide)

theorem action_invented (h : m ∉ standardMethods) : (invented m).action = .reply refused := by
  have hget : m ≠ "GET" := by
    rintro rfl
    exact h (by decide)
  have hhead : m ≠ "HEAD" := by
    rintro rfl
    exact h (by decide)
  have hmethod : (invented m).method = m := rfl
  simp [Request.action, route_invented, hmethod, Api.Route.method, Api.Method.accepts, hget, hhead,
    refused, Api.Method.allowed]

theorem answered_invented (s : Service κ) (h : m ∉ standardMethods) :
    ∃ u, Service.Answered (invented m) 0 s (refused.sent (invented m)) u := by
  have haccepted : (s.accept (invented m)).1 = .answered refused := by
    simp only [Service.accept, Api.receive, action_invented h]
  exact ⟨_, .atOnce (isPreflight_invented h) haccepted⟩

end Invented

/-- A client may use any methods that are not standard, one after another. -/
theorem exists_run_invented (s : Service κ) {methods : List String}
    (h : ∀ m ∈ methods, m ∉ standardMethods) :
    ∃ (incidents : List (Incident κ)) (u : Service κ),
      (∀ r, .receive r ∈ incidents → ∃ m ∈ methods, r = invented m) ∧
      (Traffic.opened s).run incidents =
        ⟨u, [], methods.map fun m => (invented m, refused.sent (invented m))⟩ := by
  induction methods using List.reverseRecOn with
  | nil => exact ⟨[], s, by simp, rfl⟩
  | append_singleton methods m ih =>
      obtain ⟨incidents, u, hmade, hrun⟩ :=
        ih fun n hn => h n (List.mem_append_left _ hn)
      have hlast : m ∈ methods ++ [m] := List.mem_append_right _ (List.mem_singleton_self m)
      obtain ⟨v, hanswered⟩ := answered_invented u (h m hlast)
      obtain ⟨more, hmore, hmorerun⟩ := Traffic.exists_run_of_answered hanswered
        (methods.map fun m => (invented m, refused.sent (invented m)))
      refine ⟨incidents ++ more, v, ?_, ?_⟩
      · intro r hr
        rcases List.mem_append.mp hr with hbefore | hafter
        · obtain ⟨n, hn, hmade⟩ := hmade r hbefore
          exact ⟨n, List.mem_append_left _ hn, hmade⟩
        · exact ⟨m, hlast, hmore r hafter⟩
      · rw [Traffic.run_append, hrun, hmorerun, List.map_append]
        rfl

namespace Traffic

omit [DecidableEq κ] in
/-- The labels of requests with methods that were made up. -/
theorem labels_of_invented {t : Traffic κ} {methods : List String}
    (h : ∀ m ∈ methods, m ∉ standardMethods)
    (hanswers : t.answers = methods.map fun m => (invented m, refused.sent (invented m))) :
    t.counted.map labelsOf = (methods.map fun m => [m, "/", "405"]) ∧
      t.counted.map durationLabelsOf = methods.map fun m => [m, "/"] := by
  have hcounted : t.counted = t.answers := by
    rw [counted, hanswers, List.filter_eq_self]
    intro a ha
    obtain ⟨m, hm, rfl⟩ := List.mem_map.mp ha
    rw [isPreflight_invented (h m hm), Bool.not_false]
  have hlabels (m : String) :
      labelsOf (invented m, refused.sent (invented m)) = [m, "/", "405"] := by
    have hstatus : (refused.sent (invented m)).status = 405 := Response.status_sent _ _
    have hdigits : String.ofList (Decimal.natDigits 405) = "405" := by decide
    rw [labelsOf, endpoint_invented, hstatus, hdigits]
    rfl
  have hpairs (m : String) :
      durationLabelsOf (invented m, refused.sent (invented m)) = [m, "/"] := by
    rw [durationLabelsOf, endpoint_invented]
    rfl
  rw [hcounted, hanswers, List.map_map, List.map_map]
  constructor
  · exact List.map_congr_left fun m _ => hlabels m
  · exact List.map_congr_left fun m _ => hpairs m

end Traffic

/-- Rows that were opened for different methods, each once, are as many as the methods. -/
theorem rows_of_methods {methods : List String} (hnodup : methods.Nodup)
    (h : Series.ToldApart (methods.map fun m => [m])) (rest : List String) :
    (Series.tally (methods.map fun m => m :: rest)).length = methods.length ∧
      ∀ m ∈ methods, m :: rest ∈ Series.labels (Series.tally (methods.map fun m => m :: rest)) := by
  have hdistinct : (methods.map fun m => m :: rest).Nodup := by
    apply hnodup.map
    intro m n hmn
    exact List.head_eq_of_cons_eq hmn
  have hperm := (toldApart_cons h rest).tally_perm
  rw [hdistinct.dedup] at hperm
  constructor
  · rw [hperm.length_eq, List.length_map, List.length_map]
  · intro m hm
    have hused : m :: rest ∈ methods.map fun m => m :: rest := List.mem_map_of_mem hm
    exact List.mem_map.mpr ⟨_, hperm.mem_iff.mpr (List.mem_map_of_mem hused), rfl⟩

/-- Methods that clients make up become labels, each in rows of its own, and open more rows than
there are labels for all routes with all standard methods. -/
theorem invented_methods_outnumber_routes :
    ∃ incidents : List (Incident Unit),
      let t := (Traffic.opened (Launch.standard.run [])).run incidents
      (∀ r, .receive r ∈ incidents → r.hasToken = true) ∧
      (∀ m ∈ inventedMethods, m ∉ standardMethods ∧
        [m, "/", "405"] ∈ Series.labels t.registry.requests ∧
        [m, "/"] ∈ Series.labels t.registry.requestDurations) ∧
      (requestLabels standardMethods).length < t.registry.requests.length ∧
      (durationLabels standardMethods).length < t.registry.requestDurations.length := by
  have hstandard : ∀ m ∈ inventedMethods, m ∉ standardMethods := fun m hm =>
    notMem_standardMethods hm
  obtain ⟨incidents, u, hmade, hrun⟩ :=
    exists_run_invented (Launch.standard.run [] : Service Unit) hstandard
  refine ⟨incidents, ?_⟩
  intro t
  have hrecorded : t.Recorded := (Traffic.Recorded.opened rfl rfl).run incidents
  have hanswers : t.answers =
      inventedMethods.map fun m => (invented m, refused.sent (invented m)) :=
    congrArg Traffic.answers hrun
  obtain ⟨hlabels, hpairs⟩ := Traffic.labels_of_invented hstandard hanswers
  obtain ⟨hrows, hopened⟩ :=
    rows_of_methods nodup_inventedMethods toldApart_inventedMethods ["/", "405"]
  obtain ⟨hrows', hopened'⟩ :=
    rows_of_methods nodup_inventedMethods toldApart_inventedMethods ["/"]
  rw [← hlabels, ← hrecorded.requests_eq] at hrows hopened
  rw [← hpairs, ← hrecorded.durations_eq] at hrows' hopened'
  rw [Series.labels_counts] at hopened'
  rw [Series.counts, List.length_map] at hrows'
  have hmany : inventedMethods.length = 900 := by
    rw [inventedMethods, List.length_map, List.length_product]
    rfl
  refine ⟨?_, ?_, ?_, ?_⟩
  · intro r hr
    obtain ⟨m, hm, rfl⟩ := hmade r hr
    exact hasToken_invented hm
  · intro m hm
    exact ⟨hstandard m hm, hopened m hm, hopened' m hm⟩
  · rw [hrows, hmany, length_requestLabels]
    decide
  · rw [hrows', hmany, length_durationLabels]
    decide

/-! ## Every answer is counted once -/

/-- Every request that is answered is counted once, under its method, its endpoint and the
status that was sent, unless it is for the options of a path, and its duration is observed once.
Labels with one hash share a row.  If no labels do, each histogram of durations has as many
observations as the counters of its method and endpoint have counted together.  The numbers are
those of requests; a counter shows them up to `2^53`. -/
theorem answered_requests_are_counted_once {s : Service κ}
    (hrequests : s.world.registry.requests = [])
    (hdurations : s.world.registry.requestDurations = []) (incidents : List (Incident κ)) :
    let t := (Traffic.opened s).run incidents
    let used := t.counted.map labelsOf
    let timed := t.counted.map durationLabelsOf
    Series.Tallied used t.registry.requests ∧
      Series.Tallied timed (Series.counts t.registry.requestDurations) ∧
      (Series.ToldApart used → Series.ToldApart timed → ∀ row ∈ t.registry.requestDurations,
        row.2.count = Series.sumWhere (fun x => x.take 2 = row.1) t.registry.requests) := by
  intro t used timed
  have hrecorded : t.Recorded := (Traffic.Recorded.opened hrequests hdurations).run incidents
  rw [hrecorded.requests_eq, hrecorded.durations_eq]
  refine ⟨Series.tallied_tally used, Series.tallied_tally timed, ?_⟩
  intro hused htimed row hrow
  have hmem : (row.1, row.2.count) ∈ Series.counts t.registry.requestDurations :=
    List.mem_map_of_mem (f := fun row => (row.1, row.2.count)) hrow
  rw [hrecorded.durations_eq] at hmem
  calc
    row.2.count = timed.count row.1 := htimed.count_of_mem hmem
    _ = used.countP fun x => x.take 2 = row.1 := by
      rw [List.count_eq_countP, List.countP_map, List.countP_map]
      apply List.countP_congr
      intro a _
      rw [Function.comp_apply, Function.comp_apply, beq_iff_eq]
      exact (decide_eq_true_iff (p := [a.1.method, a.1.endpoint] = row.1)).symm
    _ = Series.sumWhere (fun x => x.take 2 = row.1) (Series.tally used) :=
      (hused.sumWhere_tally _).symm

/-- Of three answers the one to a request for options is not counted. -/
theorem two_of_three_counted :
    let s : Service Unit := Launch.standard.run []
    let incidents : List (Incident Unit) :=
      [.receive ⟨"GET", "/health", [], []⟩, .receive ⟨"OPTIONS", "/health", [], []⟩,
        .receive ⟨"BREW", "/pot", [], []⟩, .answer 1 0, .answer 0 0]
    let t := (Traffic.opened s).run incidents
    s.world.registry.requests = [] ∧ s.world.registry.requestDurations = [] ∧
      t.answers.length = 3 ∧ Series.total t.registry.requests = 2 ∧
      t.registry.requests = [(["BREW", "unmatched", "404"], 1), (["GET", "/health", "200"], 1)] ∧
      Series.ToldApart (t.counted.map labelsOf) ∧
      Series.ToldApart (t.counted.map durationLabelsOf) ∧
      ∀ row ∈ t.registry.requestDurations,
        row.2.count = Series.sumWhere (fun x => x.take 2 = row.1) t.registry.requests := by
  intro s incidents t
  obtain ⟨hcounts, -, hdurations⟩ :=
    answered_requests_are_counted_once (s := s) rfl rfl incidents
  have hcounted : t.counted.map labelsOf =
      [["BREW", "unmatched", "404"], ["GET", "/health", "200"]] := by decide +kernel
  have htimed : t.counted.map durationLabelsOf = [["BREW", "unmatched"], ["GET", "/health"]] := by
    decide +kernel
  have hused : Series.ToldApart (t.counted.map labelsOf) := by
    rw [hcounted]
    unfold Series.ToldApart
    decide
  have hpairs : Series.ToldApart (t.counted.map durationLabelsOf) := by
    rw [htimed]
    unfold Series.ToldApart
    decide
  have htotal : Series.total t.registry.requests = 2 := by
    rw [hcounts.total_eq, hcounted]
    rfl
  exact ⟨rfl, rfl, by decide +kernel, htotal, by decide +kernel, hused, hpairs,
    hdurations hused hpairs⟩

/-- Two methods whose labels have one hash, so that answers to them share a row. -/
example : Series.key ["8yn0iYCKYHlIj4-BwPqk", "/", "405"] =
    Series.key ["GReLUrM4wMqfg9yzV3KQ", "/", "405"] := by
  decide

/-- A request for the options of a path is answered and counted nowhere. -/
theorem options_answered_uncounted :
    let t := (Traffic.opened (Launch.standard.run [] : Service Unit)).run
      [.receive ⟨"OPTIONS", "/polling", [], []⟩]
    t.answers.map (·.2.status) = [200] ∧ Series.total t.registry.requests = 0 ∧
      t.registry.requestDurations.length = 0 := by
  decide +kernel

end Polling
end SearchPolling
