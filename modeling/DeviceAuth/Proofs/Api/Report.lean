import DeviceAuth.Proofs.Api.Server

/-! What a failed request is told. A handler that fails answers with the kind and the message of
its error, and so do the gate and the answer to unknown paths. Two kinds of requests are turned away
by what stands before the handlers, and learn nothing but a status or a line of plain text. -/
namespace DeviceAuth.Api

namespace Audience

theorem ofName?_eq_some_iff {v : String} {a : Audience} : ofName? v = some a ↔ v = a.name := by
  constructor
  · intro h
    have hfound := List.find?_some h
    simpa [eq_comm] using hfound
  · rintro rfl
    cases a <;> decide

def given (pairs : List (String × String)) : List String :=
  (pairs.filter (·.1 = key)).map (·.2)

theorem given_cons (k v : String) (rest : List (String × String)) :
    given ((k, v) :: rest) = if k = key then v :: given rest else given rest := by
  by_cases hk : k = key <;> simp [given, hk]

theorem exists_ofPairs_eq_ok_iff {seen : Option Audience} {pairs : List (String × String)} :
    (∃ found, ofPairs seen pairs = .ok found) ↔
      given pairs = [] ∨ seen = none ∧ ∃ a : Audience, given pairs = [a.name] := by
  induction pairs generalizing seen with
  | nil => simp [ofPairs, given]
  | cons pair rest ih =>
    obtain ⟨k, v⟩ := pair
    rw [given_cons, ofPairs]
    by_cases hk : k = key
    · cases seen with
      | some a => simp [hk]
      | none =>
        cases hname : ofName? v with
        | none =>
          have hv (a : Audience) : v ≠ a.name := fun h => by
            simp [ofName?_eq_some_iff.mpr h] at hname
          simp [hk, hv]
        | some a =>
          obtain rfl := ofName?_eq_some_iff.mp hname
          simp [hk, ih]
    · simp [hk, ih]

def pairsOf (query : Option String) : List (String × String) :=
  query.elim [] fun text => Encoding.Form.decode (Text.utf8 text)

theorem ofQuery_eq (query : Option String) :
    ofQuery query = (ofPairs none (pairsOf query)).map fun found => found.getD .device := by
  cases query <;> rfl

/-- A query names an audience once, or leaves it open. -/
def IsReadable (query : Option String) : Prop :=
  given (pairsOf query) = [] ∨ ∃ a : Audience, given (pairsOf query) = [a.name]

theorem isReadable_iff {query : Option String} :
    IsReadable query ↔ ∃ audience, ofQuery query = .ok audience := by
  have hpairs : (∃ found, ofPairs none (pairsOf query) = .ok found) ↔ IsReadable query :=
    exists_ofPairs_eq_ok_iff.trans (by simp [IsReadable])
  rw [← hpairs, ofQuery_eq]
  constructor
  · rintro ⟨found, hfound⟩
    exact ⟨_, by rw [hfound]; rfl⟩
  · rintro ⟨audience, haudience⟩
    obtain ⟨found, hfound, -⟩ := Except.map_ok haudience
    exact ⟨found, hfound⟩

theorem not_isReadable_iff {query : Option String} :
    ¬IsReadable query ↔ ∃ reason, ofQuery query = .error reason := by
  rw [isReadable_iff]
  cases ofQuery query <;> simp

end Audience

namespace Server

/-- An answer that reports an error: the status is the error's, and the body is an object with the
name of its kind and its message. -/
structure Reports (e : Error) (method : String) (r : Http.Response) : Prop where
  status : r.status = e.httpStatus
  announced : r.headers.get? "content-type" = some (Text.utf8 "application/json")
  /-- Only the head of an answer has no body. -/
  body : method ≠ "HEAD" → Json.decode Json.Decoder.value r.body =
    .ok (.object [("code", .string e.kind.name), ("message", .string e.message)])

/-- Requests for something that is there that no handler gets to see: those with a wrong method,
behind the gate, and those whose query cannot be read. -/
inductive TurnedAway (q : Http.Request) : Prop where
  | method {route : Route} (hpath : q.path = route.path)
    (hgate : route.isGuarded = true → ¬LacksBearer q.headers)
    (hmethod : route.allows q.method = false)
  | query (hpath : q.path = Route.authorizeUrl.path) (hgate : ¬LacksBearer q.headers)
    (hmethod : Route.authorizeUrl.allows q.method = true) (hquery : ¬Audience.IsReadable q.query)

theorem decode_value_errorResponse (e : Error) :
    Json.decode Json.Decoder.value (errorResponse e).body =
      .ok (.object [("code", .string e.kind.name), ("message", .string e.message)]) := by
  rw [errorResponse, jsonResponse, Json.decode_compact _ (ErrorBody.isExact_toJson _)]
  simp only [ErrorBody.toJson, ErrorBody.ofError, Json.reading, Json.Decoder.value,
    Json.maxLevels, List.map_cons, List.map_nil, List.mapM_cons, List.mapM_nil,
    Json.RawString.decode_ofString]
  rfl

@[simp] theorem status_headOnly (method : String) (r : Http.Response) :
    (headOnly method r).status = r.status := by
  unfold headOnly
  split <;> rfl

@[simp] theorem headers_headOnly (method : String) (r : Http.Response) :
    (headOnly method r).headers = r.headers := by
  unfold headOnly
  split <;> rfl

@[simp] theorem status_withAllow (route : Route) (method : String) (r : Http.Response) :
    (withAllow route method r).status = r.status := by
  unfold withAllow
  split <;> rfl

theorem reports_errorResponse (e : Error) (method : String) : Reports e method (errorResponse e) :=
  ⟨rfl, rfl, fun _ => decode_value_errorResponse e⟩

variable {e : Error} {method : String} {r : Http.Response}

theorem Reports.headOnly (h : Reports e method r) : Reports e method (headOnly method r) := by
  refine ⟨by simpa using h.status, by simpa using h.announced, fun hhead => ?_⟩
  rw [Server.headOnly, if_neg hhead]
  exact h.body hhead

theorem Reports.withAllow (h : Reports e method r) (route : Route) :
    Reports e method (withAllow route method r) := by
  unfold Server.withAllow
  split
  · exact h
  · refine ⟨h.status, ?_, h.body⟩
    obtain ⟨field, hfield, hvalue⟩ := Option.map_eq_some_iff.mp h.announced
    rw [Http.Headers.get?, List.find?_append, hfield]
    exact congrArg some hvalue

theorem not_reports_wrongMethod (e : Error) (route : Route) (method : String) :
    ¬Reports e method (Server.headOnly method (Server.withAllow route method ⟨405, ⟨[]⟩, []⟩)) := by
  intro h
  have hstatus := h.status
  rw [status_headOnly, status_withAllow] at hstatus
  cases e <;> cases hstatus

theorem not_reports_queryResponse (e : Error) (method reason : String) :
    ¬Reports e method (Server.headOnly method (queryResponse reason)) := by
  intro h
  have hannounced := h.announced
  have hplain : (queryResponse reason).headers.get? "content-type" =
      some (Text.utf8 "text/plain; charset=utf-8") := rfl
  rw [headers_headOnly, hplain] at hannounced
  exact absurd hannounced (by decide)

variable {s : Server} {q : Http.Request} {route : Route} {bearer : String} {trace : Trace}
  {answer : Http.Response}

theorem respond_yields {c : Command Json} (h : (respond c).Yields trace answer) :
    answer.isSuccess = true ∨ ∃ e, answer = errorResponse e := by
  obtain ⟨before, result, after, -, -, hafter⟩ := h.of_bind
  cases result with
  | ok body =>
    cases hafter
    exact .inl rfl
  | error e =>
    cases hafter
    exact .inr ⟨e, rfl⟩

theorem serve_yields [Url.Idna] (h : (s.serve bearer route q).Yields trace answer) :
    (route = .authorizeUrl ∧ ¬Audience.IsReadable q.query) ∧
        (∃ reason, answer = queryResponse reason) ∨
      ¬(route = .authorizeUrl ∧ ¬Audience.IsReadable q.query) ∧
        (answer.isSuccess = true ∨ ∃ e, answer = errorResponse e) := by
  cases route with
  | task task => exact .inr ⟨by simp, respond_yields h⟩
  | authorizeUrl =>
    unfold serve at h
    cases hquery : Audience.ofQuery q.query with
    | ok audience =>
      rw [hquery] at h
      have hreadable := Audience.isReadable_iff.mpr ⟨audience, hquery⟩
      exact .inr ⟨by simp [hreadable], respond_yields h⟩
    | error reason =>
      rw [hquery] at h
      cases h
      have hunreadable := Audience.not_isReadable_iff.mpr ⟨reason, hquery⟩
      exact .inl ⟨⟨rfl, hunreadable⟩, reason, rfl⟩
  | wellKnown =>
    cases h
    exact .inr ⟨by simp, .inl rfl⟩
  | health =>
    cases h
    exact .inr ⟨by simp, .inl rfl⟩

theorem turnedAway_iff (hpath : q.path = route.path) :
    TurnedAway q ↔ (route.isGuarded = true → ¬LacksBearer q.headers) ∧
      (route.allows q.method = false ∨
        route.allows q.method = true ∧ route = .authorizeUrl ∧ ¬Audience.IsReadable q.query) := by
  have hroute {other : Route} (hother : q.path = other.path) : other = route := by
    have hsame := congrArg Route.ofPath? (hother.symm.trans hpath)
    simpa only [Route.ofPath?_path, Option.some.injEq] using hsame
  constructor
  · rintro (⟨hother, hgate, hmethod⟩ | ⟨hother, hgate, hmethod, hquery⟩)
    · obtain rfl := hroute hother
      exact ⟨hgate, .inl hmethod⟩
    · obtain rfl := hroute hother
      exact ⟨fun _ => hgate, .inr ⟨hmethod, rfl, hquery⟩⟩
  · rintro ⟨hgate, hmethod | ⟨hmethod, rfl, hquery⟩⟩
    · exact .method hpath hgate hmethod
    · exact .query hpath (hgate rfl) hmethod hquery

/-- Behind the gate, a request comes to its handler or is turned away. -/
theorem dispatch_yields [Url.Idna] (hpath : q.path = route.path)
    (hgate : route.isGuarded = true → ¬LacksBearer q.headers)
    (h : (s.dispatch bearer route q).Yields trace answer)
    (hfailed : answer.isSuccess = false) :
    (∃ e, Reports e q.method (headOnly q.method answer)) ↔ ¬TurnedAway q := by
  rw [turnedAway_iff hpath]
  unfold dispatch at h
  by_cases hallows : route.allows q.method = true
  · rw [if_pos hallows] at h
    rcases serve_yields h with ⟨hquery, reason, rfl⟩ | ⟨hquery, hsuccess | ⟨e, rfl⟩⟩
    · refine iff_of_false ?_ (not_not_intro ⟨hgate, .inr ⟨hallows, hquery⟩⟩)
      rintro ⟨e, hreports⟩
      exact not_reports_queryResponse e q.method reason hreports
    · rw [hsuccess] at hfailed
      cases hfailed
    · refine iff_of_true ⟨e, (reports_errorResponse e q.method).headOnly⟩ ?_
      rintro ⟨-, hmethod | ⟨-, hquery'⟩⟩
      · rw [hallows] at hmethod
        cases hmethod
      · exact hquery hquery'
  · have hmethod : route.allows q.method = false := Bool.not_eq_true _ ▸ hallows
    rw [if_neg hallows] at h
    cases h
    refine iff_of_false ?_ (not_not_intro ⟨hgate, .inl hmethod⟩)
    rintro ⟨e, hreports⟩
    exact not_reports_wrongMethod e route q.method hreports

/-- Whatever others do meanwhile, a failed request is answered with an error, its kind, message and
status, exactly if it is not turned away. -/
theorem reports_iff_of_failed [Url.Idna] (h : (s.handle q).Yields trace r)
    (hfailed : r.isSuccess = false) :
    (∃ e, Reports e q.method r) ↔ ¬TurnedAway q := by
  obtain ⟨before, answer, after, -, hroute, hhead⟩ := h.of_bind
  cases hhead
  have hfailed : answer.isSuccess = false := by
    simpa only [Http.Response.isSuccess, status_headOnly] using hfailed
  cases hfound : Route.ofPath? q.path with
  | none =>
    rw [hfound] at hroute
    cases hroute
    refine iff_of_true ⟨_, (reports_errorResponse _ q.method).headOnly⟩ ?_
    rintro (⟨hpath, -, -⟩ | ⟨hpath, -, -, -⟩) <;>
      simp [hpath, Route.ofPath?_path] at hfound
  | some route =>
    have hpath := (Route.path_of_ofPath? hfound).symm
    rw [hfound] at hroute
    dsimp only at hroute
    unfold handleRoute at hroute
    split at hroute
    · rename_i hguarded
      split at hroute
      · rename_i e hbearer
        cases hroute
        refine iff_of_true ⟨e, ((reports_errorResponse e q.method).withAllow route).headOnly⟩ ?_
        rw [turnedAway_iff hpath]
        exact fun hturned => hturned.1 hguarded (lacksBearer_of_error hbearer)
      · rename_i token hbearer
        refine dispatch_yields hpath (fun _ hlacks => ?_) hroute hfailed
        obtain ⟨reason, hrefused⟩ := unauthenticated_of_lacksBearer hlacks
        simp [hbearer] at hrefused
    · rename_i hguarded
      exact dispatch_yields hpath (fun h => absurd h hguarded) hroute hfailed

def emptyRequest : Http.Request :=
  ⟨"POST", "/api/v1/sign-up", none,
    ⟨[("authorization", Text.utf8 "Bearer t"), ("content-type", Text.utf8 "application/json")]⟩, []⟩

theorem reports_emptyRequest :
    ∃ r, sample.handle emptyRequest = .done r ∧ r.isSuccess = false ∧
      ∃ e, Reports e emptyRequest.method r := by
  have hyields : (sample.handle emptyRequest).Yields [] _ := .done _
  refine ⟨_, rfl, rfl, (reports_iff_of_failed hyields rfl).mpr ?_⟩
  have hpath : emptyRequest.path = (Route.task .signUp).path := rfl
  rw [turnedAway_iff hpath]
  rintro ⟨-, hmethod | ⟨-, hroute, -⟩⟩
  · exact absurd hmethod (by decide)
  · cases hroute

def strayQuery : Http.Request :=
  ⟨"GET", "/api/v1/authorize-url", some "client=web",
    ⟨[("authorization", Text.utf8 "Bearer t")]⟩, []⟩

def strayMethod : Http.Request := ⟨"POST", "/health", none, ⟨[]⟩, []⟩

theorem not_reports_stray :
    (∃ r, sample.handle strayQuery = .done r ∧ r.isSuccess = false ∧
      ∀ e, ¬Reports e strayQuery.method r) ∧
    ∃ r, sample.handle strayMethod = .done r ∧ r.isSuccess = false ∧
      ∀ e, ¬Reports e strayMethod.method r :=
  ⟨⟨_, rfl, rfl, fun e => not_reports_queryResponse e "GET" _⟩,
    ⟨_, rfl, rfl, fun e => not_reports_wrongMethod e .health "POST"⟩⟩

end Server

end DeviceAuth.Api
