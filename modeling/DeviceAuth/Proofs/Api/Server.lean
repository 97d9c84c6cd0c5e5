import DeviceAuth.Api.Server
import DeviceAuth.Proofs.Api.Bearer
import DeviceAuth.Proofs.Record
import DeviceAuth.Proofs.Trace

/-! What the server does before it knows who is asking. A request without a bearer token is answered
from its head alone. -/
namespace DeviceAuth.Api

namespace ErrorBody

def Members.ofBody (b : ErrorBody) : Members := ⟨some b.code, some b.message⟩

theorem isExact_toJson (b : ErrorBody) : b.toJson.IsExact := by
  refine .object fun m hm => ?_
  simp only [List.mem_cons, List.not_mem_nil, or_false] at hm
  rcases hm with rfl | rfl
  · exact .string b.code
  · exact .string b.message

theorem decoder_reading (b : ErrorBody) (levels : Nat) :
    decoder (levels + 2) b.toJson.reading = .ok b := by
  have hcode := Json.Decoder.string_reading (levels + 1) b.code
  have hmessage := Json.Decoder.string_reading (levels + 1) b.message
  refine (Json.Decoder.Shape.decoder_object (s := Members.ofBody b) ?_).trans rfl
  simp only [List.map_cons, List.map_nil]
  rw [Json.Decoder.Shape.fromMembers_cons hcode rfl rfl,
    Json.Decoder.Shape.fromMembers_cons hmessage rfl rfl]
  rfl

end ErrorBody

theorem decode_errorResponse (e : Error) :
    Json.decode ErrorBody.decoder (errorResponse e).body = .ok ⟨e.kind.name, e.message⟩ := by
  rw [errorResponse, jsonResponse, Json.decode_compact _ (ErrorBody.isExact_toJson _)]
  exact ErrorBody.decoder_reading (.ofError e) 126

theorem Route.isGuarded_iff (r : Route) :
    r.isGuarded = true ↔ Text.startsWith r.path pathStart = true := by
  rcases r with t | _ | _ | _
  · cases t <;> decide
  all_goals decide

namespace Server

variable (s : Server) {q : Http.Request}

theorem exists_handle_eq_done [Url.Idna] (hlacks : LacksBearer q.headers) :
    ∃ r : Http.Response, s.handle q = .done r := by
  obtain ⟨reason, hbearer⟩ := unauthenticated_of_lacksBearer hlacks
  unfold handle
  cases Route.ofPath? q.path with
  | none => exact ⟨_, rfl⟩
  | some route =>
    by_cases hallows : route.allows q.method
    · cases route <;> simp only [handleRoute, Route.isGuarded, hbearer, dispatch, hallows, serve,
        if_true, Bool.false_eq_true, if_false] <;> exact ⟨_, rfl⟩
    · cases route <;> simp only [handleRoute, Route.isGuarded, hbearer, dispatch, hallows,
        if_true, Bool.false_eq_true, if_false] <;> exact ⟨_, rfl⟩

theorem handle_guarded [Url.Idna] {route : Route} (hpath : q.path = route.path)
    (hguarded : route.isGuarded)
    (hallows : route.allows q.method) {reason : String}
    (hbearer : bearer q.headers = .error (.unauthenticated reason)) :
    s.handle q = .done (headOnly q.method (errorResponse (.unauthenticated reason))) := by
  have hroute : s.handleRoute route q = .done (errorResponse (.unauthenticated reason)) := by
    simp only [handleRoute, hguarded, if_true, hbearer, withAllow, hallows]
  rw [handle, hpath, Route.ofPath?_path]
  dsimp only
  rw [hroute]
  rfl

structure IsUnauthenticated (method : String) (r : Http.Response) : Prop where
  status : r.status = 401
  /-- Only the head of an answer has no body. -/
  body : method ≠ "HEAD" →
    ∃ message, Json.decode ErrorBody.decoder r.body = .ok ⟨"unauthenticated", message⟩

theorem isUnauthenticated_errorResponse (method reason : String) :
    IsUnauthenticated method (headOnly method (errorResponse (.unauthenticated reason))) := by
  by_cases hhead : method = "HEAD"
  · simp only [headOnly, hhead, if_true]
    exact ⟨rfl, fun h => absurd rfl h⟩
  · simp only [headOnly, hhead, if_false]
    exact ⟨rfl, fun _ => ⟨_, decode_errorResponse _⟩⟩

/-- A request without a bearer token neither touches the records nor makes the server ask anyone,
and a route that is asked for in its own way answers that the caller is not known, whatever else the
request holds. -/
theorem inert_of_lacksBearer [Url.Idna] (hlacks : LacksBearer q.headers) (w : World) :
    ((w.run (s.handle q)).2 = w ∧ w.trace (s.handle q) = []) ∧
    ∀ route : Route, q.path = route.path → Text.startsWith route.path pathStart = true →
      route.allows q.method = true → IsUnauthenticated q.method (w.run (s.handle q)).1 := by
  constructor
  · obtain ⟨r, hr⟩ := s.exists_handle_eq_done hlacks
    rw [hr]
    exact ⟨rfl, rfl⟩
  · intro route hpath hstart hallows
    obtain ⟨reason, hbearer⟩ := unauthenticated_of_lacksBearer hlacks
    rw [s.handle_guarded hpath (route.isGuarded_iff.mpr hstart) hallows hbearer]
    exact isUnauthenticated_errorResponse q.method reason

def sample : Server :=
  ⟨⟨⟨.empty, ⟨"http", "", "", none, none, .segments [], none, none⟩, .default⟩,
    Record.sample.provider, Service.Verifier.ofStore⟩, .empty, .empty⟩

def sampleRequest : Http.Request :=
  ⟨"POST", "/api/v1/sign-up", none, ⟨[("Authorization", Text.utf8 "Basic YTpi")]⟩,
    Text.utf8 "nothing to read"⟩

theorem inert_of_lacksBearer_password :
    LacksBearer sampleRequest.headers ∧ ∀ w : World,
      (w.run (sample.handle sampleRequest)).2 = w ∧ w.trace (sample.handle sampleRequest) = [] ∧
      IsUnauthenticated "POST" (w.run (sample.handle sampleRequest)).1 := by
  have htext : Http.Headers.textOf? (Text.utf8 "Basic YTpi") = some ("Basic" ++ " " ++ "YTpi") := by
    decide
  have hlacks : LacksBearer sampleRequest.headers :=
    .otherScheme (by decide) htext (by decide) (by decide)
  refine ⟨hlacks, fun w => ?_⟩
  obtain ⟨⟨hworld, htrace⟩, hroutes⟩ := sample.inert_of_lacksBearer hlacks w
  exact ⟨hworld, htrace, hroutes (.task .signUp) (by decide) (by decide) (by decide)⟩

end Server

end DeviceAuth.Api
