import DeviceAuth.Proofs.Api.Bearer
import DeviceAuth.Proofs.Api.Transparency

/-! The well-known document on its way. What a server holds is what a client of it gets, whatever
the texts of the document are, and the client refuses a document by the first of its mandatory
members that shows nothing. -/
namespace DeviceAuth

def Text.Shows (s : String) : Prop := ∃ c ∈ s.toList, isBlank c = false

theorem Text.shows_iff {s : String} : Shows s ↔ trim s ≠ "" := by
  simp [Shows, trim_eq_empty_iff]

open Json.Decoder (string_reading strings_reading)
open Json.Decoder.Shape (decoder_object fromMembers_cons)

theorem WebClient.isExact_toJson (c : WebClient) : c.toJson.IsExact := by simp [toJson]

theorem WebClient.decoder_reading (c : WebClient) (levels : Nat) :
    decoder (levels + 3) c.toJson.reading = .ok c := by
  have hclient := string_reading (levels + 2) c.clientId
  have haudience := string_reading (levels + 2) c.audience
  have hscopes := strings_reading levels c.scopes
  let s : Members := ⟨some c.clientId, some c.audience, some c.scopes⟩
  refine (decoder_object (s := s) ?_).trans rfl
  simp only [List.map_cons, List.map_nil]
  rw [fromMembers_cons hclient rfl rfl, fromMembers_cons haudience rfl rfl,
    fromMembers_cons hscopes rfl rfl]
  rfl

theorem DeviceClient.isExact_toJson (c : DeviceClient) : c.toJson.IsExact := by simp [toJson]

theorem DeviceClient.decoder_reading (c : DeviceClient) (levels : Nat) :
    decoder (levels + 3) c.toJson.reading = .ok c := by
  have hclient := string_reading (levels + 2) c.clientId
  have haudience := string_reading (levels + 2) c.audience
  have hscopes := strings_reading levels c.scopes
  have hprovider := string_reading (levels + 2) c.providerName
  have hredirect := string_reading (levels + 2) c.redirectUrl
  have hmode := string_reading (levels + 2) c.responseMode
  let s : Members := ⟨some c.clientId, some c.audience, some c.scopes, some c.providerName,
    some c.redirectUrl, some c.responseMode⟩
  refine (decoder_object (s := s) ?_).trans rfl
  simp only [List.map_cons, List.map_nil]
  rw [fromMembers_cons hclient rfl rfl, fromMembers_cons haudience rfl rfl,
    fromMembers_cons hscopes rfl rfl, fromMembers_cons hprovider rfl rfl,
    fromMembers_cons hredirect rfl rfl, fromMembers_cons hmode rfl rfl]
  rfl

namespace WellKnown

open Api (Route Server jsonResponse)

variable {base : Url}

theorem isExact_toJson (d : WellKnown) : d.toJson.IsExact := by
  simp [toJson, WebClient.isExact_toJson, DeviceClient.isExact_toJson]

theorem decoder_reading (d : WellKnown) (levels : Nat) :
    decoder (levels + 4) d.toJson.reading = .ok d := by
  have hauthority := string_reading (levels + 3) d.authority
  have hgateway := string_reading (levels + 3) d.httpGatewayAddress
  have hweb := d.webClient.decoder_reading levels
  have hdevice := d.deviceClient.decoder_reading levels
  let s : Members := ⟨some d.authority, some d.httpGatewayAddress, some d.webClient,
    some d.deviceClient⟩
  refine (decoder_object (s := s) ?_).trans rfl
  simp only [List.map_cons, List.map_nil]
  rw [fromMembers_cons hauthority rfl rfl, fromMembers_cons hgateway rfl rfl,
    fromMembers_cons hweb rfl rfl, fromMembers_cons hdevice rfl rfl]
  rfl

theorem ofResponse_of_isSuccess {r : Http.Response} (h : r.isSuccess = true) :
    ofResponse r = (do
      let d ← (Json.decodeFirst decoder r.body).mapError .malformed
      d.validate
      return d) := by
  rw [ofResponse, h]
  rfl

theorem ofResponse_of_decodeFirst {r : Http.Response} {d : WellKnown} (h : r.isSuccess = true)
    (hdecode : Json.decodeFirst decoder r.body = .ok d) :
    ofResponse r = d.validate.map fun _ => d := by
  have hfound : (Json.decodeFirst decoder r.body).mapError WellKnownError.malformed = pure d := by
    rw [hdecode]
    rfl
  rw [ofResponse_of_isSuccess h, hfound, pure_bind]
  cases d.validate <;> rfl

theorem ofResponse_eq_ok_iff {r : Http.Response} {d : WellKnown} (h : r.isSuccess = true) :
    ofResponse r = .ok d ↔ Json.decodeFirst decoder r.body = .ok d ∧ d.validate = .ok () := by
  constructor
  · intro hd
    rw [ofResponse_of_isSuccess h] at hd
    obtain ⟨found, hfound, hd⟩ := Except.bind_ok hd
    obtain ⟨_, hvalid, hd⟩ := Except.bind_ok hd
    cases hd
    exact ⟨Except.mapError_ok hfound, hvalid⟩
  · rintro ⟨hdecode, hvalid⟩
    rw [ofResponse_of_decodeFirst h hdecode, hvalid]
    rfl

theorem exists_answered_of_ofDelivery {delivery : Http.Delivery} {d : WellKnown}
    (h : ofDelivery delivery = .ok d) : ∃ r, delivery = .answered r ∧ r.isSuccess = true := by
  cases delivery with
  | answered r =>
    refine ⟨r, rfl, ?_⟩
    by_contra hfailed
    rw [ofDelivery, ofResponse, Bool.eq_false_iff.mpr hfailed] at h
    cases h
  | _ => cases h

theorem ofResponse_jsonResponse (d : WellKnown) :
    ofResponse (jsonResponse 200 d.toJson) = d.validate.map fun _ => d := by
  have hdecode : Json.decodeFirst decoder (jsonResponse 200 d.toJson).body = .ok d := by
    rw [jsonResponse, Json.decodeFirst_compact _ d.isExact_toJson]
    exact d.decoder_reading 124
  exact ofResponse_of_decodeFirst rfl hdecode

def documentUrl (base : Url) : Url :=
  { base with
    path := .segments [".well-known", "configuration"]
    query := none
    fragment := none }

theorem atPath_path (hhttp : base.isHttp = true) (hpath : ∃ list, base.path = .segments list) :
    base.atPath path = .ok (documentUrl base) := by
  obtain ⟨list, hpath⟩ := hpath
  have hsegments : Url.pathSegments base.scheme path.toList = [".well-known", "configuration"] := by
    have hscheme : base.scheme = "http" ∨ base.scheme = "https" := by
      simpa [Url.isHttp] using hhttp
    rcases hscheme with hscheme | hscheme <;> rw [hscheme] <;> decide
  rw [Url.atPath, hpath]
  dsimp only
  rw [hsegments]
  rfl

def documentCall (base : Url) : Http.Call :=
  ⟨"GET", (documentUrl base).withoutUserinfo, ⟨Http.basicFields (documentUrl base)⟩, []⟩

theorem path_documentCall (base : Url) : (documentCall base).request.path = path := by
  have htext : Url.Path.text (.segments [".well-known", "configuration"]) = path := by decide
  change (documentUrl base).withoutUserinfo.pathText = path
  unfold Url.pathText
  split
  · rename_i hpath
    simp [documentUrl, Url.withoutUserinfo] at hpath
  · exact htext

theorem handle_document [Url.Idna] (s : Server) {q : Http.Request} (hmethod : q.method = "GET")
    (hpath : q.path = path) : s.handle q = .done (jsonResponse 200 s.wellKnown.toJson) := by
  have hroute : Route.ofPath? path = some .wellKnown := Route.ofPath?_path .wellKnown
  have hallows : Route.allows .wellKnown q.method = true := by rw [hmethod]; decide
  have hget : q.method ≠ "HEAD" := by rw [hmethod]; decide
  rw [Server.handle, hpath, hroute]
  simp only [Server.handleRoute, Route.isGuarded, Server.dispatch, hallows, Server.serve,
    Bool.false_eq_true, if_false, if_true, Program.bind, Server.headOnly, if_neg hget]

theorem servedBy_fetch [Url.Idna] (s : Server) (hhttp : base.isHttp = true)
    (hpath : ∃ list, base.path = .segments list) :
    (ExceptT.run (fetch base)).servedBy s =
      .done ((s.wellKnown.validate.map fun _ => s.wellKnown).mapError
        fun e => .config (.wellKnown e)) := by
  have hrun : ExceptT.run (fetch base) = .step (.send (documentCall base)) fun delivery =>
      .done ((ofDelivery delivery).mapError fun e => .config (.wellKnown e)) := by
    have hdocument : (documentUrl base).isHttp = true := hhttp
    rw [fetch, atPath_path hhttp hpath]
    simp only [hdocument, if_true]
    rfl
  rw [hrun, Program.servedBy, handle_document s rfl (path_documentCall base)]
  exact congrArg (fun found => Program.done (Except.mapError _ found))
    (ofResponse_jsonResponse s.wellKnown)

theorem validate_eq (d : WellKnown) :
    d.validate =
      if Text.trim d.webClient.clientId = "" then .error (.missingField "webOauthClient.clientId")
      else if Text.trim d.authority = "" then .error (.missingField "authority")
      else if Text.trim d.httpGatewayAddress = "" then .error (.missingField "httpGatewayAddress")
      else .ok () := by
  simp only [validate, mandatory, List.find?_cons, List.find?_nil]
  split_ifs <;> simp_all

/-- A client gets the very document that a server holds if each of its mandatory members shows
something, and is told of the first that does not. -/
theorem fetch_from_server [Url.Idna] (s : Server) (hhttp : base.isHttp = true)
    (hpath : ∃ list, base.path = .segments list) :
    let d := s.wellKnown
    let missing name := Except.error (Error.config (.wellKnown (.missingField name)))
    ∃ result, (ExceptT.run (fetch base)).servedBy s = .done result ∧
      (result = .ok d ↔ Text.Shows d.webClient.clientId ∧ Text.Shows d.authority ∧
        Text.Shows d.httpGatewayAddress) ∧
      (result = missing "webOauthClient.clientId" ↔ ¬Text.Shows d.webClient.clientId) ∧
      (result = missing "authority" ↔
        Text.Shows d.webClient.clientId ∧ ¬Text.Shows d.authority) ∧
      (result = missing "httpGatewayAddress" ↔ Text.Shows d.webClient.clientId ∧
        Text.Shows d.authority ∧ ¬Text.Shows d.httpGatewayAddress) := by
  intro d missing
  refine ⟨_, servedBy_fetch s hhttp hpath, ?_⟩
  simp only [validate_eq, Text.shows_iff, ne_eq, not_not]
  split_ifs <;> simp_all [missing, d, Except.map, Except.mapError]

/-- A document with a blank line, a quotation mark, an accent and a sign beyond 16 bits. -/
def sample : WellKnown :=
  ⟨"\x22é\n", " 😀", ⟨"c\u0085", "", ["", "\\"]⟩, .empty⟩

/-- It arrives, whoever asks for it. One whose first two mandatory members are blank is refused by
the first of them. -/
theorem fetch_from_server_sample :
    let base : Url := ⟨"https", "u", "p", none, none, .segments ["a"], some "q", none⟩
    let blank : WellKnown := ⟨"\u3000", "g", ⟨"\u0085", "", []⟩, .empty⟩
    (ExceptT.run (fetch base)).servedBy ⟨Api.sampleServer.service, .empty, sample⟩ =
        .done (.ok sample) ∧
      (ExceptT.run (fetch base)).servedBy ⟨Api.sampleServer.service, .empty, blank⟩ =
        .done (.error (.config (.wellKnown (.missingField "webOauthClient.clientId")))) := by
  intro base blank
  have hpath : ∃ list, base.path = .segments list := ⟨["a"], rfl⟩
  obtain ⟨found, hfound, hok, -⟩ :=
    fetch_from_server ⟨Api.sampleServer.service, .empty, sample⟩ rfl hpath
  obtain ⟨refused, hrefused, -, hfirst, -⟩ :=
    fetch_from_server ⟨Api.sampleServer.service, .empty, blank⟩ rfl hpath
  rw [hfound, hrefused, hok.mpr ?_, hfirst.mpr ?_]
  · exact ⟨rfl, rfl⟩
  all_goals
    simp only [Text.shows_iff]
    decide

end WellKnown

end DeviceAuth
