import DeviceAuth.OAuth.Config
import DeviceAuth.Proofs.Encoding.Percent
import DeviceAuth.Proofs.Scope
import Mathlib.Data.List.Basic

/-! The URL at which access is granted: the configured one, whose query goes on with what the client
asks for. Whoever reads the query finds the texts as they were configured. -/
namespace DeviceAuth

namespace Url

theorem decode_utf8_encode (pairs : List (String × String)) :
    Encoding.Form.decode (Text.utf8 (String.ofList (Encoding.Form.encode pairs))) = pairs := by
  rw [Text.utf8_ofList, Encoding.Form.decode_encode]

theorem pairs_appendPairs (u : Url) (added : List (String × String)) :
    (u.appendPairs added).pairs = u.pairs ++ added := by
  cases hquery : u.query with
  | none => simp [appendPairs, pairs, hquery, decode_utf8_encode]
  | some old =>
    by_cases hempty : old = ""
    · have hnone : Text.utf8 "" = [] := rfl
      simp [appendPairs, pairs, hquery, hempty, hnone, decode_utf8_encode]
    · have hand : Text.utf8 "&" = [0x26] := rfl
      simp [appendPairs, pairs, hquery, hand, Encoding.Form.decode_append, decode_utf8_encode]

end Url

namespace OAuth.Config

def setting? (value : String) : Option String := if value = "" then none else some value

/-- What a provider is asked for, in order; what is not set is left out. -/
def announcement (c : Config) (state : String) : List (String × String) :=
  [("response_type", some ((setting? c.responseType).getD "code")),
    ("client_id", some c.clientId),
    ("redirect_uri", setting? c.redirectUrl),
    ("scope", if c.scopes.names = [] then none else some c.scopes.text),
    ("state", some state),
    ("access_type", setting? c.accessType),
    ("audience", setting? c.audience),
    ("response_mode", setting? c.responseMode)].filterMap fun (name, value) => value.map (name, ·)

theorem optionalPair_eq (name value : String) :
    optionalPair name value = ((setting? value).map (name, ·)).toList := by
  unfold optionalPair setting?
  split <;> rfl

theorem authorizationPairs_eq (c : Config) (state : String) :
    c.authorizationPairs state = c.announcement state := by
  have htype : (if c.responseType = "" then "code" else c.responseType) =
      (setting? c.responseType).getD "code" := by
    unfold setting?
    split <;> rfl
  have hscope : setting? c.scopes.text =
      if c.scopes.names = [] then none else some c.scopes.text := by
    simp only [setting?, ScopeSet.text_eq_empty_iff]
  rw [authorizationPairs, announcement, htype, ← hscope, List.filterMap_eq_flatMap_toList]
  simp [optionalPair_eq]

/-- The configured URL with another query, which says what it said and then what is asked for. -/
theorem authorizationUrl_says [Url.Idna] (c : Config) (state : String) {url : Url}
    (h : Url.parse c.endpoint.authUrl = .ok url) :
    ∃ result, c.authorizationUrl state = .ok result ∧
      { result with query := url.query } = url ∧
      result.pairs = url.pairs ++ c.announcement state ∧
      ∀ value, ("scope", value) ∈ c.announcement state →
        (value.toList.splitOn ' ').map String.ofList = c.scopes.names := by
  refine ⟨url.appendPairs (c.authorizationPairs state), by rw [authorizationUrl, h], rfl, ?_, ?_⟩
  · rw [Url.pairs_appendPairs, authorizationPairs_eq]
  · intro value hvalue
    have hscope : (if c.scopes.names = [] then none else some c.scopes.text) = some value := by
      simpa [announcement] using hvalue
    split at hscope
    · cases hscope
    · rename_i hsome
      rw [← Option.some.inj hscope, ScopeSet.splitOn_text hsome]

def reserved : Config :=
  { Config.empty with
    clientId := "a&b=c"
    scopes := ⟨["openid", "\u00FC+%41"], by decide, by decide⟩
    endpoint := ⟨"https://b\u00FCcher.example/authorize?tenant=hub&#top", "", .autoDetect⟩
    audience := "\u0000 ?" }

/-- Reserved characters in what is asked for, and a host that has to be mapped. -/
theorem authorizationUrl_says_reserved :
    let _ : Url.Idna := .ofList [("b\u00FCcher.example", "xn--bcher-kva.example")]
    ∃ url, Url.parse reserved.endpoint.authUrl = .ok url ∧
      url.host = some (.domain "xn--bcher-kva.example") ∧
      ∃ result, reserved.authorizationUrl "100%" = .ok result ∧
        { result with query := url.query } = url ∧
        result.pairs = [("tenant", "hub"), ("response_type", "code"), ("client_id", "a&b=c"),
          ("scope", "openid \u00FC+%41"), ("state", "100%"), ("audience", "\u0000 ?")] := by
  intro mapping
  obtain ⟨result, hresult, hsame, hpairs, -⟩ := authorizationUrl_says reserved "100%" rfl
  exact ⟨_, rfl, rfl, result, hresult, hsame, hpairs.trans (by decide +kernel)⟩

end OAuth.Config

end DeviceAuth
