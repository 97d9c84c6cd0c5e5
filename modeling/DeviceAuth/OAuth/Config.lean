import DeviceAuth.Error
import DeviceAuth.Url.Query

/-! How a client is registered with a provider, and the URL at which its users grant access. Empty
texts mean that nothing is configured. -/
namespace DeviceAuth.OAuth

inductive AuthStyle where
  | autoDetect
  | inParams
  | inHeader
  deriving DecidableEq, Repr

namespace AuthStyle

def name : AuthStyle → String
  | .autoDetect => "AutoDetect"
  | .inParams => "InParams"
  | .inHeader => "InHeader"

def table : List (String × AuthStyle) :=
  [AuthStyle.autoDetect, .inParams, .inHeader].map fun s => (s.name, s)

def complaint (s : String) : String :=
  "`" ++ s ++ "` is not one of AutoDetect, InParams, InHeader"

/-- Nothing stands for detection. -/
def ofString? (s : String) : Option AuthStyle :=
  if s = "" then some .autoDetect else (table.find? (·.1 = s)).map (·.2)

def ofString (s : String) : Except ConfigError AuthStyle :=
  match ofString? s with
  | some style => .ok style
  | none => .error (.invalidSetting "AUTH_STYLE" (complaint s))

def toJson (s : AuthStyle) : Json := .string s.name

def decoder : Json.Decoder AuthStyle := Json.Decoder.variant table

end AuthStyle

structure Endpoint where
  authUrl : String
  tokenUrl : String
  authStyle : AuthStyle
  deriving DecidableEq

namespace Endpoint

def empty : Endpoint := ⟨"", "", .autoDetect⟩

def toJson (e : Endpoint) : Json :=
  .object [("auth_url", .string e.authUrl), ("token_url", .string e.tokenUrl),
    ("auth_style", e.authStyle.toJson)]

def outline (e : Endpoint) : String :=
  Text.Outline.closed "OAuthEndpoint" [("auth_url", Text.quoted e.authUrl),
    ("token_url", Text.quoted e.tokenUrl), ("auth_style", e.authStyle.name)]

structure Members where
  authUrl : Option String := none
  tokenUrl : Option String := none
  authStyle : Option AuthStyle := none

open Json.Decoder in
def decoder : Json.Decoder Endpoint :=
  Shape.decoder {
    name := "OAuthEndpoint"
    fields := [
      .of "auth_url" string (·.authUrl) fun a s => { s with authUrl := some a },
      .of "token_url" string (·.tokenUrl) fun a s => { s with tokenUrl := some a },
      .of "auth_style" AuthStyle.decoder (·.authStyle) fun a s => { s with authStyle := some a }]
    start := ({} : Members)
    defaults := false
    listed := true
    other := skip
    finish := fun s => do
      return ⟨← required "auth_url" s.authUrl, ← required "token_url" s.tokenUrl,
        ← required "auth_style" s.authStyle⟩ }

end Endpoint

structure Config where
  clientId : String
  clientSecret : String
  scopes : ScopeSet
  endpoint : Endpoint
  audience : String
  redirectUrl : String
  accessType : String
  responseType : String
  responseMode : String
  ownerClaim : String
  deriving DecidableEq

namespace Config

def defaultOwnerClaim : String := "sub"

def empty : Config :=
  ⟨"", "", .empty, .empty, "", "", "", "", "", defaultOwnerClaim⟩

def toJson (c : Config) : Json :=
  .object [
    ("client_id", .string c.clientId),
    ("client_secret", .string c.clientSecret),
    ("scopes", c.scopes.toJson),
    ("endpoint", c.endpoint.toJson),
    ("audience", .string c.audience),
    ("redirect_url", .string c.redirectUrl),
    ("access_type", .string c.accessType),
    ("response_type", .string c.responseType),
    ("response_mode", .string c.responseMode),
    ("owner_claim", .string c.ownerClaim)]

def secretOutline (secret : String) : String :=
  Text.Outline.optional (if secret = "" then none else some Text.Outline.redacted)

def outline (c : Config) : String :=
  Text.Outline.closed "OAuthClientConfig" [
    ("client_id", Text.quoted c.clientId),
    ("client_secret", secretOutline c.clientSecret),
    ("scopes", c.scopes.outline),
    ("endpoint", c.endpoint.outline),
    ("audience", Text.quoted c.audience),
    ("redirect_url", Text.quoted c.redirectUrl),
    ("access_type", Text.quoted c.accessType),
    ("response_type", Text.quoted c.responseType),
    ("response_mode", Text.quoted c.responseMode),
    ("owner_claim", Text.quoted c.ownerClaim)]

structure Members where
  clientId : Option String := none
  clientSecret : Option String := none
  scopes : Option ScopeSet := none
  endpoint : Option Endpoint := none
  audience : Option String := none
  redirectUrl : Option String := none
  accessType : Option String := none
  responseType : Option String := none
  responseMode : Option String := none
  ownerClaim : Option String := none

open Json.Decoder in
def fields : List (Json.Decoder.Field Members) := [
  .of "client_id" string (·.clientId) fun a s => { s with clientId := some a },
  .of "client_secret" string (·.clientSecret) fun a s => { s with clientSecret := some a },
  .of "scopes" ScopeSet.decoder (·.scopes) fun a s => { s with scopes := some a },
  .of "endpoint" Endpoint.decoder (·.endpoint) fun a s => { s with endpoint := some a },
  .of "audience" string (·.audience) fun a s => { s with audience := some a },
  .of "redirect_url" string (·.redirectUrl) fun a s => { s with redirectUrl := some a },
  .of "access_type" string (·.accessType) fun a s => { s with accessType := some a },
  .of "response_type" string (·.responseType) fun a s => { s with responseType := some a },
  .of "response_mode" string (·.responseMode) fun a s => { s with responseMode := some a },
  .of "owner_claim" string (·.ownerClaim) fun a s => { s with ownerClaim := some a }]

open Json.Decoder in
def Members.finish (s : Members) : Except Json.Error Config := do
  let clientId ← required "client_id" s.clientId
  let clientSecret ← required "client_secret" s.clientSecret
  let scopes ← required "scopes" s.scopes
  let endpoint ← required "endpoint" s.endpoint
  let audience ← required "audience" s.audience
  let redirectUrl ← required "redirect_url" s.redirectUrl
  let accessType ← required "access_type" s.accessType
  let responseType ← required "response_type" s.responseType
  let responseMode ← required "response_mode" s.responseMode
  let ownerClaim ← required "owner_claim" s.ownerClaim
  return ⟨clientId, clientSecret, scopes, endpoint, audience, redirectUrl, accessType,
    responseType, responseMode, ownerClaim⟩

def decoder : Json.Decoder Config :=
  Json.Decoder.Shape.decoder {
    name := "OAuthClientConfig"
    fields := fields
    start := {}
    defaults := false
    listed := true
    other := Json.Decoder.skip
    finish := Members.finish }

def optionalPair (name value : String) : List (String × String) :=
  if value = "" then [] else [(name, value)]

def authorizationPairs (c : Config) (state : String) : List (String × String) :=
  [("response_type", if c.responseType = "" then "code" else c.responseType),
    ("client_id", c.clientId)] ++
    optionalPair "redirect_uri" c.redirectUrl ++ optionalPair "scope" c.scopes.text ++
    [("state", state)] ++ optionalPair "access_type" c.accessType ++
    optionalPair "audience" c.audience ++ optionalPair "response_mode" c.responseMode

def authorizationUrl [Url.Idna] (c : Config) (state : String) : Except ConfigError Url :=
  match Url.parse c.endpoint.authUrl with
  | .error e => .error (.invalidEndpoint .authorization e)
  | .ok url => .ok (url.appendPairs (c.authorizationPairs state))

end Config

end DeviceAuth.OAuth
