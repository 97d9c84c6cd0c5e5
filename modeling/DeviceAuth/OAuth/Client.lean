import DeviceAuth.Http.RetryAfter
import DeviceAuth.OAuth.Config
import DeviceAuth.OAuth.Grant
import DeviceAuth.OAuth.OwnerClaim
import DeviceAuth.OAuth.TokenResponse
import DeviceAuth.Program

/-! The client of a provider: it asks the token endpoint for tokens and says in the words of the
service why it got none. -/
namespace DeviceAuth.OAuth

structure Client where
  config : Config
  tokenUrl : Url
  strategy : Strategy

inductive Grant where
  | authorizationCode (code : String)
  | refreshToken (token : String)
  | clientCredentials
  deriving DecidableEq

def Grant.type : Grant → GrantType
  | .authorizationCode _ => .authorizationCode
  | .refreshToken _ => .refreshToken
  | .clientCredentials => .clientCredentials

/-- Tokens of a provider. Without a lifetime they never expire. -/
structure Tokens where
  accessToken : Secret
  refreshToken : Option Secret
  lifetime : Option Span
  idToken : Option String
  deriving DecidableEq

namespace Client

def endpoint [Url.Idna] (role : EndpointRole) (url : String) : Except Error Url :=
  match Url.parse url with
  | .ok url => .ok url
  | .error e => .error (.config (.invalidEndpoint role e))

def ofConfig [Url.Idna] (config : Config) (strategy : Strategy) : Except Error Client := do
  if config.clientId = "" then
    throw (.config (.invalidSetting "OAUTH_CLIENT_ID" "client id is required"))
  let _ ← endpoint .authorization config.endpoint.authUrl
  let tokenUrl ← endpoint .token config.endpoint.tokenUrl
  if config.redirectUrl ≠ "" then
    let _ ← endpoint .redirect config.redirectUrl
  return ⟨config, tokenUrl, strategy⟩

def outline (c : Client) : String :=
  Text.Outline.opened "OAuthClient" [("config", c.config.outline)]

def authorizationUrl [Url.Idna] (c : Client) (state : String) : Except Error Url :=
  (c.config.authorizationUrl state).mapError .config

def grantFields (c : Client) (grant : Grant) : List (String × String) :=
  match grant with
  | .authorizationCode code => [("grant_type", "authorization_code"), ("code", code)]
  | .refreshToken token => [("grant_type", "refresh_token"), ("refresh_token", token)]
  | .clientCredentials =>
    ("grant_type", "client_credentials") :: Config.optionalPair "scope" c.config.scopes.text

def usesHeader (c : Client) : Bool :=
  c.config.clientSecret ≠ "" && c.config.endpoint.authStyle ≠ .inParams

def form (c : Client) (grant : Grant) : List (String × String) :=
  let credentials :=
    if c.usesHeader then []
    else ("client_id", c.config.clientId) ::
      Config.optionalPair "client_secret" c.config.clientSecret
  let redirect := match grant with
    | .authorizationCode _ => Config.optionalPair "redirect_uri" c.config.redirectUrl
    | _ => []
  c.grantFields grant ++ credentials ++ redirect

def basicCredentials (c : Client) : String :=
  let pair := Encoding.Form.encodeText c.config.clientId ++ ':' ::
    Encoding.Form.encodeText c.config.clientSecret
  "Basic " ++ String.ofList
    (Encoding.Base64.standard.encodePadded (Text.utf8 (String.ofList pair)))

def headers (c : Client) : Http.Headers :=
  ⟨[("accept", Text.utf8 "application/json"),
    ("content-type", Text.utf8 "application/x-www-form-urlencoded")] ++
    if c.usesHeader then [("authorization", Text.utf8 c.basicCredentials)] else []⟩

def call (c : Client) (grant : Grant) : Except Error Http.Call :=
  if c.tokenUrl.isHttp then
    .ok ⟨"POST", c.tokenUrl, c.headers,
      Text.utf8 (String.ofList (Encoding.Form.encode (c.form grant)))⟩
  else match Http.targetFault? c.tokenUrl with
    | some fault =>
      .error (.transient (.tokenEndpoint ("failed to prepare request: " ++ fault) none none))
    | none => .error (.config .httpClientBuild)

def unexpected (reason : String) (r : Http.Response) (now : Instant) : Error :=
  .transient (.tokenEndpoint reason (some r.status) (Http.retryAfter? r.headers now))

/-- An OAuth error is classified by its code and description. -/
def refused (c : Client) (grant : GrantType) (e : ErrorResponse) (r : Http.Response)
    (now : Instant) : Error :=
  let kind := c.strategy ⟨grant, some r.status, some e.code, e.description, none⟩
  kind.toError ("token endpoint returned an OAuth error: " ++ e.description.getD e.code)
    (some r.status) (Http.retryAfter? r.headers now)

/-- A body that cannot be read is classified by its text. -/
def unreadable (c : Client) (grant : GrantType) (cause : Json.Error) (r : Http.Response)
    (now : Instant) : Error :=
  let text := preview (Text.ofUtf8Lossy r.body)
  match c.strategy ⟨grant, some r.status, none, none, some text⟩ with
  | .transient => .transient (.tokenResponse cause (some r.status))
  | kind =>
    kind.toError ("token endpoint returned an error body: " ++ text) (some r.status)
      (Http.retryAfter? r.headers now)

def announcesJson (value : List UInt8) : Bool :=
  match Http.Headers.textOf? value with
  | none => false
  | some s => Text.startsWith (Text.lower s) "application/json"

/-- The lifetime has to be positive, and has to end within the calendar. -/
def lifetime? (seconds : Option Nat) (now : Instant) : Except Error (Option Span) :=
  match seconds with
  | none => .ok none
  | some n =>
    if Decimal.signedEnd 64 ≤ n then .error (.config .expiresInOutOfRange)
    else if n = 0 then .error (.config .nonPositiveExpiresIn)
    else if (now.add? (.seconds n)).isNone then .error (.config .expiresInOutOfRange)
    else .ok (some (.seconds n))

def accept (t : TokenResponse) (now : Instant) : Except Error Tokens := do
  let lifetime ← lifetime? t.lifetime now
  return ⟨⟨t.accessToken⟩, (t.refreshToken.map Secret.mk).filter (!·.isEmpty), lifetime,
    t.idToken⟩

def ofResponse (c : Client) (grant : GrantType) (r : Http.Response) (now : Instant) :
    Except Error Tokens :=
  if r.status ≠ 200 then
    if r.body.isEmpty then .error (unexpected "server returned empty error response" r now)
    else match Json.decodeFirst ErrorResponse.decoder r.body with
      | .ok e => .error (c.refused grant e r now)
      | .error cause => .error (c.unreadable grant cause r now)
  else
    match r.headers.get? "content-type" with
    | some value =>
      if announcesJson value then ofBody
      else .error (unexpected ("unexpected response Content-Type: " ++ Text.quotedBytes value ++
        ", should be `application/json`") r now)
    | none => ofBody
where
  ofBody : Except Error Tokens :=
    if r.body.isEmpty then .error (unexpected "server returned empty response body" r now)
    else match Json.decodeFirst TokenResponse.decoder r.body with
      | .ok t => accept t now
      | .error cause => .error (c.unreadable grant cause r now)

/-- Time ran out. By then the head of an answer may have come. -/
def overdue (status : Option Nat) (retryAfter : Option Span) : Error :=
  .transient (.tokenEndpoint "request timed out while calling the token endpoint" status retryAfter)

def ofDelivery (c : Client) (grant : GrantType) (delivery : Http.Delivery) (now : Instant) :
    Except Error Tokens :=
  match delivery with
  | .unreachable | .dropped | .cutOff _ => .error (.transport .network)
  | .timedOut => .error (overdue none none)
  | .stalled head =>
    .error (overdue (some head.status) (Http.retryAfter? head.headers now))
  | .answered r => c.ofResponse grant r now

def request (c : Client) (grant : Grant) : Command Tokens := do
  let call ← Command.ofExcept (c.call grant)
  let delivery ← Command.ofProgram (Program.perform (.send call))
  let now ← Command.now
  Command.ofExcept (c.ofDelivery grant.type delivery now)

/-- The ID token names the owner; an access token of the same shape stands in for it. -/
def owner (c : Client) (tokens : Tokens) : Except Error UserId :=
  match tokens.idToken with
  | some token => OwnerClaim.owner token c.config.ownerClaim
  | none =>
    if OwnerClaim.hasTokenShape tokens.accessToken.text then
      OwnerClaim.owner tokens.accessToken.text c.config.ownerClaim
    else .error (.invalidGrant "token response carries no ID token")

end Client

end DeviceAuth.OAuth
