import DeviceAuth.Listen.SocketAddress
import DeviceAuth.Settings.Basic
import DeviceAuth.WellKnown

/-! What settings stand for, piece by piece. Each piece says which setting is at fault; validation
goes through the pieces in a fixed order. -/
namespace DeviceAuth.Settings

def invalid (key reason : String) : ConfigError := .invalidSetting key reason

/-- The items of a list without blanks around them; empty ones do not count. -/
def items (values : List String) : List String :=
  (values.map Text.trim).filter (· ≠ "")

def listenAddress (s : Settings) : Except ConfigError Listen.SocketAddress :=
  match Listen.SocketAddress.parse? s.address with
  | some address => .ok address
  | none => .error (invalid "ADDRESS" ("`" ++ s.address ++ "`: invalid socket address syntax"))

def providerName (s : Settings) : Except ConfigError ProviderName :=
  (Identifier.ofString .provider s.deviceProvider).mapError fun e =>
    invalid "DEVICE_PROVIDER" e.message

def listenConfig (s : Settings) : Except ConfigError Listen.Config :=
  match s.listenType with
  | "acme" => .ok (.acme { s.acme with domains := items s.acme.domains })
  | "file" =>
    if s.file.certificateName = "" ∨ s.file.keyName = "" then
      .error (invalid "LISTEN_FILE_CERT_NAME" "certificate and key names are required in file mode")
    else .ok (.file s.file)
  | "none" => .ok .plain
  | other => .error (invalid "LISTEN_TYPE" ("`" ++ other ++ "` is not one of acme, file, none"))

def needed (key value : String) : Except ConfigError Unit :=
  if value = "" then .error (invalid key "is required") else .ok ()

def scopes (values : List String) : Except ConfigError ScopeSet :=
  (ScopeSet.ofList (items values)).mapError .invalidScope

def deviceOAuth (s : Settings) : Except ConfigError OAuth.Config := do
  needed "DEVICE_OAUTH_CLIENT_ID" s.device.clientId
  needed "DEVICE_OAUTH_ENDPOINT_AUTH_URL" s.device.authUrl
  needed "DEVICE_OAUTH_ENDPOINT_TOKEN_URL" s.device.tokenUrl
  let authStyle ← match OAuth.AuthStyle.ofString? s.device.authStyle with
    | some style => pure style
    | none => throw (invalid "DEVICE_OAUTH_ENDPOINT_AUTH_STYLE"
        (OAuth.AuthStyle.complaint s.device.authStyle))
  let scopes ← scopes s.device.scopes
  return {
    clientId := s.device.clientId
    clientSecret := s.device.clientSecret
    scopes := scopes
    endpoint := ⟨s.device.authUrl, s.device.tokenUrl, authStyle⟩
    audience := s.device.audience
    redirectUrl := s.device.redirectUrl
    accessType := s.device.accessType
    responseType := s.device.responseType
    responseMode := s.device.responseMode
    ownerClaim :=
      if s.device.ownerClaim = "" then OAuth.Config.defaultOwnerClaim else s.device.ownerClaim }

/-- Consoles only ever need an authorization URL. -/
def consoleOAuth (s : Settings) : Except ConfigError OAuth.Config := do
  let scopes ← scopes s.console.scopes
  return { OAuth.Config.empty with
    clientId := s.console.clientId
    scopes := scopes
    endpoint := { OAuth.Endpoint.empty with authUrl := s.console.authUrl }
    audience := s.console.audience
    redirectUrl := s.console.redirectUrl
    responseMode := s.console.responseMode }

def wellKnown (s : Settings) : Except ConfigError WellKnown := do
  let device ← s.deviceOAuth
  let console ← s.consoleOAuth
  return {
    authority := s.authority
    httpGatewayAddress := s.gatewayAddress
    webClient := ⟨console.clientId, console.audience, console.scopes.names⟩
    deviceClient := ⟨device.clientId, device.audience, device.scopes.names, s.deviceProvider,
      device.redirectUrl, device.responseMode⟩ }

def validate (s : Settings) : Except ConfigError Unit := do
  let _ ← s.listenAddress
  let _ ← s.listenConfig
  let _ ← s.providerName
  let _ ← s.deviceOAuth
  let _ ← s.consoleOAuth
  if s.requestTimeout = 0 then throw (invalid "REQUEST_TIMEOUT" "must be positive")

end DeviceAuth.Settings
