import DeviceAuth.Http.Message
import DeviceAuth.Listen.Basic
import DeviceAuth.OAuth.Config

/-! Settings of a service, read from named texts. Names are compared without regard to case; lists
are separated by commas. -/
namespace DeviceAuth

structure Settings.DeviceOAuth where
  clientId : String
  clientSecret : String
  redirectUrl : String
  authUrl : String
  tokenUrl : String
  authStyle : String
  scopes : List String
  responseMode : String
  audience : String
  accessType : String
  responseType : String
  ownerClaim : String
  deriving DecidableEq, Repr

structure Settings.ConsoleOAuth where
  clientId : String
  redirectUrl : String
  authUrl : String
  audience : String
  scopes : List String
  responseMode : String
  deriving DecidableEq, Repr

structure Settings where
  address : String
  deviceProvider : String
  device : Settings.DeviceOAuth
  console : Settings.ConsoleOAuth
  listenType : String
  acme : Listen.AcmeConfig
  file : Listen.FileConfig
  debug : Bool
  storeUri : String
  storeDatabase : String
  authority : String
  gatewayAddress : String
  /-- Seconds that a provider may take to answer. -/
  requestTimeout : Nat
  deriving DecidableEq, Repr

namespace Settings

/-- Names with their texts; of two with one name the later counts. -/
abbrev Variables := List (String × String)

def Variables.get? (vars : Variables) (key : String) : Option String :=
  (vars.reverse.find? fun (name, _) => Text.lower name = key).map (·.2)

def text (vars : Variables) (key fallback : String) : String :=
  (vars.get? key).getD fallback

def split (s : String) : List String :=
  (s.toList.splitOnP (· = ',')).map String.ofList

def list (vars : Variables) (key : String) : List String :=
  ((vars.get? key).map split).getD []

def mistyped (key value expected : String) : ConfigError :=
  .settings ((Json.Mismatch.type ("string " ++ Text.quoted value) expected).message ++
    " for key `" ++ key ++ "` in the environment")

def word? (s : String) : Option Bool :=
  match Text.lower s with
  | "true" | "on" | "yes" => some true
  | "false" | "off" | "no" => some false
  | _ => none

def flag? (s : String) : Option Bool :=
  match s with
  | "1" => some true
  | "0" => some false
  | s => word? s

/-- A plus sign may come first; the number has to fit into 64 bits. -/
def natural? (s : String) : Option Nat :=
  let digits := match s.toList with
    | '+' :: rest => rest
    | cs => cs
  (Text.digits? digits).filter (· < Decimal.naturalEnd 64)

def number? (s : String) : Option Nat :=
  match word? s with
  | some b => some b.toNat
  | none => natural? s

def flag (vars : Variables) (key : String) : Except ConfigError Bool :=
  match vars.get? key with
  | none => .ok false
  | some s =>
    match flag? s with
    | some b => .ok b
    | none => .error (mistyped key s "a boolean")

def number (vars : Variables) (key : String) (fallback : Nat) : Except ConfigError Nat :=
  match vars.get? key with
  | none => .ok fallback
  | some s =>
    match number? s with
    | some n => .ok n
    | none => .error (mistyped key s "an integer")

def DeviceOAuth.ofVariables (vars : Variables) : DeviceOAuth where
  clientId := text vars "device_oauth_client_id" ""
  clientSecret := text vars "device_oauth_client_secret" ""
  redirectUrl := text vars "device_oauth_redirect_url" ""
  authUrl := text vars "device_oauth_endpoint_auth_url" ""
  tokenUrl := text vars "device_oauth_endpoint_token_url" ""
  authStyle := text vars "device_oauth_endpoint_auth_style" OAuth.AuthStyle.autoDetect.name
  scopes := list vars "device_oauth_scopes"
  responseMode := text vars "device_oauth_response_mode" "query"
  audience := text vars "device_oauth_audience" ""
  accessType := text vars "device_oauth_access_type" ""
  responseType := text vars "device_oauth_response_type" ""
  ownerClaim := text vars "device_oauth_owner_claim" OAuth.Config.defaultOwnerClaim

def ConsoleOAuth.ofVariables (vars : Variables) : ConsoleOAuth where
  clientId := text vars "sdk_oauth_client_id" ""
  redirectUrl := text vars "sdk_oauth_redirect_url" ""
  authUrl := text vars "sdk_oauth_endpoint_auth_url" ""
  audience := text vars "sdk_oauth_audience" ""
  scopes := list vars "sdk_oauth_scopes"
  responseMode := text vars "sdk_oauth_response_mode" "query"

/-- Looks are 15 seconds apart unless something else is set. -/
def acmeOfVariables (vars : Variables) : Except ConfigError Listen.AcmeConfig := do
  let tick ← number vars "listen_acme_tick_frequency" 15
  let useSystemPool ← flag vars "listen_acme_use_system_certification_pool"
  return ⟨text vars "listen_acme_ca_pool" "", text vars "listen_acme_directory_url" "",
    list vars "listen_acme_domains", text vars "listen_acme_registration_email" "", tick,
    useSystemPool⟩

def fileOfVariables (vars : Variables) : Except ConfigError Listen.FileConfig := do
  let useSystemPool ← flag vars "listen_file_use_system_certification_pool"
  return ⟨text vars "listen_file_ca_pool" "", text vars "listen_file_cert_dir_path" "",
    text vars "listen_file_cert_name" "", text vars "listen_file_cert_key_name" "", useSystemPool⟩

/-- Names that are not known are passed over. -/
def ofVariables (vars : Variables) : Except ConfigError Settings := do
  let acme ← acmeOfVariables vars
  let file ← fileOfVariables vars
  let debug ← flag vars "log_enable_debug"
  let requestTimeout ← number vars "request_timeout" Http.defaultTimeout
  return {
    address := text vars "address" "0.0.0.0:9100"
    deviceProvider := text vars "device_provider" "github"
    device := .ofVariables vars
    console := .ofVariables vars
    listenType := text vars "listen_type" "acme"
    acme := acme
    file := file
    debug := debug
    storeUri := text vars "store_uri" "memory://"
    storeDatabase := text vars "store_database" "authorization"
    authority := text vars "authority" ""
    gatewayAddress := text vars "http_gateway_address" ""
    requestTimeout := requestTimeout }

def outline (s : Settings) : String :=
  Text.Outline.opened "Settings" [
    ("address", Text.quoted s.address),
    ("device_provider", Text.quoted s.deviceProvider),
    ("device_oauth_client_id", Text.quoted s.device.clientId),
    ("device_oauth_client_secret", OAuth.Config.secretOutline s.device.clientSecret),
    ("device_oauth_endpoint_auth_url", Text.quoted s.device.authUrl),
    ("device_oauth_endpoint_token_url", Text.quoted s.device.tokenUrl),
    ("device_oauth_scopes", Text.Outline.list (s.device.scopes.map Text.quoted)),
    ("sdk_oauth_client_id", Text.quoted s.console.clientId),
    ("listen_type", Text.quoted s.listenType),
    ("log_enable_debug", if s.debug then "true" else "false"),
    ("store_uri", Text.quoted s.storeUri),
    ("store_database", Text.quoted s.storeDatabase),
    ("authority", Text.quoted s.authority),
    ("http_gateway_address", Text.quoted s.gatewayAddress),
    ("request_timeout", Decimal.natText s.requestTimeout)]

end Settings

end DeviceAuth
