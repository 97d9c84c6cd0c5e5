import DeviceAuth.Http.BasicAuth
import DeviceAuth.Json.Write
import DeviceAuth.Program
import DeviceAuth.Text.Blank

/-! The well-known document tells consoles and devices how clients are registered. A member that is
left out is empty; what a console cannot start without is checked on its own. -/
namespace DeviceAuth

structure WebClient where
  clientId : String
  audience : String
  scopes : List String
  deriving DecidableEq, Repr

structure DeviceClient where
  clientId : String
  audience : String
  scopes : List String
  providerName : String
  redirectUrl : String
  responseMode : String
  deriving DecidableEq, Repr

structure WellKnown where
  authority : String
  httpGatewayAddress : String
  webClient : WebClient
  deviceClient : DeviceClient
  deriving DecidableEq, Repr

namespace WebClient

def empty : WebClient := ⟨"", "", []⟩

def toJson (c : WebClient) : Json :=
  .object [("clientId", .string c.clientId), ("audience", .string c.audience),
    ("scopes", Json.strings c.scopes)]

structure Members where
  clientId : Option String := none
  audience : Option String := none
  scopes : Option (List String) := none

open Json.Decoder in
def decoder : Json.Decoder WebClient :=
  lenient "WebOAuthClient" [
    .of "clientId" string (·.clientId) fun a s => { s with clientId := some a },
    .of "audience" string (·.audience) fun a s => { s with audience := some a },
    .of "scopes" (list string) (·.scopes) fun a s => { s with scopes := some a }]
    ({} : Members) fun s => ⟨s.clientId.getD "", s.audience.getD "", s.scopes.getD []⟩

end WebClient

namespace DeviceClient

def empty : DeviceClient := ⟨"", "", [], "", "", ""⟩

def toJson (c : DeviceClient) : Json :=
  .object [("clientId", .string c.clientId), ("audience", .string c.audience),
    ("scopes", Json.strings c.scopes), ("providerName", .string c.providerName),
    ("redirectUrl", .string c.redirectUrl), ("responseMode", .string c.responseMode)]

structure Members where
  clientId : Option String := none
  audience : Option String := none
  scopes : Option (List String) := none
  providerName : Option String := none
  redirectUrl : Option String := none
  responseMode : Option String := none

open Json.Decoder in
def decoder : Json.Decoder DeviceClient :=
  lenient "DeviceOAuthClient" [
    .of "clientId" string (·.clientId) fun a s => { s with clientId := some a },
    .of "audience" string (·.audience) fun a s => { s with audience := some a },
    .of "scopes" (list string) (·.scopes) fun a s => { s with scopes := some a },
    .of "providerName" string (·.providerName) fun a s => { s with providerName := some a },
    .of "redirectUrl" string (·.redirectUrl) fun a s => { s with redirectUrl := some a },
    .of "responseMode" string (·.responseMode) fun a s => { s with responseMode := some a }]
    ({} : Members) fun s => ⟨s.clientId.getD "", s.audience.getD "", s.scopes.getD [],
      s.providerName.getD "", s.redirectUrl.getD "", s.responseMode.getD ""⟩

end DeviceClient

namespace WellKnown

def path : String := "/.well-known/configuration"

def empty : WellKnown := ⟨"", "", .empty, .empty⟩

def toJson (w : WellKnown) : Json :=
  .object [("authority", .string w.authority),
    ("httpGatewayAddress", .string w.httpGatewayAddress),
    ("webOauthClient", w.webClient.toJson), ("deviceOauthClient", w.deviceClient.toJson)]

structure Members where
  authority : Option String := none
  httpGatewayAddress : Option String := none
  webClient : Option WebClient := none
  deviceClient : Option DeviceClient := none

open Json.Decoder in
def decoder : Json.Decoder WellKnown :=
  lenient "WellKnownConfiguration" [
    .of "authority" string (·.authority) fun a s => { s with authority := some a },
    .of "httpGatewayAddress" string (·.httpGatewayAddress)
      fun a s => { s with httpGatewayAddress := some a },
    .of "webOauthClient" WebClient.decoder (·.webClient)
      fun a s => { s with webClient := some a },
    .of "deviceOauthClient" DeviceClient.decoder (·.deviceClient)
      fun a s => { s with deviceClient := some a }]
    ({} : Members) fun s => ⟨s.authority.getD "", s.httpGatewayAddress.getD "",
      s.webClient.getD .empty, s.deviceClient.getD .empty⟩

/-- The members that must not be blank, in the order in which they are checked. -/
def mandatory (w : WellKnown) : List (String × String) :=
  [("webOauthClient.clientId", w.webClient.clientId), ("authority", w.authority),
    ("httpGatewayAddress", w.httpGatewayAddress)]

def validate (w : WellKnown) : Except WellKnownError Unit :=
  match w.mandatory.find? fun (_, value) => Text.trim value = "" with
  | some (name, _) => .error (.missingField name)
  | none => .ok ()

def ofResponse (r : Http.Response) : Except WellKnownError WellKnown := do
  if !r.isSuccess then throw (.status r.status)
  let w ← (Json.decodeFirst decoder r.body).mapError .malformed
  w.validate
  return w

/-- The status is looked at before the body is there. -/
def ofDelivery : Http.Delivery → Except WellKnownError WellKnown
  | .answered r => ofResponse r
  | .cutOff head | .stalled head =>
    .error (if head.isSuccess then .transport else .status head.status)
  | .unreachable | .timedOut | .dropped => .error .transport

def fetch (base : Url) : Command WellKnown :=
  let failed (e : WellKnownError) : Error := .config (.wellKnown e)
  match base.atPath path with
  | .error e => throw (failed (.url e))
  | .ok url =>
    if url.isHttp then do
      let call : Http.Call := ⟨"GET", url.withoutUserinfo, ⟨Http.basicFields url⟩, []⟩
      let delivery ← Command.ofProgram (Program.perform (.send call))
      Command.ofExcept ((ofDelivery delivery).mapError failed)
    else throw (failed .transport)

end WellKnown

end DeviceAuth
