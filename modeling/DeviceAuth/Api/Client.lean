import DeviceAuth.Api.AuthorizeUrl
import DeviceAuth.Api.ErrorBody
import DeviceAuth.Api.Route
import DeviceAuth.Http.BasicAuth
import DeviceAuth.Program
import DeviceAuth.Service.Task

/-! A client of the service: it knows where the service is and where to get a token for each call.
-/
namespace DeviceAuth.Api

structure Client where
  base : Url
  token : Command Secret

namespace Client

def endpoint (c : Client) (route : Route) : Except Error Url :=
  (c.base.atPath route.path).mapError fun e =>
    .invalidArgument ("service URL " ++ c.base.text ++ ": " ++ e.message)

def networkFailure : Error := .transport .network

def authorizationValue (token : Secret) : List UInt8 := Text.utf8 ("Bearer " ++ token.text)

/-- User name and password of the URL come before the token. -/
def headers (url : Url) (token : Secret) (body : Option Json) : Http.Headers :=
  ⟨Http.basicFields url ++ [("authorization", authorizationValue token)] ++
    match body with
    | none => []
    | some _ => [("content-type", Text.utf8 "application/json")]⟩

def call (method : String) (url : Url) (token : Secret) (body : Option Json) :
    Except Error Http.Call :=
  if Http.Headers.canHold (authorizationValue token) && url.isHttp then
    .ok ⟨method, url.withoutUserinfo, headers url token body,
      (body.map fun v => Text.utf8 v.compact).getD []⟩
  else .error networkFailure

def quotedLength : Nat := 256

def failure (r : Http.Response) : Error :=
  let body := match Json.decode ErrorBody.decoder r.body with
    | .ok body => body
    | .error _ => ⟨"", String.ofList ((Text.ofUtf8Lossy r.body).toList.take quotedLength)⟩
  body.toError r.status

def ofResponse (d : Json.Decoder α) (r : Http.Response) : Except Error α :=
  if r.isSuccess then
    (Json.decodeFirst d r.body).mapError fun e =>
      .transient (.unavailable ("malformed response body: " ++ e.locatedMessage))
  else .error (failure r)

def ofDelivery (d : Json.Decoder α) (url : Url) : Http.Delivery → Except Error α
  | .unreachable | .timedOut =>
    .error (.transient (.unavailable ("error sending request for url (" ++ url.text ++ ")")))
  | .stalled _ => .error (.transient (.unavailable "error decoding response body"))
  | .dropped | .cutOff _ => .error networkFailure
  | .answered r => ofResponse d r

def send (c : Client) (method : String) (url : Url) (body : Option Json) (d : Json.Decoder α) :
    Command α := do
  let token ← c.token
  let call ← Command.ofExcept (call method url token body)
  let delivery ← Command.ofProgram (Program.perform (.send call))
  Command.ofExcept (ofDelivery d call.url delivery)

def perform (c : Client) (task : Service.Task) (q : task.Request) : Command task.Answer := do
  let url ← Command.ofExcept (c.endpoint (.task task))
  c.send "POST" url (some (task.requestJson q)) task.answerDecoder

def authorizeUrl (c : Client) (audience : Audience) : Command AuthorizeUrlAnswer := do
  let url ← Command.ofExcept (c.endpoint .authorizeUrl)
  c.send "GET" (url.appendPairs [(Audience.key, audience.name)]) none AuthorizeUrlAnswer.decoder

def wellKnown (c : Client) : Command WellKnown := WellKnown.fetch c.base

end Client

end DeviceAuth.Api
