import DeviceAuth.Api.AuthorizeUrl
import DeviceAuth.Api.Bearer
import DeviceAuth.Api.ErrorBody
import DeviceAuth.Api.Route
import DeviceAuth.Http.MediaType
import DeviceAuth.Service.Perform

/-! The service behind HTTP. A request is looked at in a fixed order: its path, the bearer token,
the method, the media type, the length of the body, and the body. -/
namespace DeviceAuth.Api

structure Server where
  service : Service
  /-- The registration of consoles. -/
  console : OAuth.Config
  wellKnown : WellKnown

namespace Server

def maxBodyLength : Nat := 2097152

def jsonFailure (e : Json.Error) : String :=
  (if e.isFault then "Failed to parse the request body as JSON: "
    else "Failed to deserialize the JSON body into the target type: ") ++ e.locatedMessage

def readBody (d : Json.Decoder α) (q : Http.Request) : Except Error α :=
  if !Http.MediaType.isJson q.headers then
    .error (.invalidArgument "Expected request with `Content-Type: application/json`")
  else if maxBodyLength < q.body.length then
    .error (.invalidArgument "Failed to buffer the request body: length limit exceeded")
  else (Json.decode d q.body).mapError fun e => .invalidArgument (jsonFailure e)

def respond (c : Command Json) : Program Http.Response :=
  (ExceptT.run c).bind fun
    | .ok body => .done (jsonResponse 200 body)
    | .error e => .done (errorResponse e)

def performTask (s : Server) (bearer : String) (task : Service.Task) (q : Http.Request) :
    Command Json := do
  let request ← Command.ofExcept (readBody task.requestDecoder q)
  let answer ← s.service.perform bearer task request
  return task.answerJson answer

def authorizeUrl [Url.Idna] (s : Server) (audience : Audience) : Command Json := do
  let state ← Command.ofProgram (Program.perform .freshState)
  let url ← Command.ofExcept (match audience with
    | .device => s.service.client.authorizationUrl state
    | .console => (s.console.authorizationUrl state).mapError .config)
  return AuthorizeUrlAnswer.toJson ⟨url.text, state⟩

/-- A query that cannot be read is answered in plain text. -/
def queryResponse (reason : String) : Http.Response :=
  ⟨400, ⟨[("content-type", Text.utf8 "text/plain; charset=utf-8")]⟩,
    Text.utf8 ("Failed to deserialize query string: " ++ reason)⟩

def health : Json := .object [("status", .string "ok")]

def serve [Url.Idna] (s : Server) (bearer : String) (route : Route) (q : Http.Request) :
    Program Http.Response :=
  match route with
  | .task task => respond (s.performTask bearer task q)
  | .authorizeUrl =>
    match Audience.ofQuery q.query with
    | .ok audience => respond (s.authorizeUrl audience)
    | .error reason => .done (queryResponse reason)
  | .wellKnown => .done (jsonResponse 200 s.wellKnown.toJson)
  | .health => .done (jsonResponse 200 health)

/-- A wrong method is told the right ones, whatever else is said. -/
def withAllow (route : Route) (method : String) (r : Http.Response) : Http.Response :=
  if route.allows method then r
  else { r with
    headers := ⟨r.headers.fields ++ [("allow", Text.utf8 (",".intercalate route.methods))]⟩ }

def dispatch [Url.Idna] (s : Server) (bearer : String) (route : Route) (q : Http.Request) :
    Program Http.Response :=
  if route.allows q.method then s.serve bearer route q
  else .done (withAllow route q.method ⟨405, ⟨[]⟩, []⟩)

def handleRoute [Url.Idna] (s : Server) (route : Route) (q : Http.Request) :
    Program Http.Response :=
  if route.isGuarded then
    match bearer q.headers with
    | .error e => .done (withAllow route q.method (errorResponse e))
    | .ok token => s.dispatch token route q
  else s.dispatch "" route q

def headOnly (method : String) (r : Http.Response) : Http.Response :=
  if method = "HEAD" then { r with body := [] } else r

def handle [Url.Idna] (s : Server) (q : Http.Request) : Program Http.Response :=
  (match Route.ofPath? q.path with
    | some route => s.handleRoute route q
    | none => .done (errorResponse (.notFound ("no route for " ++ q.path)))).bind
    fun r => .done (headOnly q.method r)

end Server

end DeviceAuth.Api
