import DeviceAuth.Http.Message
import DeviceAuth.Json.Decode
import DeviceAuth.Json.Write
import DeviceAuth.Error

/-! The body of a failed call: the kind of the error and its message. Whoever reads it makes an
error of the same kind, where the kind means anything on the other side. -/
namespace DeviceAuth.Api

structure ErrorBody where
  code : String
  message : String
  deriving DecidableEq

namespace ErrorBody

def ofError (e : Error) : ErrorBody := ⟨e.kind.name, e.message⟩

def toJson (b : ErrorBody) : Json :=
  .object [("code", .string b.code), ("message", .string b.message)]

structure Members where
  code : Option String := none
  message : Option String := none

open Json.Decoder in
def decoder : Json.Decoder ErrorBody :=
  lenient "ErrorBody" [
    .of "code" string (·.code) fun a s => { s with code := some a },
    .of "message" string (·.message) fun a s => { s with message := some a }]
    ({} : Members) fun s => ⟨s.code.getD "", s.message.getD ""⟩

/-- The error that a peer reports. What only means something to the peer itself is unavailability
here, except that a peer's configuration is named as such, and that status 401 always says who is
asking. -/
def toError (b : ErrorBody) (status : Nat) : Error :=
  match b.code with
  | "invalid_argument" => .invalidArgument b.message
  | "invalid_grant" => .invalidGrant b.message
  | "invalid_client" => .invalidClient b.message
  | "insufficient_scope" => .insufficientScope b.message
  | "revoked" => .revoked
  | "unauthenticated" => .unauthenticated b.message
  | "permission_denied" => .permissionDenied b.message
  | "not_found" => .notFound b.message
  | "config" => .config (.invalidSetting "remote" b.message)
  | _ =>
    if status = 401 then .unauthenticated b.message
    else .transient (.unavailable ("HTTP " ++ Http.statusText status ++ ": " ++ b.message))

end ErrorBody

def jsonResponse (status : Nat) (body : Json) : Http.Response :=
  ⟨status, ⟨[("content-type", Text.utf8 "application/json")]⟩, Text.utf8 body.compact⟩

def errorResponse (e : Error) : Http.Response :=
  jsonResponse e.httpStatus (ErrorBody.ofError e).toJson

end DeviceAuth.Api
