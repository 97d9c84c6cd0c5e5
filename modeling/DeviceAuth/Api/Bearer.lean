import DeviceAuth.Error
import DeviceAuth.Http.Message
import DeviceAuth.Text.Blank

/-! The bearer token of a request. Only the first `Authorization` field counts, and its scheme is
compared without regard to case. -/
namespace DeviceAuth.Api

def bearerOfText (value : String) : Except Error String :=
  match Text.splitFirst ' ' value.toList with
  | none => .error (.unauthenticated "authorization header is malformed")
  | some (scheme, rest) =>
    let scheme := String.ofList scheme
    let token := Text.trim (String.ofList rest)
    if !Text.equalsIgnoringCase scheme "bearer" then
      .error (.unauthenticated ("authorization scheme " ++ scheme ++ " is not supported"))
    else if token = "" then .error (.unauthenticated "bearer token is empty")
    else .ok token

def bearer (h : Http.Headers) : Except Error String :=
  match h.get? "authorization" with
  | none => .error (.unauthenticated "authorization header is missing")
  | some value =>
    match Http.Headers.textOf? value with
    | none => .error (.unauthenticated "authorization header is not valid ASCII")
    | some text => bearerOfText text

end DeviceAuth.Api
