import DeviceAuth.Service.Basic
import DeviceAuth.Service.Message

/-! Sessions of registered devices. Whoever signs a device in, out or off has to name its owner and
to present its access token. -/
namespace DeviceAuth.Service

def SessionRequest.presented (q : SessionRequest) (bearer : String) : String :=
  if q.accessToken.isEmpty then bearer else q.accessToken.text

def authorizeSession (bearer : String) (q : SessionRequest) : Command Record := do
  let device ← Command.ofExcept (required "device_id" .device q.device)
  let user ← Command.ofExcept (required "user_id" .user q.user)
  let presented := q.presented bearer
  if presented = "" then throw (.invalidArgument "access_token is required")
  let record ← ownedDevice device user
  if !record.accessToken.agrees presented then
    throw (.unauthenticated ("access token does not match device " ++ device.text))
  return record

def refusal? (device : DeviceId) : SessionStatus → Option String
  | .active => none
  | .signedOut => some ("device " ++ device.text ++ " is signed out")
  | .expired => some ("access token of device " ++ device.text ++ " expired")
  | .pending => some ("access token of device " ++ device.text ++ " is not valid yet")

def signIn (bearer : String) (q : SessionRequest) : Command SignInAnswer := do
  let record ← authorizeSession bearer q
  let now ← Command.now
  if let some reason := refusal? record.device (record.status now) then
    throw (.unauthenticated reason)
  return ⟨record.remaining now⟩

/-- The device stays registered. Signing out twice is no error. -/
def signOut (bearer : String) (q : SessionRequest) : Command Acknowledgement := do
  let record ← authorizeSession bearer q
  if !record.isSignedOut then
    let now ← Command.now
    let _ ← Command.store (.signOut record.device now)
  return {}

/-- The record and the guard of the device go. -/
def signOff (bearer : String) (q : SessionRequest) : Command Acknowledgement := do
  let record ← authorizeSession bearer q
  let _ ← Command.store (.remove record.device)
  Command.ofProgram (Program.perform (.forgetGuard record.device))
  return {}

end DeviceAuth.Service
