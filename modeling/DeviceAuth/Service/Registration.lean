import DeviceAuth.Service.Basic
import DeviceAuth.Service.Message

/-! Signing up: an authorization code becomes tokens, the tokens name the owner, and the device is
registered to that owner. A device that belongs to somebody else stays theirs. -/
namespace DeviceAuth.Service

def checkProvider (s : Service) (presented : String) : Except Error Unit := do
  if presented ≠ "" then
    let name ← (Identifier.ofString .provider presented).mapError .ofIdentifier
    if name ≠ s.provider then
      throw (.invalidArgument ("auth_provider " ++ name.text ++ " is not supported, expected " ++
        s.provider.text))

def checkVacant (device : DeviceId) (owner : UserId) : Option Record → Except Error Unit
  | none => .ok ()
  | some record =>
    if record.isOwnedBy owner then .ok ()
    else .error (.permissionDenied
      ("device " ++ device.text ++ " is already registered to another user"))

def register (s : Service) (device : DeviceId) (owner : UserId) (tokens : OAuth.Tokens) :
    Command SignUpAnswer := do
  let found ← Command.store (.fetch device)
  Command.ofExcept (checkVacant device owner found)
  let issued ← Command.now
  let record ← build ⟨device, owner, s.provider, tokens.accessToken, tokens.refreshToken, issued,
    none, tokens.lifetime⟩
  let now ← Command.now
  Command.store (.save record)
  return ⟨record.accessToken, record.owner.text, record.refreshToken.getD .empty,
    record.remaining now, s.client.config.redirectUrl⟩

/-- The guard of the device is held from the look at its record to the save. -/
def signUp (s : Service) (q : SignUpRequest) : Command SignUpAnswer := do
  let device ← Command.ofExcept (required "device_id" .device q.device)
  if q.code.isEmpty then throw (.invalidArgument "authorization_code is required")
  Command.ofExcept (s.checkProvider q.provider)
  let tokens ← s.client.request (.authorizationCode q.code.text)
  let owner ← Command.ofExcept (s.client.owner tokens)
  Command.guarded device (s.register device owner tokens)

end DeviceAuth.Service
