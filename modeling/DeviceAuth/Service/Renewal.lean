import DeviceAuth.Service.Basic
import DeviceAuth.Service.Message

/-! Renewal of tokens. The record is replaced only if it still carries the refresh token that was
presented. A provider's refusal ends the session. -/
namespace DeviceAuth.Service

/-- Whether a provider's answer means that the refresh token is worth nothing. -/
def endsSession : Error → Bool
  | .invalidGrant _ | .revoked => true
  | _ => false

def renew (s : Service) (device : DeviceId) (token : Secret) : Command OAuth.Tokens :=
  tryCatch (s.client.request (.refreshToken token.text)) fun e => do
    if endsSession e then
      let now ← Command.now
      let _ ← Command.store (.signOut device now)
    throw e

def checkRefreshToken (record : Record) (device : DeviceId) (presented : Secret) :
    Except Error Secret :=
  match record.refreshToken.filter fun token => token.agrees presented.text with
  | some token => .ok token
  | none => .error (.invalidGrant ("refresh token does not match device " ++ device.text))

def checkSwap (device : DeviceId) : Store.SwapOutcome → Except Error Unit
  | .updated => .ok ()
  | .missing =>
    .error (.unauthenticated ("device " ++ device.text ++ " was signed off during refresh"))
  | .refreshMismatch =>
    .error (.invalidGrant
      ("refresh token of device " ++ device.text ++ " was rotated concurrently"))

/-- A provider that sends no refresh token leaves the old one in force. -/
def renewal (current : Record) (device : DeviceId) (token : Secret) (tokens : OAuth.Tokens)
    (now : Instant) : Record.Draft :=
  ⟨device, current.owner, current.provider, tokens.accessToken,
    some (tokens.refreshToken.getD token), now, none, tokens.lifetime⟩

def exchange (s : Service) (device : DeviceId) (user : UserId) (presented : Secret) :
    Command RefreshAnswer := do
  let current ← ownedDevice device user
  let token ← Command.ofExcept (checkRefreshToken current device presented)
  let tokens ← s.renew device token
  let issued ← Command.now
  let record ← build (renewal current device token tokens issued)
  let outcome ← Command.store (.swap device (some token.text) record)
  Command.ofExcept (checkSwap device outcome)
  let now ← Command.now
  return ⟨record.accessToken, record.refreshToken.getD .empty, record.remaining now⟩

/-- The guard of the device is held all along, so one renewal at a time asks the provider. -/
def refresh (s : Service) (q : RefreshRequest) : Command RefreshAnswer := do
  let device ← Command.ofExcept (required "device_id" .device q.device)
  let user ← Command.ofExcept (required "user_id" .user q.user)
  if q.refreshToken.isEmpty then throw (.invalidArgument "refresh_token is required")
  Command.guarded device (s.exchange device user q.refreshToken)

end DeviceAuth.Service
