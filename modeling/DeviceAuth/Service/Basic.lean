import DeviceAuth.OAuth.Client

/-! The authorization service of one provider, and the checks that its commands share. -/
namespace DeviceAuth

abbrev Service.Verifier := String → Command UserId

structure Service where
  client : OAuth.Client
  provider : ProviderName
  verifier : Service.Verifier

namespace Service

namespace Verifier

/-- A token stands for the owner of an active session that holds it. -/
def ofStore : Verifier := fun bearer => do
  if bearer = "" then throw (.unauthenticated "bearer token is missing")
  match ← Command.store (.find bearer) with
  | none => throw (.unauthenticated "bearer token is unknown")
  | some record =>
    let now ← Command.now
    if record.isActive now then return record.owner
    throw (.unauthenticated "bearer token is no longer active")

def ofConsole (tokens : List (String × String)) : Verifier := fun bearer =>
  match tokens.find? (·.1 = bearer) with
  | some (_, user) => Command.ofExcept ((Identifier.ofString .user user).mapError .ofIdentifier)
  | none => throw (.unauthenticated "unknown console token")

def storeOutline : String := "StoreTokenVerifier(..)"

end Verifier

def outline (s : Service) : String :=
  Text.Outline.opened "AuthorizationService"
    [("client", s.client.outline), ("provider", s.provider.outline)]

def required (field : String) (kind : IdentifierKind) (text : String) :
    Except Error (Identifier kind) :=
  if text = "" then .error (.invalidArgument (field ++ " is required"))
  else (Identifier.ofString kind text).mapError .ofIdentifier

def checkOwner (device : DeviceId) (user : UserId) : Option Record → Except Error Record
  | none => .error (.unauthenticated ("device " ++ device.text ++ " is not registered"))
  | some record =>
    if record.isOwnedBy user then .ok record
    else .error (.permissionDenied
      ("device " ++ device.text ++ " is not owned by user " ++ user.text))

def ownedDevice (device : DeviceId) (user : UserId) : Command Record := do
  let found ← Command.store (.fetch device)
  Command.ofExcept (checkOwner device user found)

def build (draft : Record.Draft) : Command Record :=
  Command.ofExcept (draft.build.mapError fun e => .config (.recordBuild e))

end Service

end DeviceAuth
