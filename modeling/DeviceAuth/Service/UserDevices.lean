import DeviceAuth.Service.Basic
import DeviceAuth.Service.Message

/-! Listing and deleting the devices of the user behind a bearer token. -/
namespace DeviceAuth.Service

/-- Empty names in the filter do not count. -/
def ListRequest.matches (q : ListRequest) (record : Record) : Bool :=
  let wanted := q.devices.filter (· ≠ "")
  wanted.isEmpty || wanted.contains record.device.text

/-- Somebody else's filter of users matches nothing. -/
def ListRequest.concerns (q : ListRequest) (user : UserId) : Bool :=
  q.users.isEmpty || q.users.contains user.text

def listDevices (s : Service) (bearer : String) (q : ListRequest) : Command ListAnswer := do
  let user ← s.verifier bearer
  if !q.concerns user then return ⟨[]⟩
  let records : List Record ← Command.store (.list user)
  return ⟨(records.filter q.matches).map fun r => ⟨r.device.text, r.owner.text⟩⟩

/-- The devices of a request, ascending and each once. -/
def DeleteRequest.targets (q : DeleteRequest) : Except Error (List DeviceId) := do
  let ids ← ((q.devices.filter (· ≠ "")).mapM (Identifier.ofString .device)).mapError .ofIdentifier
  return Identifier.sorted ids

def deleteDevice (user : UserId) (device : DeviceId) : Command Bool := do
  let found : Option Record ← Command.store (.fetch device)
  if !found.any (·.isOwnedBy user) then return false
  let removed : Option Record ← Command.store (.remove device)
  if removed.isNone then return false
  Command.ofProgram (Program.perform (.forgetGuard device))
  return true

def deleteAll (user : UserId) : List DeviceId → Command (List DeviceId)
  | [] => pure []
  | device :: rest => do
    let gone ← deleteDevice user device
    let others ← deleteAll user rest
    return if gone then device :: others else others

/-- Without a list, all of the user's devices go. -/
def deleteDevices (s : Service) (bearer : String) (q : DeleteRequest) : Command DeleteAnswer := do
  let user ← s.verifier bearer
  let requested ← Command.ofExcept q.targets
  let targets ← if requested.isEmpty then do
      let records : List Record ← Command.store (.list user)
      pure (Identifier.sorted (records.map (·.device)))
    else pure requested
  let gone ← deleteAll user targets
  return ⟨gone.map (·.text)⟩

end DeviceAuth.Service
