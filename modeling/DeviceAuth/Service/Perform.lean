import DeviceAuth.Service.Registration
import DeviceAuth.Service.Renewal
import DeviceAuth.Service.Session
import DeviceAuth.Service.Task
import DeviceAuth.Service.UserDevices

/-! Every task as one command. Only some tasks look at the caller's bearer token. -/
namespace DeviceAuth.Service

def perform (s : Service) (bearer : String) : (task : Task) → task.Request → Command task.Answer
  | .signUp, q => s.signUp q
  | .signIn, q => signIn bearer q
  | .signOut, q => signOut bearer q
  | .signOff, q => signOff bearer q
  | .refresh, q => s.refresh q
  | .listDevices, q => s.listDevices bearer q
  | .deleteDevices, q => s.deleteDevices bearer q

end DeviceAuth.Service
