import DeviceAuth.Service.Task
import DeviceAuth.WellKnown

/-! Where things are served. A task is posted to; everything else is read. -/
namespace DeviceAuth.Api

def pathStart : String := "/api/v1"

inductive Route where
  | task (task : Service.Task)
  | authorizeUrl
  | wellKnown
  | health
  deriving DecidableEq, Repr

namespace Route

def taskName : Service.Task → String
  | .signUp => "sign-up"
  | .signIn => "sign-in"
  | .signOut => "sign-out"
  | .signOff => "sign-off"
  | .refresh => "refresh-token"
  | .listDevices => "devices"
  | .deleteDevices => "delete-devices"

def path : Route → String
  | .task t => pathStart ++ "/" ++ taskName t
  | .authorizeUrl => pathStart ++ "/authorize-url"
  | .wellKnown => WellKnown.path
  | .health => "/health"

def all : List Route := Service.Task.all.map .task ++ [.authorizeUrl, .wellKnown, .health]

def ofPath? (path : String) : Option Route := all.find? (·.path = path)

/-- The methods that are answered; whatever is read can also be asked for its head alone. -/
def methods : Route → List String
  | .task _ => ["POST"]
  | _ => ["GET", "HEAD"]

def allows (r : Route) (method : String) : Bool := r.methods.contains method

def isGuarded : Route → Bool
  | .task _ | .authorizeUrl => true
  | .wellKnown | .health => false

theorem ofPath?_path (r : Route) : ofPath? r.path = some r := by
  rcases r with t | _ | _ | _
  · cases t <;> decide
  all_goals decide

theorem path_of_ofPath? {path : String} {r : Route} (h : ofPath? path = some r) :
    r.path = path := by
  simpa using List.find?_some h

end Route

end DeviceAuth.Api
