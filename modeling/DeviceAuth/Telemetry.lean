import DeviceAuth.Service.Task

/-! The words under which activities are counted, and how much is logged. -/
namespace DeviceAuth.Telemetry

inductive Activity where
  | task (task : Service.Task)
  | serviceToken
  deriving DecidableEq, Repr

def Activity.label : Activity → String
  | .task t => t.label
  | .serviceToken => "service_token"

def Activity.all : List Activity := Service.Task.all.map .task ++ [.serviceToken]

inductive Outcome where
  | attempt
  | success
  | failure
  deriving DecidableEq, Repr

def Outcome.label : Outcome → String
  | .attempt => "attempt"
  | .success => "success"
  | .failure => "failure"

def Outcome.all : List Outcome := [.attempt, .success, .failure]

def logFilter (debug : Bool) : String :=
  if debug then "hub_authorization=debug,tower_http=debug,info" else "info"

end DeviceAuth.Telemetry
