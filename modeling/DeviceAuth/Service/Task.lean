import DeviceAuth.Service.Message

/-! The seven things that are asked of the service. Each has a request, an answer, a JSON form of
both, and a name. -/
namespace DeviceAuth.Service

inductive Task where
  | signUp
  | signIn
  | signOut
  | signOff
  | refresh
  | listDevices
  | deleteDevices
  deriving DecidableEq, Repr

namespace Task

def all : List Task :=
  [.signUp, .signIn, .signOut, .signOff, .refresh, .listDevices, .deleteDevices]

def label : Task → String
  | .signUp => "sign_up"
  | .signIn => "sign_in"
  | .signOut => "sign_out"
  | .signOff => "sign_off"
  | .refresh => "refresh_token"
  | .listDevices => "get_user_devices"
  | .deleteDevices => "delete_devices"

abbrev Request : Task → Type
  | .signUp => SignUpRequest
  | .signIn | .signOut | .signOff => SessionRequest
  | .refresh => RefreshRequest
  | .listDevices => ListRequest
  | .deleteDevices => DeleteRequest

abbrev Answer : Task → Type
  | .signUp => SignUpAnswer
  | .signIn => SignInAnswer
  | .signOut | .signOff => Acknowledgement
  | .refresh => RefreshAnswer
  | .listDevices => ListAnswer
  | .deleteDevices => DeleteAnswer

def requestJson : (task : Task) → task.Request → Json
  | .signUp => SignUpRequest.toJson
  | .signIn | .signOut | .signOff => SessionRequest.toJson
  | .refresh => RefreshRequest.toJson
  | .listDevices => ListRequest.toJson
  | .deleteDevices => DeleteRequest.toJson

def requestDecoder : (task : Task) → Json.Decoder task.Request
  | .signUp => SignUpRequest.decoder
  | .signIn | .signOut | .signOff => SessionRequest.decoder
  | .refresh => RefreshRequest.decoder
  | .listDevices => ListRequest.decoder
  | .deleteDevices => DeleteRequest.decoder

def answerJson : (task : Task) → task.Answer → Json
  | .signUp => SignUpAnswer.toJson
  | .signIn => SignInAnswer.toJson
  | .signOut | .signOff => Acknowledgement.toJson
  | .refresh => RefreshAnswer.toJson
  | .listDevices => ListAnswer.toJson
  | .deleteDevices => DeleteAnswer.toJson

def answerDecoder : (task : Task) → Json.Decoder task.Answer
  | .signUp => SignUpAnswer.decoder
  | .signIn => SignInAnswer.decoder
  | .signOut => Acknowledgement.decoder "SignOutResponse"
  | .signOff => Acknowledgement.decoder "SignOffResponse"
  | .refresh => RefreshAnswer.decoder
  | .listDevices => ListAnswer.decoder
  | .deleteDevices => DeleteAnswer.decoder

end Task

end DeviceAuth.Service
