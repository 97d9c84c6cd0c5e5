import DeviceAuth.Record

/-! Requests and answers of the commands, and their JSON forms. A member of a request that is left
out is empty. -/
namespace DeviceAuth.Service

/-- An empty provider means the configured one. -/
structure SignUpRequest where
  device : String
  code : Secret
  provider : String
  deriving DecidableEq

/-- An empty access token is taken from the caller's bearer. -/
structure SessionRequest where
  device : String
  user : String
  accessToken : Secret
  deriving DecidableEq

structure RefreshRequest where
  device : String
  user : String
  refreshToken : Secret
  deriving DecidableEq

/-- Empty filters match everything. -/
structure ListRequest where
  users : List String
  devices : List String
  deriving DecidableEq

/-- No devices mean all of the caller's. -/
structure DeleteRequest where
  devices : List String
  deriving DecidableEq

structure SignUpAnswer where
  accessToken : Secret
  user : String
  refreshToken : Secret
  expiresIn : Int
  redirectUri : String
  deriving DecidableEq

structure SignInAnswer where
  expiresIn : Int
  deriving DecidableEq

/-- Says no more than that it is done. -/
structure Acknowledgement where
  deriving DecidableEq

structure RefreshAnswer where
  accessToken : Secret
  refreshToken : Secret
  expiresIn : Int
  deriving DecidableEq

structure UserDevice where
  device : String
  user : String
  deriving DecidableEq

structure ListAnswer where
  devices : List UserDevice
  deriving DecidableEq

structure DeleteAnswer where
  devices : List String
  deriving DecidableEq

def secondsDecoder : Json.Decoder Int :=
  Json.Decoder.integer "i64" (Decimal.signedStart 64) (Decimal.signedEnd 64 - 1)

namespace SignUpRequest

def toJson (q : SignUpRequest) : Json :=
  .object [("device_id", .string q.device), ("authorization_code", q.code.toJson),
    ("auth_provider", .string q.provider)]

structure Members where
  device : Option String := none
  code : Option Secret := none
  provider : Option String := none

open Json.Decoder in
def decoder : Json.Decoder SignUpRequest :=
  lenient "SignUpRequest" [
    .of "device_id" string (·.device) fun a s => { s with device := some a },
    .of "authorization_code" Secret.decoder (·.code) fun a s => { s with code := some a },
    .of "auth_provider" string (·.provider) fun a s => { s with provider := some a }]
    ({} : Members) fun s => ⟨s.device.getD "", s.code.getD .empty, s.provider.getD ""⟩

end SignUpRequest

namespace SessionRequest

def toJson (q : SessionRequest) : Json :=
  .object [("device_id", .string q.device), ("user_id", .string q.user),
    ("access_token", q.accessToken.toJson)]

structure Members where
  device : Option String := none
  user : Option String := none
  accessToken : Option Secret := none

open Json.Decoder in
def decoder : Json.Decoder SessionRequest :=
  lenient "DeviceSessionRequest" [
    .of "device_id" string (·.device) fun a s => { s with device := some a },
    .of "user_id" string (·.user) fun a s => { s with user := some a },
    .of "access_token" Secret.decoder (·.accessToken) fun a s => { s with accessToken := some a }]
    ({} : Members) fun s => ⟨s.device.getD "", s.user.getD "", s.accessToken.getD .empty⟩

end SessionRequest

namespace RefreshRequest

def toJson (q : RefreshRequest) : Json :=
  .object [("device_id", .string q.device), ("user_id", .string q.user),
    ("refresh_token", q.refreshToken.toJson)]

structure Members where
  device : Option String := none
  user : Option String := none
  refreshToken : Option Secret := none

open Json.Decoder in
def decoder : Json.Decoder RefreshRequest :=
  lenient "RefreshTokenRequest" [
    .of "device_id" string (·.device) fun a s => { s with device := some a },
    .of "user_id" string (·.user) fun a s => { s with user := some a },
    .of "refresh_token" Secret.decoder (·.refreshToken)
      fun a s => { s with refreshToken := some a }]
    ({} : Members) fun s => ⟨s.device.getD "", s.user.getD "", s.refreshToken.getD .empty⟩

end RefreshRequest

namespace ListRequest

def toJson (q : ListRequest) : Json :=
  .object [("user_ids_filter", Json.strings q.users),
    ("device_ids_filter", Json.strings q.devices)]

structure Members where
  users : Option (List String) := none
  devices : Option (List String) := none

open Json.Decoder in
def decoder : Json.Decoder ListRequest :=
  lenient "GetUserDevicesRequest" [
    .of "user_ids_filter" (list string) (·.users) fun a s => { s with users := some a },
    .of "device_ids_filter" (list string) (·.devices) fun a s => { s with devices := some a }]
    ({} : Members) fun s => ⟨s.users.getD [], s.devices.getD []⟩

end ListRequest

namespace DeleteRequest

def toJson (q : DeleteRequest) : Json :=
  .object [("device_ids", Json.strings q.devices)]

open Json.Decoder in
def decoder : Json.Decoder DeleteRequest :=
  lenient "DeleteDevicesRequest" [.of "device_ids" (list string) id fun a _ => some a]
    none fun s => ⟨s.getD []⟩

end DeleteRequest

namespace SignUpAnswer

def toJson (a : SignUpAnswer) : Json :=
  .object [("access_token", a.accessToken.toJson), ("user_id", .string a.user),
    ("refresh_token", a.refreshToken.toJson), ("expires_in", Json.int a.expiresIn),
    ("redirect_uri", .string a.redirectUri)]

structure Members where
  accessToken : Option Secret := none
  user : Option String := none
  refreshToken : Option Secret := none
  expiresIn : Option Int := none
  redirectUri : Option String := none

open Json.Decoder in
def decoder : Json.Decoder SignUpAnswer :=
  lenient "SignUpResponse" [
    .of "access_token" Secret.decoder (·.accessToken) fun a s => { s with accessToken := some a },
    .of "user_id" string (·.user) fun a s => { s with user := some a },
    .of "refresh_token" Secret.decoder (·.refreshToken)
      fun a s => { s with refreshToken := some a },
    .of "expires_in" secondsDecoder (·.expiresIn) fun a s => { s with expiresIn := some a },
    .of "redirect_uri" string (·.redirectUri) fun a s => { s with redirectUri := some a }]
    ({} : Members) fun s => ⟨s.accessToken.getD .empty, s.user.getD "",
      s.refreshToken.getD .empty, s.expiresIn.getD 0, s.redirectUri.getD ""⟩

end SignUpAnswer

namespace SignInAnswer

def toJson (a : SignInAnswer) : Json := .object [("expires_in", Json.int a.expiresIn)]

open Json.Decoder in
def decoder : Json.Decoder SignInAnswer :=
  lenient "SignInResponse" [.of "expires_in" secondsDecoder id fun a _ => some a]
    none fun s => ⟨s.getD 0⟩

end SignInAnswer

namespace Acknowledgement

def toJson (_ : Acknowledgement) : Json := .object []

def decoder (name : String) : Json.Decoder Acknowledgement :=
  Json.Decoder.lenient name [] () fun _ => {}

end Acknowledgement

namespace RefreshAnswer

def toJson (a : RefreshAnswer) : Json :=
  .object [("access_token", a.accessToken.toJson), ("refresh_token", a.refreshToken.toJson),
    ("expires_in", Json.int a.expiresIn)]

structure Members where
  accessToken : Option Secret := none
  refreshToken : Option Secret := none
  expiresIn : Option Int := none

open Json.Decoder in
def decoder : Json.Decoder RefreshAnswer :=
  lenient "RefreshTokenResponse" [
    .of "access_token" Secret.decoder (·.accessToken) fun a s => { s with accessToken := some a },
    .of "refresh_token" Secret.decoder (·.refreshToken)
      fun a s => { s with refreshToken := some a },
    .of "expires_in" secondsDecoder (·.expiresIn) fun a s => { s with expiresIn := some a }]
    ({} : Members) fun s =>
      ⟨s.accessToken.getD .empty, s.refreshToken.getD .empty, s.expiresIn.getD 0⟩

end RefreshAnswer

namespace UserDevice

def toJson (d : UserDevice) : Json :=
  .object [("device_id", .string d.device), ("user_id", .string d.user)]

structure Members where
  device : Option String := none
  user : Option String := none

open Json.Decoder in
def decoder : Json.Decoder UserDevice :=
  Shape.decoder {
    name := "UserDevice"
    fields := [
      .of "device_id" string (·.device) fun a s => { s with device := some a },
      .of "user_id" string (·.user) fun a s => { s with user := some a }]
    start := ({} : Members)
    defaults := false
    listed := true
    other := skip
    finish := fun s => do
      return ⟨← required "device_id" s.device, ← required "user_id" s.user⟩ }

end UserDevice

namespace ListAnswer

def toJson (a : ListAnswer) : Json :=
  .object [("devices", .array (a.devices.map UserDevice.toJson))]

open Json.Decoder in
def decoder : Json.Decoder ListAnswer :=
  lenient "GetUserDevicesResponse" [.of "devices" (list UserDevice.decoder) id fun a _ => some a]
    none fun s => ⟨s.getD []⟩

end ListAnswer

namespace DeleteAnswer

def toJson (a : DeleteAnswer) : Json := .object [("device_ids", Json.strings a.devices)]

open Json.Decoder in
def decoder : Json.Decoder DeleteAnswer :=
  lenient "DeleteDevicesResponse" [.of "device_ids" (list string) id fun a _ => some a]
    none fun s => ⟨s.getD []⟩

end DeleteAnswer

end DeviceAuth.Service
