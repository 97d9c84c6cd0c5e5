import DeviceAuth.Json.Decode
import DeviceAuth.Secret

/-! What a token endpoint answers: tokens as an object, or an error with its code. -/
namespace DeviceAuth.OAuth

structure TokenResponse where
  accessToken : String
  tokenType : String
  lifetime : Option Nat
  refreshToken : Option String
  scope : Option String
  idToken : Option String
  deriving DecidableEq

namespace TokenResponse

structure Members where
  accessToken : Option String := none
  tokenType : Option String := none
  lifetime : Option (Option Int) := none
  refreshToken : Option (Option String) := none
  scope : Option (Option String) := none
  idToken : Option (Option String) := none

open Json.Decoder in
/-- Other members are read like any value. -/
def shape : Shape Members TokenResponse where
  name := "StandardTokenResponse"
  fields := [
    .of "access_token" string (·.accessToken) fun a s => { s with accessToken := some a },
    .of "token_type" string (·.tokenType) fun a s => { s with tokenType := some a },
    .of "expires_in" (optional (integer "u64" 0 (Decimal.naturalEnd 64 - 1))) (·.lifetime)
      fun a s => { s with lifetime := some a },
    .of "refresh_token" (optional string) (·.refreshToken)
      fun a s => { s with refreshToken := some a },
    .of "scope" (optional string) (·.scope) fun a s => { s with scope := some a },
    .of "id_token" (optional string) (·.idToken) fun a s => { s with idToken := some a }]
  start := {}
  defaults := false
  listed := false
  other := fun levels r => (value levels r).map fun _ => ()
  finish s := do
    let accessToken ← required "access_token" s.accessToken
    let tokenType ← required "token_type" s.tokenType
    return ⟨accessToken, tokenType, (s.lifetime.getD none).map Int.toNat,
      s.refreshToken.getD none, s.scope.getD none, s.idToken.getD none⟩

def decoder : Json.Decoder TokenResponse := shape.decoder

end TokenResponse

structure ErrorResponse where
  code : String
  description : Option String
  uri : Option String
  deriving DecidableEq

namespace ErrorResponse

structure Members where
  code : Option String := none
  description : Option (Option String) := none
  uri : Option (Option String) := none

open Json.Decoder in
def shape : Shape Members ErrorResponse where
  name := "StandardErrorResponse"
  fields := [
    .of "error" string (·.code) fun a s => { s with code := some a },
    .of "error_description" (optional string) (·.description)
      fun a s => { s with description := some a },
    .of "error_uri" (optional string) (·.uri) fun a s => { s with uri := some a }]
  start := {}
  defaults := true
  listed := true
  other := skip
  finish s := do
    return ⟨← required "error" s.code, s.description.getD none, s.uri.getD none⟩

def decoder : Json.Decoder ErrorResponse := shape.decoder

end ErrorResponse

end DeviceAuth.OAuth
