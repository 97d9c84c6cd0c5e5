import DeviceAuth.Error
import DeviceAuth.Text.Ascii

/-! Grants, and how a provider's refusal of one is classified: first by its error code, then by what
its text says, then by the HTTP status. -/
namespace DeviceAuth.OAuth

inductive GrantType where
  | authorizationCode
  | refreshToken
  | clientCredentials
  deriving DecidableEq, Repr

def GrantType.name : GrantType → String
  | .authorizationCode => "authorization_code"
  | .refreshToken => "refresh_token"
  | .clientCredentials => "client_credentials"

def GrantType.all : List GrantType := [.authorizationCode, .refreshToken, .clientCredentials]

inductive RefusalKind where
  | invalidGrant
  | invalidClient
  | insufficientScope
  | revoked
  | transient
  deriving DecidableEq, Repr

def RefusalKind.name : RefusalKind → String
  | .invalidGrant => "InvalidGrant"
  | .invalidClient => "InvalidClient"
  | .insufficientScope => "InsufficientScope"
  | .revoked => "Revoked"
  | .transient => "Transient"

def RefusalKind.toError (kind : RefusalKind) (reason : String) (status : Option Nat)
    (retryAfter : Option Span) : Error :=
  match kind with
  | .invalidGrant => .invalidGrant reason
  | .invalidClient => .invalidClient reason
  | .insufficientScope => .insufficientScope reason
  | .revoked => .revoked
  | .transient => .transient (.tokenEndpoint reason status retryAfter)

structure Refusal where
  grant : GrantType
  status : Option Nat
  code : Option String
  description : Option String
  preview : Option String
  deriving DecidableEq

def previewLength : Nat := 256

def preview (body : String) : String :=
  if body.length ≤ previewLength then body
  else String.ofList (body.toList.take previewLength ++ ['…'])

abbrev Strategy := Refusal → RefusalKind

namespace Strategy

def name : String := "default-provider-strategy"

/-- The codes that are recognised, whatever their case. -/
def codes : List (String × RefusalKind) := [
  ("invalid_grant", .invalidGrant),
  ("access_denied", .invalidGrant),
  ("bad_verification_code", .invalidGrant),
  ("bad_refresh_token", .invalidGrant),
  ("invalid_client", .invalidClient),
  ("unauthorized_client", .invalidClient),
  ("incorrect_client_credentials", .invalidClient),
  ("invalid_scope", .insufficientScope),
  ("insufficient_scope", .insufficientScope),
  ("token_revoked", .revoked),
  ("revoked_token", .revoked),
  ("temporarily_unavailable", .transient),
  ("server_error", .transient),
  ("slow_down", .transient)]

def ofCode (code : String) : Option RefusalKind :=
  (codes.find? fun (c, _) => Text.equalsIgnoringCase code c).map (·.2)

/-- The words that a text is searched for, the first that occurs counts. -/
def words : List (String × RefusalKind) := [
  ("invalid_grant", .invalidGrant),
  ("bad_verification_code", .invalidGrant),
  ("bad_refresh_token", .invalidGrant),
  ("invalid_client", .invalidClient),
  ("insufficient_scope", .insufficientScope),
  ("invalid_scope", .insufficientScope),
  ("revoked", .revoked),
  ("temporarily_unavailable", .transient),
  ("retry", .transient)]

def ofText (text : String) : Option RefusalKind :=
  (words.find? fun (w, _) => Text.contains (Text.lower text) w).map (·.2)

def ofStatus : Option Nat → RefusalKind
  | some 400 | some 404 | some 410 => .invalidGrant
  | some 401 => .invalidClient
  | some 403 => .insufficientScope
  | _ => .transient

/-- Code, description as a code, description as text, body, status. -/
def default : Strategy := fun r =>
  (((r.code.bind ofCode).orElse fun _ => r.description.bind ofCode).orElse
    fun _ => (r.description.bind ofText).orElse fun _ => r.preview.bind ofText).getD
      (ofStatus r.status)

def always (kind : RefusalKind) : Strategy := fun _ => kind

end Strategy

end DeviceAuth.OAuth
