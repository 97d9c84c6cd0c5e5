import DeviceAuth.Record
import DeviceAuth.Scope
import DeviceAuth.Url.Basic

/-! What can go wrong, by cause. Each cause has one message, and each error one kind, which is the
word that callers see. -/
namespace DeviceAuth

inductive StoreError where
  | serialization (message : String)
  | backend (message : String)
  deriving DecidableEq, Repr

def StoreError.message : StoreError → String
  | .serialization m => "Serialization error: " ++ m ++ "."
  | .backend m => "Backend failure: " ++ m ++ "."

def StoreError.name : StoreError → String
  | .serialization _ => "Serialization"
  | .backend _ => "Backend"

inductive EndpointRole where
  | authorization
  | token
  | redirect
  deriving DecidableEq, Repr

def EndpointRole.name : EndpointRole → String
  | .authorization => "authorization"
  | .token => "token"
  | .redirect => "redirect"

/-- Why a well-known document could not be used. -/
inductive WellKnownError where
  | url (e : Url.ParseError)
  | transport
  | status (code : Nat)
  | malformed (e : Json.Error)
  | missingField (name : String)
  | other (reason : String)
  deriving DecidableEq, Repr

/-- The transport's own words are not part of the service. -/
def WellKnownError.message : WellKnownError → String
  | .url e => e.message
  | .transport => "<transport>"
  | .status code => "Well-known endpoint answered with HTTP " ++ toString code ++ "."
  | .malformed e => e.locatedMessage
  | .missingField name => "Field `" ++ name ++ "` must be set in the well-known configuration."
  | .other reason => reason

inductive ConfigError where
  | httpClientBuild
  | invalidEndpoint (role : EndpointRole) (cause : Url.ParseError)
  | settings (reason : String)
  | invalidSetting (key reason : String)
  | wellKnown (cause : WellKnownError)
  | invalidScope (cause : ScopeError)
  | recordBuild (cause : RecordError)
  | expiresInOutOfRange
  | nonPositiveExpiresIn
  deriving DecidableEq, Repr

namespace ConfigError

def message : ConfigError → String
  | .httpClientBuild => "HTTP client could not be constructed."
  | .invalidEndpoint role _ => "The " ++ role.name ++ " URL is invalid."
  | .settings _ => "Settings could not be loaded."
  | .invalidSetting key reason => "Setting `" ++ key ++ "` is invalid: " ++ reason ++ "."
  | .wellKnown _ => "Could not retrieve the well-known configuration."
  | .invalidScope _ => "Requested scopes are invalid."
  | .recordBuild _ => "Unable to build device record."
  | .expiresInOutOfRange => "The expires_in value exceeds the supported range."
  | .nonPositiveExpiresIn => "The expires_in value must be positive."

def cause? : ConfigError → Option String
  | .invalidEndpoint _ e => some e.message
  | .settings reason => some reason
  | .wellKnown e => some e.message
  | .invalidScope e => some e.message
  | .recordBuild e => some e.message
  | _ => none

end ConfigError

inductive TransientError where
  | tokenEndpoint (reason : String) (status : Option Nat) (retryAfter : Option Span)
  | tokenResponse (cause : Json.Error) (status : Option Nat)
  | unavailable (reason : String)
  deriving DecidableEq, Repr

def TransientError.message : TransientError → String
  | .tokenEndpoint reason _ _ =>
    "Token endpoint returned an unexpected response: " ++ reason ++ "."
  | .tokenResponse _ _ => "Token endpoint returned malformed JSON."
  | .unavailable reason => "Authorization service is unavailable: " ++ reason ++ "."

def TransientError.name : TransientError → String
  | .tokenEndpoint _ _ _ => "TokenEndpoint"
  | .tokenResponse _ _ => "TokenResponseParse"
  | .unavailable _ => "Unavailable"

inductive TransportError where
  | network
  | io
  deriving DecidableEq, Repr

def TransportError.message : TransportError → String
  | .network => "Network error occurred while calling an upstream endpoint."
  | .io => "I/O error occurred while calling an upstream endpoint."

inductive Error where
  | storage (cause : StoreError)
  | config (cause : ConfigError)
  | transient (cause : TransientError)
  | transport (cause : TransportError)
  | insufficientScope (reason : String)
  | invalidGrant (reason : String)
  | invalidClient (reason : String)
  | revoked
  | invalidArgument (reason : String)
  | unauthenticated (reason : String)
  | permissionDenied (reason : String)
  | notFound (reason : String)
  deriving DecidableEq, Repr

namespace Error

inductive Kind where
  | storage
  | config
  | transient
  | transport
  | insufficientScope
  | invalidGrant
  | invalidClient
  | revoked
  | invalidArgument
  | unauthenticated
  | permissionDenied
  | notFound
  deriving DecidableEq, Repr

def Kind.name : Kind → String
  | .storage => "storage"
  | .config => "config"
  | .transient => "transient"
  | .transport => "transport"
  | .insufficientScope => "insufficient_scope"
  | .invalidGrant => "invalid_grant"
  | .invalidClient => "invalid_client"
  | .revoked => "revoked"
  | .invalidArgument => "invalid_argument"
  | .unauthenticated => "unauthenticated"
  | .permissionDenied => "permission_denied"
  | .notFound => "not_found"

def kind : Error → Kind
  | .storage _ => .storage
  | .config _ => .config
  | .transient _ => .transient
  | .transport _ => .transport
  | .insufficientScope _ => .insufficientScope
  | .invalidGrant _ => .invalidGrant
  | .invalidClient _ => .invalidClient
  | .revoked => .revoked
  | .invalidArgument _ => .invalidArgument
  | .unauthenticated _ => .unauthenticated
  | .permissionDenied _ => .permissionDenied
  | .notFound _ => .notFound

def message : Error → String
  | .storage e => e.message
  | .config e => e.message
  | .transient e => e.message
  | .transport e => e.message
  | .insufficientScope r => "Token lacks the required scopes: " ++ r ++ "."
  | .invalidGrant r => "Provider rejected the grant: " ++ r ++ "."
  | .invalidClient r => "Client authentication failed: " ++ r ++ "."
  | .revoked => "Token has been revoked."
  | .invalidArgument r => "Invalid argument: " ++ r ++ "."
  | .unauthenticated r => "Unauthenticated: " ++ r ++ "."
  | .permissionDenied r => "Permission denied: " ++ r ++ "."
  | .notFound r => "Not found: " ++ r ++ "."

/-- An instant and a span whose sum is beyond the calendar. -/
def beyondCalendar : Error := .config (.recordBuild .expiryOutOfRange)

def ofIdentifier (e : IdentifierError) : Error := .invalidArgument e.message

def httpStatus : Error → Nat
  | .invalidArgument _ | .invalidGrant _ => 400
  | .unauthenticated _ => 401
  | .permissionDenied _ | .insufficientScope _ => 403
  | .notFound _ => 404
  | .transient _ => 503
  | .transport _ => 502
  | .storage _ | .config _ | .invalidClient _ | .revoked => 500

end Error

end DeviceAuth
