import DeviceAuth.Identifier
import DeviceAuth.Secret
import DeviceAuth.Time.Instant

/-! Records of registered devices: who owns the device, the tokens it holds, and the instants that
decide what its session is worth. -/
namespace DeviceAuth

inductive SessionStatus where
  | pending
  | active
  | expired
  | signedOut
  deriving DecidableEq, Repr

def SessionStatus.name : SessionStatus → String
  | .pending => "Pending"
  | .active => "Active"
  | .expired => "Expired"
  | .signedOut => "SignedOut"

structure Record where
  device : DeviceId
  owner : UserId
  provider : ProviderName
  accessToken : Secret
  refreshToken : Option Secret
  issuedAt : Instant
  expiresAt : Option Instant
  signedOutAt : Option Instant
  deriving DecidableEq

inductive RecordError where
  | missingAccessToken
  | expiryOutOfRange
  deriving DecidableEq, Repr

def RecordError.message : RecordError → String
  | .missingAccessToken => "Access token is required."
  | .expiryOutOfRange => "resulting value is out of range"

namespace Record

/-- What a record is made from. An instant of expiry wins over a lifetime. -/
structure Draft where
  device : DeviceId
  owner : UserId
  provider : ProviderName
  accessToken : Secret
  refreshToken : Option Secret
  issuedAt : Instant
  expiresAt : Option Instant
  lifetime : Option Span

def Draft.expiry (d : Draft) : Except RecordError (Option Instant) :=
  match d.expiresAt, d.lifetime with
  | some t, _ => .ok (some t)
  | none, none => .ok none
  | none, some lifetime =>
    match d.issuedAt.add? lifetime with
    | some t => .ok (some t)
    | none => .error .expiryOutOfRange

def Draft.build (d : Draft) : Except RecordError Record := do
  if d.accessToken.isEmpty then throw .missingAccessToken
  let expiry ← d.expiry
  return ⟨d.device, d.owner, d.provider, d.accessToken,
    d.refreshToken.filter (!·.isEmpty), d.issuedAt, expiry, none⟩

def isSignedOut (r : Record) : Bool := r.signedOutAt.isSome

def status (r : Record) (now : Instant) : SessionStatus :=
  if r.isSignedOut then .signedOut
  else if now.before r.issuedAt then .pending
  else if r.expiresAt.any fun t => !now.before t then .expired
  else .active

def isActive (r : Record) (now : Instant) : Bool := r.status now = .active

/-- Whole seconds that are left, at least zero; -1 for a session that never expires. -/
def remaining (r : Record) (now : Instant) : Int :=
  match r.expiresAt with
  | some t => max (t.since now).wholeSeconds 0
  | none => -1

def isOwnedBy (r : Record) (user : UserId) : Bool := r.owner = user

/-- Ends the session; the first instant at which it ended stays. -/
def signOut (r : Record) (now : Instant) : Record :=
  { r with signedOutAt := some (r.signedOutAt.getD now) }

def outline (r : Record) : String :=
  Text.Outline.closed "DeviceRecord" [
    ("device_id", r.device.outline),
    ("owner", r.owner.outline),
    ("provider", r.provider.outline),
    ("access_token", Text.Outline.redacted),
    ("refresh_token", Text.Outline.optional (r.refreshToken.map fun _ => Text.Outline.redacted)),
    ("issued_at", r.issuedAt.outline),
    ("expires_at", Text.Outline.optional (r.expiresAt.map Instant.outline)),
    ("signed_out_at", Text.Outline.optional (r.signedOutAt.map Instant.outline))]

def toJson (r : Record) : Json :=
  .object [
    ("device_id", r.device.toJson),
    ("owner", r.owner.toJson),
    ("provider", r.provider.toJson),
    ("access_token", r.accessToken.toJson),
    ("refresh_token", Json.optional Secret.toJson r.refreshToken),
    ("issued_at", r.issuedAt.toJson),
    ("expires_at", Json.optional Instant.toJson r.expiresAt),
    ("signed_out_at", Json.optional Instant.toJson r.signedOutAt)]

structure Members where
  device : Option DeviceId := none
  owner : Option UserId := none
  provider : Option ProviderName := none
  accessToken : Option Secret := none
  refreshToken : Option (Option Secret) := none
  issuedAt : Option Instant := none
  expiresAt : Option (Option Instant) := none
  signedOutAt : Option (Option Instant) := none

open Json.Decoder in
def fields : List (Json.Decoder.Field Members) := [
  .of "device_id" (Identifier.decoder .device) (·.device) fun a s => { s with device := some a },
  .of "owner" (Identifier.decoder .user) (·.owner) fun a s => { s with owner := some a },
  .of "provider" (Identifier.decoder .provider) (·.provider)
    fun a s => { s with provider := some a },
  .of "access_token" Secret.decoder (·.accessToken) fun a s => { s with accessToken := some a },
  .of "refresh_token" (optional Secret.decoder) (·.refreshToken)
    fun a s => { s with refreshToken := some a },
  .of "issued_at" Instant.decoder (·.issuedAt) fun a s => { s with issuedAt := some a },
  .of "expires_at" (optional Instant.decoder) (·.expiresAt)
    fun a s => { s with expiresAt := some a },
  .of "signed_out_at" (optional Instant.decoder) (·.signedOutAt)
    fun a s => { s with signedOutAt := some a }]

open Json.Decoder in
def Members.finish (s : Members) : Except Json.Error Record := do
  let device ← required "device_id" s.device
  let owner ← required "owner" s.owner
  let provider ← required "provider" s.provider
  let accessToken ← required "access_token" s.accessToken
  let issuedAt ← required "issued_at" s.issuedAt
  return ⟨device, owner, provider, accessToken, s.refreshToken.getD none, issuedAt,
    s.expiresAt.getD none, s.signedOutAt.getD none⟩

def decoder : Json.Decoder Record :=
  Json.Decoder.Shape.decoder {
    name := "DeviceRecord"
    fields := fields
    start := {}
    defaults := false
    listed := true
    other := Json.Decoder.skip
    finish := Members.finish }

end Record

end DeviceAuth
