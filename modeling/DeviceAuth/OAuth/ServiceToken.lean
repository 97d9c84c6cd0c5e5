import DeviceAuth.OAuth.Client

/-! A token for the calls of a service itself. It is asked for at the start and again once two
thirds of its lifetime have passed; a failure is remembered until a later attempt succeeds. -/
namespace DeviceAuth.OAuth

/-- A task that has stopped never asks again, and the rest stays as it was by then. -/
structure ServiceToken where
  token : Option Secret
  refreshAt : Option Instant
  lastError : Option String
  stopped : Bool
  deriving DecidableEq

namespace ServiceToken

/-- Tokens that came at an instant, unless two thirds of their lifetime lead out of the calendar. -/
def ofTokens? (tokens : Tokens) (now : Instant) : Option ServiceToken :=
  match tokens.lifetime with
  | none => some ⟨some tokens.accessToken, none, none, false⟩
  | some lifetime => (now.add? lifetime.twoThirds).map fun at_ =>
    ⟨some tokens.accessToken, some at_, none, false⟩

def ofResult? (result : Except Error Tokens) (now : Instant) : Option ServiceToken :=
  match result with
  | .ok tokens => ofTokens? tokens now
  | .error e => some ⟨none, some now, some e.message, false⟩

def isDue (t : ServiceToken) (now : Instant) : Bool :=
  t.refreshAt.any fun at_ => !now.before at_

def start (c : Client) : Command ServiceToken := do
  let tokens ← c.request .clientCredentials
  let now ← Command.now
  match ofTokens? tokens now with
  | some t => return t
  | none => throw .beyondCalendar

/-- Asks for a new token if it is time to. Beyond the calendar the task breaks off. -/
def tick (t : ServiceToken) (c : Client) : Program ServiceToken := do
  if t.stopped then return t
  let now ← Program.perform .now
  if t.isDue now then
    let result ← ExceptT.run (c.request .clientCredentials)
    let now ← Program.perform .now
    return (ofResult? result now).getD { t with stopped := true }
  return t

def unavailable (reason : String) : Error := .transient (.unavailable reason)

/-- The token, or the error of the last attempt. -/
def current (t : ServiceToken) : Except Error Secret :=
  match t.lastError, t.token with
  | some reason, _ => .error (unavailable reason)
  | none, some token => .ok token
  | none, none => .error (unavailable "no service token")

def outline (t : ServiceToken) : String :=
  Text.Outline.closed "ServiceTokenManager" [
    ("has_token", if t.token.isSome then "true" else "false"),
    ("refresh_at", Text.Outline.optional (t.refreshAt.map Instant.outline)),
    ("last_error", Text.Outline.optional (t.lastError.map Text.quoted))]

end ServiceToken

end DeviceAuth.OAuth
