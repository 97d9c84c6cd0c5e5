import DeviceAuth.Http.Message
import DeviceAuth.Text.Blank
import DeviceAuth.Time.MailDate

/-! The `Retry-After` field: a number of seconds, or a date that is still to come. -/
namespace DeviceAuth.Http

def signedNumber? (cs : List Char) : Option Int :=
  let n : Option Int := match cs with
    | '-' :: rest => (Text.digits? rest).map fun n => -(n : Int)
    | '+' :: rest => (Text.digits? rest).map Int.ofNat
    | rest => (Text.digits? rest).map Int.ofNat
  n.filter fun n => Decimal.signedStart 64 ≤ n ∧ n < Decimal.signedEnd 64

def retryAfter? (h : Headers) (now : Instant) : Option Span := do
  let text ← Headers.textOf? (← h.get? "retry-after")
  let text := Text.trim text
  match signedNumber? text.toList with
  | some n => if 0 ≤ n then some (.seconds n) else none
  | none =>
    let wait := (← Time.MailDate.parse? text).since now
    if 0 < wait.nanos then some wait else none

/-- What is wrong with a request for a URL, as far as its text shows. Behind a scheme and two
slashes a server has to be named; any other text has to name nothing but a server. -/
def targetFault? (url : Url) : Option String :=
  let text := url.text.toList
  let authority (cs : List Char) : List Char := cs.takeWhile fun c => c ≠ '/' ∧ c ≠ '?' ∧ c ≠ '#'
  match text.dropWhile (· ≠ ':') with
  | ':' :: '/' :: '/' :: rest => if (authority rest).isEmpty then some "invalid format" else none
  | _ =>
    let server := authority text
    let afterUser := (server.reverse.takeWhile (· ≠ '@')).reverse
    if afterUser.isEmpty ∨ 1 < afterUser.count ':' ∨ afterUser.contains '%' then
      some "invalid authority"
    else if server.length < text.length then some "invalid format"
    else none

end DeviceAuth.Http
