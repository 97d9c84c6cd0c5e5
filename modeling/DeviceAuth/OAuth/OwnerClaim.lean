import DeviceAuth.Encoding.Base64
import DeviceAuth.Error

/-! The owner of a device is a claim in the payload of a token of three parts. Tokens come straight
from the provider, so signatures are not checked. -/
namespace DeviceAuth.OAuth.OwnerClaim

def parts (token : String) : List (List Char) :=
  token.toList.splitOnP (· = '.')

/-- Three parts between dots, of which the first two are not empty. -/
def hasTokenShape (token : String) : Bool :=
  match parts token with
  | [header, payload, _] => !header.isEmpty && !payload.isEmpty
  | _ => false

def malformed (detail : String) : Error :=
  .invalidGrant ("ID token is malformed: " ++ detail)

/-- The members of the payload; padding at its end does not count. -/
def payload (token : String) : Except Error (List (String × Json)) :=
  match parts token with
  | [header, body, _] =>
    if header.isEmpty ∨ body.isEmpty then .error (malformed "expected three segments")
    else
      let digits := (body.reverse.dropWhile (· = '=')).reverse
      match Encoding.Base64.urlSafe.decode? digits with
      | none => .error (malformed "payload is not base64url")
      | some bytes =>
        match Json.decode Json.Decoder.members bytes with
        | .error _ => .error (malformed "payload is not a JSON object")
        | .ok members => .ok members
  | _ => .error (malformed "expected three segments")

def lastMember? (members : List (String × Json)) (name : String) : Option Json :=
  (members.reverse.find? (·.1 = name)).map (·.2)

def text (claim : String) : Option Json → Except Error String
  | some (.string s) => .ok s
  | some (.number n) => .ok n.text
  | some _ => .error (.invalidGrant ("owner claim `" ++ claim ++ "` is not a string"))
  | none => .error (.invalidGrant ("owner claim `" ++ claim ++ "` is missing"))

def owner (token claim : String) : Except Error UserId := do
  let members ← payload token
  let s ← text claim (lastMember? members claim)
  (Identifier.ofString .user s).mapError fun e => .invalidGrant e.message

end DeviceAuth.OAuth.OwnerClaim
