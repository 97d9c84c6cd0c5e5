import DeviceAuth.Decimal.Text
import DeviceAuth.Text.Quoted

/-! URLs in their parts, and the one text each has. -/
namespace DeviceAuth

inductive Url.Host where
  | domain (name : String)
  | ipv4 (address : Nat)
  | ipv6 (groups : List Nat)
  deriving DecidableEq, Repr

/-- An opaque path is one text, any other a list of segments. -/
inductive Url.Path where
  | opaquePath (text : String)
  | segments (list : List String)
  deriving DecidableEq, Repr

structure Url where
  scheme : String
  username : String
  password : String
  host : Option Url.Host
  port : Option Nat
  path : Url.Path
  query : Option String
  fragment : Option String
  deriving DecidableEq, Repr

namespace Url

inductive ParseError where
  | emptyHost
  | invalidDomain
  | invalidPort
  | invalidIpv4
  | invalidIpv6
  | forbiddenHostCharacter
  | relativeWithoutBase
  | relativeToOpaque
  deriving DecidableEq, Repr

def ParseError.message : ParseError → String
  | .emptyHost => "empty host"
  | .invalidDomain => "invalid international domain name"
  | .invalidPort => "invalid port number"
  | .invalidIpv4 => "invalid IPv4 address"
  | .invalidIpv6 => "invalid IPv6 address"
  | .forbiddenHostCharacter => "invalid domain character"
  | .relativeWithoutBase => "relative URL without a base"
  | .relativeToOpaque => "relative URL with a cannot-be-a-base base"

def ipv4Text (address : Nat) : String :=
  ".".intercalate ([24, 16, 8, 0].map fun shift =>
    Decimal.natText (address / Decimal.naturalEnd shift % 256))

/-- Start and length of the first longest run of zeros that starts at position `i` or later. -/
def longestZeros : Nat → List Nat → Nat × Nat
  | _, [] => (0, 0)
  | i, g :: rest =>
    let later := longestZeros (i + 1) rest
    let here := ((g :: rest).takeWhile (· = 0)).length
    if here ≥ later.2 ∧ 0 < here then (i, here) else later

def ipv6Text (groups : List Nat) : String :=
  let join (gs : List Nat) : String := ":".intercalate (gs.map Text.hex)
  let (start, length) := longestZeros 0 groups
  if 2 ≤ length then join (groups.take start) ++ "::" ++ join (groups.drop (start + length))
  else join groups

def Host.text : Host → String
  | .domain name => name
  | .ipv4 address => ipv4Text address
  | .ipv6 groups => "[" ++ ipv6Text groups ++ "]"

def defaultPort? (scheme : String) : Option Nat :=
  match scheme with
  | "http" | "ws" => some 80
  | "https" | "wss" => some 443
  | "ftp" => some 21
  | _ => none

/-- Schemes whose URLs have a host and take backslashes for slashes. -/
def isSpecial (scheme : String) : Bool :=
  scheme == "file" || (defaultPort? scheme).isSome

def authorityText (u : Url) : String :=
  match u.host with
  | none => ""
  | some host =>
    let password := if u.password.isEmpty then "" else ":" ++ u.password
    let userinfo := u.username ++ password
    "//" ++ (if userinfo.isEmpty then "" else userinfo ++ "@") ++ host.text ++
      (match u.port with
        | none => ""
        | some port => ":" ++ Decimal.natText port)

def Path.text : Path → String
  | .opaquePath text => text
  | .segments list => String.join (list.map ("/" ++ ·))

def pathText (u : Url) : String :=
  match u.host, u.path with
  | none, .segments ("" :: next :: rest) => "/." ++ Path.text (.segments ("" :: next :: rest))
  | _, path => path.text

def beforeQuery (u : Url) : String :=
  u.scheme ++ ":" ++ u.authorityText ++ u.pathText

def fragmentText (u : Url) : String :=
  match u.fragment with
  | none => ""
  | some fragment => "#" ++ fragment

def text (u : Url) : String :=
  u.beforeQuery ++
    (match u.query with
      | none => ""
      | some query => "?" ++ query) ++ u.fragmentText

def isHttp (u : Url) : Bool := u.scheme == "http" || u.scheme == "https"

end Url

end DeviceAuth
