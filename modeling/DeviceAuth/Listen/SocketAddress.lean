import DeviceAuth.Url.Host

/-! Addresses to listen on: an IPv4 address or an IPv6 address in brackets, perhaps with a scope,
and a port. -/
namespace DeviceAuth.Listen

inductive SocketAddress where
  | ipv4 (address : Nat) (port : Nat)
  | ipv6 (groups : List Nat) (scope : Nat) (port : Nat)
  deriving DecidableEq, Repr

namespace SocketAddress

def numberBelow? (bound : Nat) (cs : List Char) : Option Nat :=
  (Text.digits? cs).filter (· < bound)

def port? : List Char → Option Nat := numberBelow? (Decimal.naturalEnd 16)

def scoped? (cs : List Char) : Option (List Nat × Nat) :=
  match Text.splitFirst '%' cs with
  | none => (Url.ipv6? cs).map (·, 0)
  | some (address, scope) => do
    return (← Url.ipv6? address, ← numberBelow? (Decimal.naturalEnd 32) scope)

def parseIpv6? (cs : List Char) : Option SocketAddress := do
  let (inside, rest) ← Text.splitFirst ']' cs
  let (groups, scope) ← scoped? inside
  match rest with
  | ':' :: port => return .ipv6 groups scope (← port? port)
  | _ => none

def parseIpv4? (cs : List Char) : Option SocketAddress := do
  let (address, port) ← Text.splitFirst ':' cs
  let bytes ← (address.splitOnP (· = '.')).mapM Url.dottedByte?
  if bytes.length = 4 then
    return .ipv4 (bytes.foldl (fun n b => n * 256 + b) 0) (← port? port)
  else none

def parse? (s : String) : Option SocketAddress :=
  match s.toList with
  | '[' :: rest => parseIpv6? rest
  | cs => parseIpv4? cs

/-- An IPv4 address inside IPv6 keeps its dots. -/
def groupsText (groups : List Nat) : String :=
  match groups with
  | [0, 0, 0, 0, 0, 0xFFFF, high, low] => "::ffff:" ++ Url.ipv4Text (high * 65536 + low)
  | _ => Url.ipv6Text groups

def text : SocketAddress → String
  | .ipv4 address port => Url.ipv4Text address ++ ":" ++ Decimal.natText port
  | .ipv6 groups scope port =>
    "[" ++ groupsText groups ++ (if scope = 0 then "" else "%" ++ Decimal.natText scope) ++ "]:" ++
      Decimal.natText port

end SocketAddress

end DeviceAuth.Listen
