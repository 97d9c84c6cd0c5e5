import DeviceAuth.Encoding.Percent
import DeviceAuth.Url.Basic

/-! Hosts as text: names, IPv4 addresses in their numeric spellings, IPv6 addresses in brackets. -/
namespace DeviceAuth.Url

/-- A number in decimal, octal (leading `0`) or hexadecimal (leading `0x`). -/
def ipv4Number? (cs : List Char) : Option Nat :=
  let read (radix : Nat) (digit : Char → Bool) (cs : List Char) : Option Nat :=
    if cs.all digit then
      some (cs.foldl (fun n c => n * radix + ((Encoding.hexValue? c.toUInt8).getD 0)) 0)
    else none
  let isHex (c : Char) : Bool := c.isDigit || ('a' ≤ c && c ≤ 'f') || ('A' ≤ c && c ≤ 'F')
  match cs with
  | [] => none
  | '0' :: 'x' :: rest | '0' :: 'X' :: rest => read 16 isHex rest
  | '0' :: c :: rest => read 8 (fun c => '0' ≤ c && c ≤ '7') (c :: rest)
  | cs => read 10 Char.isDigit cs

def ipv4Parts (cs : List Char) : List (List Char) :=
  let parts := cs.splitOnP (· = '.')
  if parts.length > 1 ∧ parts.getLast? = some [] then parts.dropLast else parts

def endsInNumber (cs : List Char) : Bool :=
  match (ipv4Parts cs).getLast? with
  | none => false
  | some last => (!last.isEmpty && last.all Char.isDigit) || (ipv4Number? last).isSome

/-- The last part fills the bytes that the parts before it leave. -/
def ipv4? (cs : List Char) : Option Nat := do
  let numbers ← (ipv4Parts cs).mapM ipv4Number?
  let last ← numbers.getLast?
  let front := numbers.dropLast
  let lastEnd := Decimal.naturalEnd (8 * (4 - front.length))
  if numbers.length > 4 ∨ front.any (· > 255) ∨ last ≥ lastEnd then none
  else return front.foldl (fun n b => n * 256 + b) 0 * lastEnd + last

def ipv6Group? (cs : List Char) : Option Nat :=
  if cs.isEmpty ∨ cs.length > 4 then none
  else cs.foldlM (fun n c =>
    if c.val < 0x80 then (Encoding.hexValue? c.toUInt8).map (n * 16 + ·) else none) 0

/-- A part of a dotted address has no leading zero. -/
def dottedByte? (cs : List Char) : Option Nat := do
  if cs.length > 1 ∧ cs.head? = some '0' then none
  let n ← Text.digits? cs
  if n > 255 then none else return n

/-- Groups between colons; the last two may be written as a dotted address. -/
def ipv6Groups? (cs : List Char) : Option (List Nat) :=
  if cs.isEmpty then some []
  else go (cs.splitOnP (· = ':'))
where
  go : List (List Char) → Option (List Nat)
    | [] => some []
    | [last] =>
      if last.any (· = '.') then do
        match ← (last.splitOnP (· = '.')).mapM dottedByte? with
        | [a, b, c, d] => some [a * 256 + b, c * 256 + d]
        | _ => none
      else (ipv6Group? last).map ([·])
    | group :: rest => do return (← ipv6Group? group) :: (← go rest)

def splitDoubleColon : List Char → Option (List Char × List Char)
  | ':' :: ':' :: rest => some ([], rest)
  | c :: rest => (splitDoubleColon rest).map fun (before, after) => (c :: before, after)
  | [] => none

/-- Eight groups, or fewer with a double colon for the zeros that are missing. -/
def ipv6? (cs : List Char) : Option (List Nat) :=
  match splitDoubleColon cs with
  | none => do
    let groups ← ipv6Groups? cs
    if groups.length = 8 then some groups else none
  | some (before, after) => do
    if before.any (· = '.') then none
    let left ← ipv6Groups? before
    let right ← ipv6Groups? after
    if left.length + right.length ≤ 7 then
      some (left ++ List.replicate (8 - left.length - right.length) 0 ++ right)
    else none

def isForbiddenInHost (c : Char) : Bool :=
  c.val == 0 || "\t\n\r #/:<>?@[\\]^|".toList.contains c

def isForbiddenInDomain (c : Char) : Bool :=
  isForbiddenInHost c || c.val < 0x21 || c.val == 0x7F || c == '%'

def bracketed? (cs : List Char) : Option (Except ParseError Host) :=
  match cs with
  | '[' :: rest =>
    some (if rest.getLast? = some ']' then (ipv6? rest.dropLast).elim (.error .invalidIpv6)
      (.ok ∘ .ipv6) else .error .invalidIpv6)
  | _ => none

/-- The ASCII form of the domains that do not stand for themselves; none for one that is not valid.
The mapping is a table of Unicode's, and a parameter of whatever reads a URL. -/
class Idna where
  toAscii : List UInt8 → Option String

/-- Knows the domains of a list and no others. -/
abbrev Idna.ofList (known : List (String × String)) : Idna :=
  ⟨fun domain => (known.find? fun entry => Text.utf8 entry.1 = domain).map (·.2)⟩

instance (priority := low) Idna.empty : Idna := .ofList []

def isPunycode (label : List UInt8) : Bool :=
  (label.take 4).map (fun b => (Char.ofNat b.toNat).toLower) = "xn--".toList

/-- A domain in ASCII stands for itself, unless a label of it is another one in Punycode. -/
def isPlainDomain (domain : List UInt8) : Bool :=
  domain.all (· < 0x80) && (domain.splitOnP (· = 0x2E)).all (!isPunycode ·)

def domainToAscii [Idna] (domain : List UInt8) : Option String :=
  if isPlainDomain domain then
    let name := domain.map fun b => (Char.ofNat b.toNat).toLower
    if name.any isForbiddenInDomain then none else some (String.ofList name)
  else Idna.toAscii domain

def parseHost [Idna] (cs : List Char) : Except ParseError Host :=
  match bracketed? cs with
  | some r => r
  | none =>
    match domainToAscii (Encoding.percentDecode (Text.utf8 (String.ofList cs))) with
    | none => .error .invalidDomain
    | some name =>
      if name = "" then .error .emptyHost
      else if endsInNumber name.toList then
        (ipv4? name.toList).elim (.error .invalidIpv4) (.ok ∘ .ipv4)
      else .ok (.domain name)

/-- The host of any other URL: kept as it is, controls and non-ASCII escaped. -/
def parseOpaqueHost (cs : List Char) : Except ParseError Host :=
  match bracketed? cs with
  | some r => r
  | none =>
    if cs.any isForbiddenInHost then .error .forbiddenHostCharacter
    else .ok (.domain (String.ofList
      (Encoding.percentEncode (fun c => 0x1F < c.val && c.val < 0x7F) cs)))

end DeviceAuth.Url
