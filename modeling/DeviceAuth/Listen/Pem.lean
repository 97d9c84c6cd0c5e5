import DeviceAuth.Encoding.Base64
import DeviceAuth.Listen.Der
import DeviceAuth.Text.Utf8

/-! PEM files: labelled sections of base64 between a line that begins and a line that ends each.
Text outside sections and sections of other labels are passed over. -/
namespace DeviceAuth.Listen.Pem

inductive Kind where
  | certificate
  | publicKey
  | rsaKey
  | privateKey
  | ecKey
  | revocations
  | request
  | encryptedHello
  deriving DecidableEq, Repr

structure Section where
  kind : Kind
  content : List UInt8
  deriving DecidableEq, Repr

def labels : List (String × Kind) := [
  ("CERTIFICATE", .certificate),
  ("PUBLIC KEY", .publicKey),
  ("RSA PRIVATE KEY", .rsaKey),
  ("PRIVATE KEY", .privateKey),
  ("EC PRIVATE KEY", .ecKey),
  ("X509 CRL", .revocations),
  ("CERTIFICATE REQUEST", .request),
  ("ECHCONFIG", .encryptedHello)]

def kind? (label : List UInt8) : Option Kind :=
  (labels.find? fun (name, _) => Text.utf8 name = label).map (·.2)

def dash : UInt8 := 0x2D
def blank : UInt8 := 0x20

inductive Line where
  | starts (label : List UInt8)
  | malformedStart
  | other
  deriving DecidableEq, Repr

/-- A line that begins a section ends in exactly five dashes; blanks may stand among them. -/
def classify (line : List UInt8) : Line :=
  let opening := Text.utf8 "-----BEGIN "
  if !opening.isPrefixOf line then .other
  else
    let tail := (line.reverse.takeWhile fun b => b = dash ∨ b = blank).reverse.dropWhile (· = blank)
    if tail.count dash ≠ 5 then .malformedStart
    else .starts ((line.take (line.length - tail.length)).drop opening.length)

def endLine (label : List UInt8) : List UInt8 :=
  Text.utf8 "-----END " ++ label ++ Text.utf8 "-----"

def isSpace (b : UInt8) : Bool := b == blank || (0x09 ≤ b && b ≤ 0x0D)

def clearSpareBits (values : List Nat) : List Nat :=
  match values.length % 4, values.getLast? with
  | 2, some last => values.dropLast ++ [last / 16 * 16]
  | 3, some last => values.dropLast ++ [last / 4 * 4]
  | _, _ => values

/-- The bytes of a section. Padding may be left out, but not in part. -/
def decode? (body : List UInt8) : Option (List UInt8) := do
  let chars := (body.filter (!isSpace ·)).map fun b => Char.ofNat b.toNat
  let digits := chars.takeWhile (· ≠ '=')
  let padding := chars.dropWhile (· ≠ '=')
  if padding.any (· ≠ '=') then none
  else if padding.isEmpty ∨ (padding.length ≤ 2 ∧ (digits.length + padding.length) % 4 = 0) then
    Encoding.Base64.join (clearSpareBits (← digits.mapM Encoding.Base64.standard.value?))
  else none

structure Unfinished where
  label : List UInt8
  body : List UInt8

/-- The sections up to the first that is broken, and whether there is such a one. A new beginning
keeps the lines of a section that was not ended. -/
def scan : Option Unfinished → List (List UInt8) → List Section × Bool
  | state, [] => ([], state.isSome)
  | state, line :: rest =>
    match classify line with
    | .malformedStart => ([], true)
    | .starts label => scan (some ⟨label, (state.map (·.body)).getD []⟩) rest
    | .other =>
      match state with
      | none => scan none rest
      | some u =>
        if !(endLine u.label).isPrefixOf line then scan (some ⟨u.label, u.body ++ line⟩) rest
        else match kind? u.label with
          | none => scan none rest
          | some kind =>
            match decode? u.body with
            | none => ([], true)
            | some content =>
              let (sections, broken) := scan none rest
              (⟨kind, content⟩ :: sections, broken)

def sections (bytes : List UInt8) : List Section × Bool :=
  scan none (bytes.splitOnP fun b => b = 0x0A ∨ b = 0x0D)

namespace Section

def isKey (s : Section) : Bool :=
  s.kind = .rsaKey || s.kind = .privateKey || s.kind = .ecKey

def isWellFormed (s : Section) : Bool :=
  match Der.sequenceTags? s.content with
  | none => false
  | some tags =>
    match s.kind with
    | .certificate => tags == [Der.sequence, Der.sequence, Der.bitString]
    | .privateKey => [Der.integer, Der.sequence, Der.octetString].isPrefixOf tags
    | .ecKey => [Der.integer, Der.octetString].isPrefixOf tags
    | .rsaKey => (List.replicate 9 Der.integer).isPrefixOf tags
    | _ => true

end Section

end DeviceAuth.Listen.Pem
