import DeviceAuth.Json.Basic
import DeviceAuth.Json.Token
import DeviceAuth.Text.Utf8

/-! The content of string and number literals. -/
namespace DeviceAuth.Json

namespace RawString

/-- Where the reader of a string stands: inside an escape by number it keeps the digits owed, the
number so far (none once a digit was wrong), and the leading surrogate before it. -/
inductive Phase where
  | plain
  | escape
  | hex (owed : Nat) (value : Option Nat) (lead : Option Nat)
  | lead (n : Nat)
  | leadEscape (n : Nat)

def shortEscape? (b : UInt8) : Option UInt8 :=
  if b = 0x22 ∨ b = 0x5C ∨ b = 0x2F then some b
  else if b = 0x62 then some 0x08
  else if b = 0x66 then some 0x0C
  else if b = 0x6E then some 0x0A
  else if b = 0x72 then some 0x0D
  else if b = 0x74 then some 0x09
  else none

def hexValue? (b : UInt8) : Option Nat :=
  if 0x30 ≤ b ∧ b ≤ 0x39 then some (b.toNat - 0x30)
  else if 0x41 ≤ b ∧ b ≤ 0x46 then some (b.toNat - 0x37)
  else if 0x61 ≤ b ∧ b ≤ 0x66 then some (b.toNat - 0x57)
  else none

def resolve (acc : List UInt8) (n : Nat) (lead : Option Nat) :
    Except Fault (List UInt8 × Phase) :=
  let trailing : Bool := 0xDC00 ≤ n && n ≤ 0xDFFF
  let push (code : Nat) : List UInt8 := (String.utf8EncodeChar (Char.ofNat code)).reverse ++ acc
  match lead with
  | none =>
    if trailing then .error .loneSurrogate
    else if 0xD800 ≤ n ∧ n ≤ 0xDBFF then .ok (acc, .lead n)
    else .ok (push n, .plain)
  | some high =>
    if trailing then .ok (push ((high - 0xD800) * 0x400 + (n - 0xDC00) + 0x10000), .plain)
    else .error .loneSurrogate

def byte (acc : List UInt8) (phase : Phase) (b : UInt8) : Except Fault (List UInt8 × Phase) :=
  match phase with
  | .plain =>
    if b = 0x5C then .ok (acc, .escape)
    else if b < 0x20 then .error .controlCharacter
    else .ok (b :: acc, .plain)
  | .escape =>
    if b = 0x75 then .ok (acc, .hex 4 (some 0) none)
    else match shortEscape? b with
      | some c => .ok (c :: acc, .plain)
      | none => .error .invalidEscape
  | .hex owed value lead =>
    let value := match value, hexValue? b with
      | some v, some d => some (v * 16 + d)
      | _, _ => none
    if owed ≤ 1 then
      match value with
      | none => .error .invalidEscape
      | some n => resolve acc n lead
    else .ok (acc, .hex (owed - 1) value lead)
  | .lead n => if b = 0x5C then .ok (acc, .leadEscape n) else .error .endOfHexEscape
  | .leadEscape n =>
    if b = 0x75 then .ok (acc, .hex 4 (some 0) (some n)) else .error .endOfHexEscape

/-- The bytes that the escaped bytes stand for; `acc` holds those before, in reverse. -/
def unescape (closed : Bool) (acc : List UInt8) (phase : Phase) :
    List UInt8 → Except Fault (List UInt8)
  | [] =>
    if closed then
      match phase with
      | .plain => .ok acc.reverse
      | _ => .error .endOfHexEscape
    else .error .endInString
  | b :: rest =>
    match byte acc phase b with
    | .ok (acc, phase) => unescape closed acc phase rest
    | .error f => .error f

def decode (s : RawString) : Except Fault String :=
  match unescape s.fault.isNone [] .plain s.bytes with
  | .error f => .error f
  | .ok bytes => (Text.ofUtf8? bytes).elim (.error .invalidUnicode) .ok

end RawString

namespace RawNumber

def maxNatural : Nat := Decimal.naturalEnd 64 - 1

/-- Takes digits while the number stays within 64 bits, and counts the digits after that. -/
def absorb : Nat → List Nat → Nat × Nat
  | n, [] => (n, 0)
  | n, d :: ds => if n * 10 + d ≤ maxNatural then absorb (n * 10 + d) ds else (n, ds.length + 1)

def digitsOf (bytes : List UInt8) : List Nat :=
  bytes.map fun b => b.toNat - 0x30

structure Parts where
  negative : Bool
  whole : List Nat
  fraction : Option (List Nat)
  power : Option Int

def parts (bytes : List UInt8) : Parts :=
  let negative := bytes.head? == some 0x2D
  let bytes := if negative then bytes.tail else bytes
  let mantissa := bytes.takeWhile (!Scan.isMark ·)
  let power := match bytes.dropWhile (!Scan.isMark ·) with
    | [] => none
    | _ :: rest =>
      let minus := rest.head? == some 0x2D
      let digits := if minus || rest.head? == some 0x2B then rest.tail else rest
      let n : Nat := (digitsOf digits).foldl (fun n d => n * 10 + d) 0
      some (if minus then -(n : Int) else n)
  let fraction := match mantissa.dropWhile (· ≠ 0x2E) with
    | [] => none
    | _ :: rest => some (digitsOf rest)
  ⟨negative, digitsOf (mantissa.takeWhile (· ≠ 0x2E)), fraction, power⟩

/-- A whole number within 64 bits is exact. Of any other number the digits that do not fit into 64
bits are dropped, and the rest is scaled by the power of ten. -/
def Parts.value (p : Parts) : Option Number :=
  let float (digits : Nat) (power : Int) : Option Number :=
    (Decimal.Binary64.ofDecimal digits power).map fun x =>
      .float (if p.negative then x.negate else x)
  let (whole, excess) := absorb 0 p.whole
  match p.fraction, p.power with
  | none, none =>
    if 0 < excess then float whole excess
    else if !p.negative then some (.natural whole)
    else if whole = 0 ∨ Decimal.naturalEnd 63 < whole then float whole 0
    else some (.negative whole)
  | none, some power => float whole (excess + power)
  | some fraction, power =>
    let (digits, dropped) := absorb whole fraction
    float digits (excess - (fraction.length - dropped : Nat) + power.getD 0)

def decode (n : RawNumber) : Except Fault Number :=
  match n.defect with
  | some .malformed => .error .invalidNumber
  | some .truncated => .error .endInValue
  | none => (parts n.bytes).value.elim (.error .numberOutOfRange) .ok

end RawNumber

end DeviceAuth.Json
