import DeviceAuth.Text.Utf8
import DeviceAuth.Text.Ascii

/-! Percent escapes and form fields. A byte outside the kept set is written as `%` and two
upper-case hexadecimal digits; a form writes a space as `+`, and joins `name=value` fields by `&`.
-/
namespace DeviceAuth.Encoding

def hexDigit (n : Nat) : Char :=
  if n < 10 then Char.ofNat (48 + n) else Char.ofNat (55 + n)

def hexValue? (b : UInt8) : Option Nat :=
  let n := b.toNat
  if 48 ≤ n ∧ n ≤ 57 then some (n - 48)
  else if 65 ≤ n ∧ n ≤ 70 then some (n - 55)
  else if 97 ≤ n ∧ n ≤ 102 then some (n - 87)
  else none

def percentByte (b : UInt8) : List Char :=
  ['%', hexDigit (b.toNat / 16), hexDigit (b.toNat % 16)]

/-- Escapes the bytes of a character unless `keep` holds of it; only ASCII can be kept. -/
def percentChar (keep : Char → Bool) (c : Char) : List Char :=
  if c.val < 0x80 ∧ keep c then [c] else (String.utf8EncodeChar c).flatMap percentByte

def percentEncode (keep : Char → Bool) (cs : List Char) : List Char :=
  cs.flatMap (percentChar keep)

/-- Resolves well-formed escapes and leaves any other `%` as it stands. -/
def percentDecode : List UInt8 → List UInt8
  | 0x25 :: h :: l :: rest =>
    match hexValue? h, hexValue? l with
    | some x, some y => UInt8.ofNat (x * 16 + y) :: percentDecode rest
    | _, _ => 0x25 :: percentDecode (h :: l :: rest)
  | b :: rest => b :: percentDecode rest
  | [] => []

namespace Form

def keeps (c : Char) : Bool :=
  c.isAlphanum || c == '*' || c == '-' || c == '.' || c == '_'

def encodeText (s : String) : List Char :=
  s.toList.flatMap fun c => if c = ' ' then ['+'] else percentChar keeps c

def encodePair (pair : String × String) : List Char :=
  encodeText pair.1 ++ '=' :: encodeText pair.2

def encode (pairs : List (String × String)) : List Char :=
  ['&'].intercalate (pairs.map encodePair)

def decodeText (bytes : List UInt8) : String :=
  Text.ofUtf8Lossy (percentDecode (bytes.map fun b => if b = 0x2B then 0x20 else b))

def decodeField (field : List UInt8) : String × String :=
  (decodeText (field.takeWhile (· ≠ 0x3D)), decodeText ((field.dropWhile (· ≠ 0x3D)).drop 1))

/-- The fields of a form in order; empty stretches between `&` are skipped. -/
def decode (bytes : List UInt8) : List (String × String) :=
  ((bytes.splitOnP (· = 0x26)).filter (!·.isEmpty)).map decodeField

end Form

end DeviceAuth.Encoding
