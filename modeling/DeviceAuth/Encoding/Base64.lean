/-! Base64 over a chosen alphabet. Bytes are regrouped as big-endian digits: three bytes are four
digits of six bits. A written form is accepted without padding and with zero spare bits only, so
each byte string has one written form. -/
namespace DeviceAuth.Encoding

/-- The two digits that the alphabets differ in. -/
structure Base64 where
  digit62 : Char
  digit63 : Char

namespace Base64

def standard : Base64 := ⟨'+', '/'⟩
def urlSafe : Base64 := ⟨'-', '_'⟩

def digit (a : Base64) (n : Nat) : Char :=
  if n < 26 then Char.ofNat (65 + n)
  else if n < 52 then Char.ofNat (97 + (n - 26))
  else if n < 62 then Char.ofNat (48 + (n - 52))
  else if n = 62 then a.digit62
  else a.digit63

def value? (a : Base64) (c : Char) : Option Nat :=
  if 'A' ≤ c ∧ c ≤ 'Z' then some (c.toNat - 65)
  else if 'a' ≤ c ∧ c ≤ 'z' then some (c.toNat - 97 + 26)
  else if '0' ≤ c ∧ c ≤ '9' then some (c.toNat - 48 + 52)
  else if c = a.digit62 then some 62
  else if c = a.digit63 then some 63
  else none

def encode (a : Base64) : List UInt8 → List Char
  | [] => []
  | [x] => [a.digit (x.toNat / 4), a.digit (x.toNat % 4 * 16)]
  | [x, y] =>
    [a.digit (x.toNat / 4), a.digit (x.toNat % 4 * 16 + y.toNat / 16), a.digit (y.toNat % 16 * 4)]
  | x :: y :: z :: rest =>
    a.digit (x.toNat / 4) :: a.digit (x.toNat % 4 * 16 + y.toNat / 16) ::
      a.digit (y.toNat % 16 * 4 + z.toNat / 64) :: a.digit (z.toNat % 64) :: encode a rest

def encodePadded (a : Base64) (bytes : List UInt8) : List Char :=
  let digits := a.encode bytes
  digits ++ List.replicate ((4 - digits.length % 4) % 4) '='

def join : List Nat → Option (List UInt8)
  | [] => some []
  | [_] => none
  | [p, q] => if q % 16 = 0 then some [UInt8.ofNat (p * 4 + q / 16)] else none
  | [p, q, r] =>
    if r % 4 = 0 then some [UInt8.ofNat (p * 4 + q / 16), UInt8.ofNat (q % 16 * 16 + r / 4)]
    else none
  | p :: q :: r :: s :: rest =>
    (join rest).map fun bytes =>
      UInt8.ofNat (p * 4 + q / 16) :: UInt8.ofNat (q % 16 * 16 + r / 4) ::
        UInt8.ofNat (r % 4 * 64 + s) :: bytes

def decode? (a : Base64) (cs : List Char) : Option (List UInt8) :=
  (cs.mapM a.value?).bind join

/-- Accepts the padding that fills the last group of four digits, and no other. -/
def decodePadded? (a : Base64) (cs : List Char) : Option (List UInt8) :=
  let digits := cs.takeWhile (· ≠ '=')
  let padding := cs.dropWhile (· ≠ '=')
  if (digits.length + padding.length) % 4 = 0 ∧ padding.length ≤ 2 ∧ padding.all (· = '=') then
    a.decode? digits
  else none

end Base64

end DeviceAuth.Encoding
