import DeviceAuth.Text.Printable

/-! Quoted texts, as diagnostics show them: the quote, the backslash and the usual controls are
escaped by a letter, and what has no shape of its own by its number in hexadecimal. -/
namespace DeviceAuth.Text

def hex (n : Nat) : String :=
  String.ofList (Nat.toDigits 16 n)

def quotedChar (c : Char) : List Char :=
  if c = '"' then ['\\', '"']
  else if c = '\\' then ['\\', '\\']
  else if c = '\t' then ['\\', 't']
  else if c = '\n' then ['\\', 'n']
  else if c = '\r' then ['\\', 'r']
  else if c.val = 0 then ['\\', '0']
  else if isPrintable c then [c]
  else ['\\', 'u', '\x7b'] ++ (hex c.toNat).toList ++ ['\x7d']

def quoted (s : String) : String :=
  String.ofList ('"' :: s.toList.flatMap quotedChar ++ ['"'])

/-- Bytes of a header value: visible ASCII and tabs as they are, the rest by number. -/
def quotedBytes (bytes : List UInt8) : String :=
  let show1 (b : UInt8) : List Char :=
    if b = 0x22 then ['\\', '"']
    else if (32 ≤ b ∧ b < 127) ∨ b = 9 then [Char.ofNat b.toNat]
    else ['\\', 'x'] ++ (hex b.toNat).toList
  String.ofList ('"' :: bytes.flatMap show1 ++ ['"'])

end DeviceAuth.Text
