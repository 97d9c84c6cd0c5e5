import DeviceAuth.Json.Basic
import DeviceAuth.Text.Quoted

/-! JSON as text. The compact form has no spaces; the spread form puts every item and member on a
line of its own, two blanks deeper than what holds it. -/
namespace DeviceAuth.Json

def escapeChar (c : Char) : List Char :=
  if c = '"' then ['\\', '"']
  else if c = '\\' then ['\\', '\\']
  else if c = '\n' then ['\\', 'n']
  else if c = '\r' then ['\\', 'r']
  else if c = '\t' then ['\\', 't']
  else if c.val = 8 then ['\\', 'b']
  else if c.val = 12 then ['\\', 'f']
  else if c.val < 0x20 then
    ['\\', 'u', '0', '0', Nat.digitChar (c.toNat / 16), Nat.digitChar (c.toNat % 16)]
  else [c]

def writeString (s : String) : List Char :=
  '"' :: s.toList.flatMap escapeChar ++ ['"']

def writeLeaf : Json → List Char
  | .null => "null".toList
  | .bool true => "true".toList
  | .bool false => "false".toList
  | .number n => n.text.toList
  | .string s => writeString s
  | .array _ => []
  | .object _ => []

mutual

def writeCompact : Json → List Char
  | .array items => '[' :: (writeCompactItems items ++ [']'])
  | .object members => '\x7b' :: (writeCompactMembers members ++ ['\x7d'])
  | v => writeLeaf v

def writeCompactItems : List Json → List Char
  | [] => []
  | [v] => writeCompact v
  | v :: rest => writeCompact v ++ ',' :: writeCompactItems rest

def writeCompactMembers : List (String × Json) → List Char
  | [] => []
  | [(k, v)] => writeString k ++ ':' :: writeCompact v
  | (k, v) :: rest => writeString k ++ ':' :: (writeCompact v ++ ',' :: writeCompactMembers rest)

end

def compact (v : Json) : String :=
  String.ofList (writeCompact v)

def newline (depth : Nat) : List Char :=
  '\n' :: List.replicate (2 * depth) ' '

mutual

def writeSpread (depth : Nat) : Json → List Char
  | .array [] => ['[', ']']
  | .array items =>
    '[' :: (writeSpreadItems (depth + 1) items ++ newline depth ++ [']'])
  | .object [] => ['\x7b', '\x7d']
  | .object members =>
    '\x7b' :: (writeSpreadMembers (depth + 1) members ++ newline depth ++ ['\x7d'])
  | v => writeLeaf v

def writeSpreadItems (depth : Nat) : List Json → List Char
  | [] => []
  | [v] => newline depth ++ writeSpread depth v
  | v :: rest => newline depth ++ writeSpread depth v ++ ',' :: writeSpreadItems depth rest

def writeSpreadMembers (depth : Nat) : List (String × Json) → List Char
  | [] => []
  | [(k, v)] => newline depth ++ writeString k ++ ':' :: ' ' :: writeSpread depth v
  | (k, v) :: rest =>
    newline depth ++ writeString k ++ ':' :: ' ' ::
      (writeSpread depth v ++ ',' :: writeSpreadMembers depth rest)

end

def spread (v : Json) : String :=
  String.ofList (writeSpread 0 v)

end DeviceAuth.Json
