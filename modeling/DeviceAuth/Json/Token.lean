import DeviceAuth.Json.Fault

/-! The tokens of a JSON text. The scanner is a machine fed one byte at a time; it ends at the first
broken literal, and leaves the content of numbers and strings to whoever reads them. -/
namespace DeviceAuth.Json

inductive NumberDefect where
  | malformed
  | truncated
  deriving DecidableEq, Repr

/-- The bytes between the quotes, escapes unresolved, up to and with the byte that broke it. -/
structure RawString where
  bytes : List UInt8
  fault : Option Fault
  deriving DecidableEq, Repr

structure RawNumber where
  bytes : List UInt8
  defect : Option NumberDefect
  deriving DecidableEq, Repr

inductive Token where
  | openList
  | closeList
  | openObject
  | closeObject
  | comma
  | colon
  | null
  | bool (b : Bool)
  | number (n : RawNumber)
  | string (s : RawString)
  | misspelt
  | stray
  deriving DecidableEq, Repr

namespace Scan

inductive NumberPhase where
  | sign
  | zero
  | whole
  | point
  | fraction
  | mark
  | markSign
  | power

inductive StringPhase where
  | plain
  | escape
  | hex (owed : Nat) (good : Bool)

/-- Where the scanner stands; what it read of a literal is kept in reverse. -/
inductive Mode where
  | gap
  | literal (owed : List UInt8) (token : Token)
  | number (read : List UInt8) (phase : NumberPhase)
  | string (read : List UInt8) (phase : StringPhase)
  | stopped

end Scan

structure Scan where
  tokens : List Token
  mode : Scan.Mode

namespace Scan

def start : Scan := ⟨[], .gap⟩

def isSpace (b : UInt8) : Bool := b == 0x20 || b == 0x0A || b == 0x09 || b == 0x0D

def isDigit (b : UInt8) : Bool := 0x30 ≤ b && b ≤ 0x39

def isHex (b : UInt8) : Bool :=
  isDigit b || (0x41 ≤ b && b ≤ 0x46) || (0x61 ≤ b && b ≤ 0x66)

def isShortEscape (b : UInt8) : Bool :=
  b == 0x22 || b == 0x5C || b == 0x2F || b == 0x62 || b == 0x66 || b == 0x6E || b == 0x72 ||
    b == 0x74

def emit (s : Scan) (t : Token) : Scan := ⟨t :: s.tokens, .gap⟩

def stop (s : Scan) (t : Token) : Scan := ⟨t :: s.tokens, .stopped⟩

def gap (s : Scan) (b : UInt8) : Scan :=
  if isSpace b then s
  else if b == 0x22 then ⟨s.tokens, .string [] .plain⟩
  else if b == 0x2C then s.emit .comma
  else if b == 0x3A then s.emit .colon
  else if b == 0x7B then s.emit .openObject
  else if b == 0x7D then s.emit .closeObject
  else if b == 0x5B then s.emit .openList
  else if b == 0x5D then s.emit .closeList
  else if b == 0x2D then ⟨s.tokens, .number [b] .sign⟩
  else if b == 0x30 then ⟨s.tokens, .number [b] .zero⟩
  else if isDigit b then ⟨s.tokens, .number [b] .whole⟩
  else if b == 0x6E then ⟨s.tokens, .literal [0x75, 0x6C, 0x6C] .null⟩
  else if b == 0x74 then ⟨s.tokens, .literal [0x72, 0x75, 0x65] (.bool true)⟩
  else if b == 0x66 then ⟨s.tokens, .literal [0x61, 0x6C, 0x73, 0x65] (.bool false)⟩
  else s.stop .stray

/-- What a byte does to a number: go on in a phase, end before the byte, or break. -/
inductive NumberMove where
  | go (phase : NumberPhase)
  | finish
  | broken

def isMark (b : UInt8) : Bool := b == 0x65 || b == 0x45

def NumberPhase.move (b : UInt8) : NumberPhase → NumberMove
  | .sign => if b == 0x30 then .go .zero else if isDigit b then .go .whole else .broken
  | .zero =>
    if isDigit b then .broken else if b == 0x2E then .go .point
    else if isMark b then .go .mark else .finish
  | .whole =>
    if isDigit b then .go .whole else if b == 0x2E then .go .point
    else if isMark b then .go .mark else .finish
  | .point => if isDigit b then .go .fraction else .broken
  | .fraction =>
    if isDigit b then .go .fraction else if isMark b then .go .mark else .finish
  | .mark =>
    if b == 0x2B || b == 0x2D then .go .markSign else if isDigit b then .go .power else .broken
  | .markSign => if isDigit b then .go .power else .broken
  | .power => if isDigit b then .go .power else .finish

def NumberPhase.complete : NumberPhase → Bool
  | .zero | .whole | .fraction | .power => true
  | .sign | .point | .mark | .markSign => false

def byte (s : Scan) (b : UInt8) : Scan :=
  match s.mode with
  | .stopped => s
  | .gap => s.gap b
  | .literal owed token =>
    match owed with
    | [] => s.stop .misspelt
    | [c] => if b == c then s.emit token else s.stop .misspelt
    | c :: rest => if b == c then ⟨s.tokens, .literal rest token⟩ else s.stop .misspelt
  | .number read phase =>
    match phase.move b with
    | .go next => ⟨s.tokens, .number (b :: read) next⟩
    | .finish => (s.emit (.number ⟨read.reverse, none⟩)).gap b
    | .broken => s.stop (.number ⟨read.reverse, some .malformed⟩)
  | .string read .plain =>
    if b == 0x22 then s.emit (.string ⟨read.reverse, none⟩)
    else if b == 0x5C then ⟨s.tokens, .string (b :: read) .escape⟩
    else if b < 0x20 then s.stop (.string ⟨(b :: read).reverse, some .controlCharacter⟩)
    else ⟨s.tokens, .string (b :: read) .plain⟩
  | .string read .escape =>
    if isShortEscape b then ⟨s.tokens, .string (b :: read) .plain⟩
    else if b == 0x75 then ⟨s.tokens, .string (b :: read) (.hex 4 true)⟩
    else s.stop (.string ⟨(b :: read).reverse, some .invalidEscape⟩)
  | .string read (.hex owed good) =>
    let good := good && isHex b
    if owed ≤ 1 then
      if good then ⟨s.tokens, .string (b :: read) .plain⟩
      else s.stop (.string ⟨(b :: read).reverse, some .invalidEscape⟩)
    else ⟨s.tokens, .string (b :: read) (.hex (owed - 1) good)⟩

def finish (s : Scan) : List Token :=
  let last : List Token := match s.mode with
    | .gap | .stopped => []
    | .literal _ _ => [.misspelt]
    | .number read phase =>
      [.number ⟨read.reverse, if phase.complete then none else some .truncated⟩]
    | .string read _ => [.string ⟨read.reverse, some .endInString⟩]
  s.tokens.reverse ++ last

end Scan

def tokens (text : List UInt8) : List Token :=
  (text.foldl Scan.byte .start).finish

end DeviceAuth.Json
