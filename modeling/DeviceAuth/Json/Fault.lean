import DeviceAuth.Text.Quoted

/-! What can be wrong with a JSON text: a fault breaks the grammar or the content of a literal, a
mismatch is a well-formed value of another shape than asked for. -/
namespace DeviceAuth.Json

inductive Fault where
  | endInList
  | endInObject
  | endInString
  | endInValue
  | expectedColon
  | expectedListEnd
  | expectedObjectEnd
  | expectedIdent
  | expectedValue
  | invalidEscape
  | invalidNumber
  | numberOutOfRange
  | invalidUnicode
  | controlCharacter
  | keyNotString
  | loneSurrogate
  | trailingComma
  | trailingCharacters
  | endOfHexEscape
  | tooDeep
  deriving DecidableEq, Repr

def Fault.message : Fault → String
  | .endInList => "EOF while parsing a list"
  | .endInObject => "EOF while parsing an object"
  | .endInString => "EOF while parsing a string"
  | .endInValue => "EOF while parsing a value"
  | .expectedColon => "expected `:`"
  | .expectedListEnd => "expected `,` or `]`"
  | .expectedObjectEnd => "expected `,` or `\x7d`"
  | .expectedIdent => "expected ident"
  | .expectedValue => "expected value"
  | .invalidEscape => "invalid escape"
  | .invalidNumber => "invalid number"
  | .numberOutOfRange => "number out of range"
  | .invalidUnicode => "invalid unicode code point"
  | .controlCharacter => "control character (\\u0000-\\u001F) found while parsing a string"
  | .keyNotString => "key must be a string"
  | .loneSurrogate => "lone leading surrogate in hex escape"
  | .trailingComma => "trailing comma"
  | .trailingCharacters => "trailing characters"
  | .endOfHexEscape => "unexpected end of hex escape"
  | .tooDeep => "recursion limit exceeded"

inductive Mismatch where
  | type (found expected : String)
  | value (found expected : String)
  | length (found : Nat) (expected : String)
  | missing (field : String)
  | duplicate (field : String)
  | variant (found : String) (expected : List String)
  | refused (reason : String)
  deriving DecidableEq, Repr

/-- Names in backticks: two joined by `or`, more introduced by `one of`. -/
def oneOf : List String → String
  | [] => "no variants"
  | [a] => "`" ++ a ++ "`"
  | [a, b] => "`" ++ a ++ "` or `" ++ b ++ "`"
  | names => "one of " ++ ", ".intercalate (names.map fun n => "`" ++ n ++ "`")

def Mismatch.message : Mismatch → String
  | .type found expected => "invalid type: " ++ found ++ ", expected " ++ expected
  | .value found expected => "invalid value: " ++ found ++ ", expected " ++ expected
  | .length found expected => "invalid length " ++ toString found ++ ", expected " ++ expected
  | .missing field => "missing field `" ++ field ++ "`"
  | .duplicate field => "duplicate field `" ++ field ++ "`"
  | .variant found expected => "unknown variant `" ++ found ++ "`, expected " ++ oneOf expected
  | .refused reason => reason

inductive Cause where
  | fault (f : Fault)
  | mismatch (m : Mismatch)
  deriving DecidableEq, Repr

def Cause.message : Cause → String
  | .fault f => f.message
  | .mismatch m => m.message

inductive Step where
  | index (i : Nat)
  | key (name : String)
  deriving DecidableEq, Repr

structure Error where
  path : List Step
  cause : Cause
  deriving DecidableEq, Repr

def Error.within (step : Step) (e : Error) : Error :=
  { e with path := step :: e.path }

def Error.ofFault (f : Fault) : Error := ⟨[], .fault f⟩

def Error.ofMismatch (m : Mismatch) : Error := ⟨[], .mismatch m⟩

def pathText (point : String) : List Step → String
  | [] => ""
  | .index i :: rest => "[" ++ toString i ++ "]" ++ pathText "." rest
  | .key name :: rest => point ++ name ++ pathText "." rest

def Error.message (e : Error) : String :=
  e.cause.message

def Error.locatedMessage (e : Error) : String :=
  if e.path.isEmpty then e.cause.message else pathText "" e.path ++ ": " ++ e.cause.message

end DeviceAuth.Json
