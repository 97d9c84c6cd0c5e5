import DeviceAuth.Encoding.Base64
import DeviceAuth.Encoding.Sha256
import DeviceAuth.Json.Decode
import DeviceAuth.Text.Outline

/-! Secrets: codes and tokens that are only ever handed back. Every form meant for a reader hides
the text; a short digest tells two secrets apart. -/
namespace DeviceAuth

structure Secret where
  text : String
  deriving DecidableEq, Repr, Inhabited

namespace Secret

def empty : Secret := ⟨""⟩

def isEmpty (s : Secret) : Bool := s.text == ""

def differences (a b : List UInt8) : UInt8 :=
  (List.zip a b).foldl (fun seen (x, y) => seen ||| (x ^^^ y)) 0

/-- Compares all bytes, wherever the first difference is. -/
def agrees (s : Secret) (presented : String) : Bool :=
  let a := Text.utf8 s.text
  let b := Text.utf8 presented
  a.length == b.length && differences a b == 0

def fingerprintLength : Nat := 12

def fingerprint (s : Secret) : String :=
  String.ofList
    ((Encoding.Base64.standard.encode (Encoding.Sha256.digest (Text.utf8 s.text))).take
      fingerprintLength)

def outline (_ : Secret) : String :=
  Text.Outline.tuple "TokenSecret" [Text.Outline.redacted]

def display (_ : Secret) : String := "<redacted>"

def toJson (s : Secret) : Json := .string s.text

def decoder : Json.Decoder Secret := fun levels r =>
  (Json.Decoder.string levels r).map Secret.mk

end Secret

end DeviceAuth
