import DeviceAuth.Json.Decode
import DeviceAuth.Text.Blank

/-! Identifiers of devices, users and providers: not empty, without blank characters, and of limited
length. The kind is part of the type, so one never stands for another. -/
namespace DeviceAuth

inductive IdentifierKind where
  | device
  | user
  | provider
  deriving DecidableEq, Repr

def IdentifierKind.name : IdentifierKind → String
  | .device => "Device"
  | .user => "User"
  | .provider => "Provider"

inductive IdentifierFault where
  | empty
  | blank
  | tooLong
  deriving DecidableEq, Repr

structure IdentifierError where
  kind : IdentifierKind
  fault : IdentifierFault
  deriving DecidableEq, Repr

namespace Identifier

/-- The most bytes that an identifier takes. -/
def maxLength : Nat := 128

def fault? (s : String) : Option IdentifierFault :=
  if s = "" then some .empty
  else if Text.hasBlank s then some .blank
  else if Text.utf8Length s > maxLength then some .tooLong
  else none

end Identifier

def IdentifierError.message (e : IdentifierError) : String :=
  match e.fault with
  | .empty => e.kind.name ++ " identifier cannot be empty."
  | .blank => e.kind.name ++ " identifier contains whitespace."
  | .tooLong =>
    e.kind.name ++ " identifier exceeds " ++ toString Identifier.maxLength ++ " characters."

structure Identifier (kind : IdentifierKind) where
  text : String
  valid : Identifier.fault? text = none
  deriving DecidableEq

abbrev DeviceId := Identifier .device
abbrev UserId := Identifier .user
abbrev ProviderName := Identifier .provider

namespace Identifier

variable {kind : IdentifierKind}

def ofString (kind : IdentifierKind) (s : String) : Except IdentifierError (Identifier kind) :=
  match h : fault? s with
  | none => .ok ⟨s, h⟩
  | some fault => .error ⟨kind, fault⟩

theorem ofString_text (id : Identifier kind) : ofString kind id.text = .ok id := by
  unfold ofString
  split
  · rfl
  · rename_i h
    rw [id.valid] at h
    cases h

theorem text_of_ofString {s : String} {id : Identifier kind} (h : ofString kind s = .ok id) :
    id.text = s := by
  unfold ofString at h
  split at h
  · cases h; rfl
  · cases h

theorem ext_text {a b : Identifier kind} (h : a.text = b.text) : a = b := by
  cases a; cases b; cases h; rfl

/-- Order of the texts by code point, which is also that of their bytes. -/
def le (a b : Identifier kind) : Bool := !(b.text < a.text)

def sorted (ids : List (Identifier kind)) : List (Identifier kind) :=
  (ids.mergeSort le).eraseDups

def outline (id : Identifier kind) : String :=
  kind.name ++ "(" ++ id.text ++ ")"

def toJson (id : Identifier kind) : Json := .string id.text

def decoder (kind : IdentifierKind) : Json.Decoder (Identifier kind) :=
  Json.Decoder.string.refine fun s => (ofString kind s).mapError IdentifierError.message

end Identifier

end DeviceAuth
