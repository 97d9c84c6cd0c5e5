import DeviceAuth.Decimal.Text

/-! JSON values. Whole numbers are exact within 64 bits; every other number is a double. Members of
an object keep their order. -/
namespace DeviceAuth

namespace Json

inductive Number where
  | natural (n : Nat)
  | negative (n : Nat)
  | float (x : Decimal.Binary64)
  deriving DecidableEq, Repr

/-- Doubles are positional with the point after digit -4 to 16. -/
def Number.layout : Decimal.Layout := ⟨-4, 16, "+"⟩

def Number.text : Number → String
  | .natural n => Decimal.natText n
  | .negative n => "-" ++ Decimal.natText n
  | .float x => Number.layout.writeBinary64 x

def Number.ofInt (n : Int) : Number :=
  if n < 0 then .negative n.natAbs else .natural n.natAbs

end Json

inductive Json where
  | null
  | bool (b : Bool)
  | number (n : Json.Number)
  | string (s : String)
  | array (items : List Json)
  | object (members : List (String × Json))

namespace Json

def int (n : Int) : Json := .number (.ofInt n)

def strings (items : List String) : Json := .array (items.map .string)

def optional (write : α → Json) : Option α → Json
  | none => .null
  | some a => write a

end Json

end DeviceAuth
