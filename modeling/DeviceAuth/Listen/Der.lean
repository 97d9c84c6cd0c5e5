/-! The outer shape of DER data: items of a tag, a length and content. -/
namespace DeviceAuth.Listen.Der

structure Item where
  tag : UInt8
  content : List UInt8
  deriving DecidableEq, Repr

def integer : UInt8 := 0x02
def bitString : UInt8 := 0x03
def octetString : UInt8 := 0x04
def sequence : UInt8 := 0x30

def bigEndian (bytes : List UInt8) : Nat := bytes.foldl (fun n b => n * 256 + b.toNat) 0

/-- A length and what follows it. A length is written with as few bytes as it needs. -/
def length? : List UInt8 → Option (Nat × List UInt8)
  | [] => none
  | first :: rest =>
    if first < 0x80 then some (first.toNat, rest)
    else
      let count := first.toNat - 0x80
      let digits := rest.take count
      let n := bigEndian digits
      if count = 0 ∨ 4 < count ∨ digits.length < count ∨ digits.head? = some 0 ∨ n < 0x80 then none
      else some (n, rest.drop count)

def item? : List UInt8 → Option (Item × List UInt8)
  | [] => none
  | tag :: rest => do
    let (n, rest) ← length? rest
    if rest.length < n then none
    else some (⟨tag, rest.take n⟩, rest.drop n)

def items? : Nat → List UInt8 → Option (List Item)
  | _, [] => some []
  | 0, _ => none
  | count + 1, bytes => do
    let (item, rest) ← item? bytes
    return item :: (← items? count rest)

def sequenceTags? (bytes : List UInt8) : Option (List UInt8) := do
  let (outer, rest) ← item? bytes
  if outer.tag ≠ sequence ∨ !rest.isEmpty then none
  else
    let inner ← items? outer.content.length outer.content
    return inner.map (·.tag)

end DeviceAuth.Listen.Der
