/-! Texts as bytes. Strict reading accepts exactly the bytes of a text; lenient reading shows each
ill-formed stretch as one replacement character. -/
namespace DeviceAuth.Text

def utf8 (s : String) : List UInt8 :=
  s.toByteArray.data.toList

def utf8Length (s : String) : Nat :=
  s.utf8ByteSize

def ofUtf8? (bytes : List UInt8) : Option String :=
  String.fromUTF8? ⟨bytes.toArray⟩

@[simp] theorem ofUtf8?_utf8 (s : String) : ofUtf8? (utf8 s) = some s := by
  simp [ofUtf8?, utf8, String.fromUTF8?, s.isValidUTF8]
  rfl

/-- A character of which the first bytes were read: how many are owed, which values the next may
take, and the code point so far. -/
structure PartialChar where
  owed : Nat
  low : UInt8
  high : UInt8
  code : Nat

def replacement : Char := '\uFFFD'

def firstByte (b : UInt8) : List Char × Option PartialChar :=
  let n := b.toNat
  if n < 0x80 then ([Char.ofNat n], none)
  else if 0xC2 ≤ n ∧ n ≤ 0xDF then ([], some ⟨1, 0x80, 0xBF, n - 0xC0⟩)
  else if n = 0xE0 then ([], some ⟨2, 0xA0, 0xBF, 0⟩)
  else if n = 0xED then ([], some ⟨2, 0x80, 0x9F, 0xD⟩)
  else if 0xE1 ≤ n ∧ n ≤ 0xEF then ([], some ⟨2, 0x80, 0xBF, n - 0xE0⟩)
  else if n = 0xF0 then ([], some ⟨3, 0x90, 0xBF, 0⟩)
  else if 0xF1 ≤ n ∧ n ≤ 0xF3 then ([], some ⟨3, 0x80, 0xBF, n - 0xF0⟩)
  else if n = 0xF4 then ([], some ⟨3, 0x80, 0x8F, 4⟩)
  else ([replacement], none)

def nextByte (state : Option PartialChar) (b : UInt8) : List Char × Option PartialChar :=
  match state with
  | none => firstByte b
  | some p =>
    if p.low ≤ b ∧ b ≤ p.high then
      let code := p.code * 64 + (b.toNat - 0x80)
      if p.owed ≤ 1 then ([Char.ofNat code], none) else ([], some ⟨p.owed - 1, 0x80, 0xBF, code⟩)
    else
      let (out, next) := firstByte b
      (replacement :: out, next)

/-- The text of the bytes, with a replacement character for each ill-formed stretch. -/
def ofUtf8Lossy (bytes : List UInt8) : String :=
  let (chars, rest) := bytes.foldl
    (fun (chars, state) b => let (out, next) := nextByte state b; (chars.append out.toArray, next))
    ((#[] : Array Char), (none : Option PartialChar))
  String.ofList (if rest.isSome then chars.push replacement else chars).toList

end DeviceAuth.Text
