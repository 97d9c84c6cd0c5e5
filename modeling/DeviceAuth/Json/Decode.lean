import DeviceAuth.Json.Literal
import DeviceAuth.Json.Reading

/-! Decoders walk a reading in text order and stop at the first thing that is wrong. A decoder is
given the levels of nesting that are left. -/
namespace DeviceAuth.Json

abbrev Decoder (α : Type) := Nat → Reading → Except Error α

/-- A text may nest one level less. -/
def maxLevels : Nat := 128

namespace Decoder

def fault (f : Fault) : Except Error α := .error (.ofFault f)

def mismatch (m : Mismatch) : Except Error α := .error (.ofMismatch m)

def lift : Except Fault α → Except Error α
  | .ok a => .ok a
  | .error f => fault f

def within (step : Step) : Except Error α → Except Error α
  | .ok a => .ok a
  | .error e => .error (e.within step)

def stopAt : Option Fault → Except Error Unit
  | none => .ok ()
  | some f => fault f

def descend (levels : Nat) (body : Nat → Except Error α) : Except Error α :=
  match levels with
  | 0 | 1 => fault .tooDeep
  | levels + 1 => body levels

def foundNumber : Number → String
  | .float x => "floating point `" ++ Number.layout.writeBinary64 x ++ "`"
  | n => "integer `" ++ n.text ++ "`"

/-- Names a value that was not asked for; a literal has to be well formed for that. -/
def unexpected (expected : String) : Reading → Except Error α
  | .null => mismatch (.type "null" expected)
  | .bool b => mismatch (.type ("boolean `" ++ (if b then "true" else "false") ++ "`") expected)
  | .number n => do mismatch (.type (foundNumber (← lift n.decode)) expected)
  | .string s => do mismatch (.type ("string " ++ Text.quoted (← lift s.decode)) expected)
  | .list _ _ => mismatch (.type "sequence" expected)
  | .object _ _ _ => mismatch (.type "map" expected)
  | .broken f => fault f

def skip : Decoder Unit := fun _ r => stopAt r.fault?

def string : Decoder String
  | _, .string s => lift s.decode
  | _, r => unexpected "a string" r

def Number.int? : Number → Option Int
  | .natural n => some n
  | .negative n => some (-n)
  | .float _ => none

def integer (name : String) (low high : Int) : Decoder Int
  | _, .number n => do
    let n ← lift n.decode
    match Number.int? n with
    | none => mismatch (.type (foundNumber n) name)
    | some i =>
      if low ≤ i ∧ i ≤ high then .ok i else mismatch (.value ("integer `" ++ n.text ++ "`") name)
  | _, r => unexpected name r

def optional (d : Decoder α) : Decoder (Option α)
  | _, .null => .ok none
  | levels, r => (d levels r).map some

/-- Decodes the items from number `i` on; `done` holds those before, in reverse. -/
def itemsFrom (d : Decoder α) (levels : Nat) :
    Nat → List α → List Reading → Except Error (List α)
  | _, done, [] => .ok done.reverse
  | i, done, r :: rest =>
    match within (.index i) (d levels r) with
    | .ok a => itemsFrom d levels (i + 1) (a :: done) rest
    | .error e => .error e

def list (d : Decoder α) : Decoder (List α)
  | levels, .list items stop => descend levels fun levels => do
    let as ← itemsFrom d levels 0 [] items
    stopAt stop
    return as
  | _, r => unexpected "a sequence" r

/-- Checks a decoded value; a reason for refusing it takes the place of the value. -/
def refine (d : Decoder α) (check : α → Except String β) : Decoder β := fun levels r => do
  match check (← d levels r) with
  | .ok b => .ok b
  | .error reason => mismatch (.refused reason)

/-- Sets one member of a partly read structure. -/
structure Field (σ : Type) where
  name : String
  isSet : σ → Bool
  read : Nat → Reading → σ → Except Error σ

def Field.of (name : String) (d : Decoder α) (get : σ → Option α) (set : α → σ → σ) : Field σ where
  name := name
  isSet s := (get s).isSome
  read levels r s := (d levels r).map fun a => set a s

def required (name : String) : Option α → Except Error α
  | some a => .ok a
  | none => mismatch (.missing name)

/-- How a structure is written: as an object, or as a list of its members in order. Members that
are not known go to `other`. With `defaults`, a list may end early. -/
structure Shape (σ α : Type) where
  name : String
  fields : List (Field σ)
  start : σ
  defaults : Bool
  listed : Bool
  other : Decoder Unit
  finish : σ → Except Error α

namespace Shape

def countText (n : Nat) : String :=
  toString n ++ (if n = 1 then " element" else " elements")

def endOfList (rest : List Reading) (stop : Option Fault) : Except Error Unit :=
  if !rest.isEmpty then fault .trailingCharacters
  else match stop with
    | none => .ok ()
    | some .endInList => fault .endInList
    | some .trailingComma => fault .trailingComma
    | some _ => fault .trailingCharacters

def fromList (shape : Shape σ α) (levels : Nat) (stop : Option Fault) :
    Nat → List (Field σ) → List Reading → σ → Except Error σ
  | _, [], rest, s => do
    endOfList rest stop
    return s
  | i, f :: fields, r :: rest, s => do
    fromList shape levels stop (i + 1) fields rest (← within (.index i) (f.read levels r s))
  | i, _ :: fields, [], s => do
    stopAt stop
    if shape.defaults then fromList shape levels stop (i + 1) fields [] s
    else mismatch (.length i
      ("struct " ++ shape.name ++ " with " ++ countText shape.fields.length))

def field? (shape : Shape σ α) (key : String) (s : σ) : Except Error (Option (Field σ)) :=
  match shape.fields.find? (·.name = key) with
  | none => .ok none
  | some f => if f.isSet s then mismatch (.duplicate f.name) else .ok (some f)

def fromMembers (shape : Shape σ α) (levels : Nat) :
    List (RawString × Reading) → σ → Except Error σ
  | [], s => .ok s
  | (k, r) :: rest, s => do
    let key ← lift k.decode
    match ← shape.field? key s with
    | some f => fromMembers shape levels rest (← within (.key key) (f.read levels r s))
    | none =>
      within (.key key) (shape.other levels r)
      fromMembers shape levels rest s

def decoder (shape : Shape σ α) : Decoder α
  | levels, .object members dangling stop => do
    let s ← descend levels fun levels => do
      let s ← fromMembers shape levels members shape.start
      if let some k := dangling then
        let _ ← shape.field? (← lift k.decode) s
      stopAt stop
      return s
    shape.finish s
  | levels, r@(.list items stop) =>
    if shape.listed then do
      let s ← descend levels fun levels =>
        fromList shape levels stop 0 shape.fields items shape.start
      shape.finish s
    else unexpected ("struct " ++ shape.name) r
  | _, r => unexpected ("struct " ++ shape.name) r

end Shape

def lenient (name : String) (fields : List (Field σ)) (start : σ) (finish : σ → α) : Decoder α :=
  Shape.decoder {
    name := name
    fields := fields
    start := start
    defaults := true
    listed := true
    other := skip
    finish := fun s => .ok (finish s) }

/-- A name out of a table, as a string or as the only key of an object with the value null. -/
def variant (table : List (String × α)) : Decoder α
  | _, .string s => do pick (← lift s.decode)
  | levels, .object members dangling stop => descend levels fun _ => do
    match members, dangling with
    | (k, v) :: rest, dangling =>
      let a ← pick (← lift k.decode)
      match v with
      | .null => pure ()
      | r => unexpected "unit" r
      match rest, dangling, stop with
      | [], none, none => return a
      | [], none, some .endInObject => fault .endInObject
      | _, _, _ => fault .expectedValue
    | [], some k =>
      let _ ← pick (← lift k.decode)
      stopAt stop
      fault .expectedValue
    | [], none => if stop = some .endInObject then fault .endInValue else fault .expectedValue
  | _, .broken f => fault f
  | _, _ => fault .expectedValue
where
  pick (name : String) : Except Error α :=
    match table.find? (·.1 = name) with
    | some (_, a) => .ok a
    | none => mismatch (.variant name (table.map (·.1)))

/-- Any value; of members with one name all are kept. The levels bound the descent. -/
def value : Decoder Json
  | _, .null => .ok .null
  | _, .bool b => .ok (.bool b)
  | _, .number n => do return .number (← lift n.decode)
  | _, .string s => do return .string (← lift s.decode)
  | _, .broken f => fault f
  | 0, _ | 1, _ => fault .tooDeep
  | levels + 1, .list items stop => do
    let vs ← items.mapM (value levels)
    stopAt stop
    return .array vs
  | levels + 1, .object members dangling stop => do
    let ms ← members.mapM fun (k, r) => do
      let key ← lift k.decode
      return (key, ← value levels r)
    if let some k := dangling then
      let _ ← lift k.decode
    stopAt stop
    return .object ms

def members : Decoder (List (String × Json))
  | levels, r@(.object _ _ _) => do
    match ← value levels r with
    | .object ms => return ms
    | _ => return []
  | _, r => unexpected "a map" r

end Decoder

def decode (d : Decoder α) (text : List UInt8) : Except Error α := do
  let document := read text
  let a ← d maxLevels document.value
  if document.trailing then Decoder.fault .trailingCharacters
  return a

def decodeFirst (d : Decoder α) (text : List UInt8) : Except Error α :=
  d maxLevels (read text).value

def Error.isFault (e : Error) : Bool :=
  match e.cause with
  | .fault _ => true
  | .mismatch _ => false

end DeviceAuth.Json
