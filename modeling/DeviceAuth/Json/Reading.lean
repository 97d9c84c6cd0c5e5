import DeviceAuth.Json.Token

/-! A JSON text as far as it is well formed. Reading never fails: a fault stands in the tree where
it was met, so that whoever walks the tree in text order meets the first of all faults and
mismatches. -/
namespace DeviceAuth.Json

/-- A list or object with a fault ends there; the fault is its own or that of its last part. A
dangling key is one that no value follows. -/
inductive Reading where
  | null
  | bool (b : Bool)
  | number (n : RawNumber)
  | string (s : RawString)
  | list (items : List Reading) (fault : Option Fault)
  | object (members : List (RawString × Reading)) (dangling : Option RawString)
      (fault : Option Fault)
  | broken (fault : Fault)

namespace Reading

def skippedNumberFault (n : RawNumber) : Option Fault :=
  n.defect.map fun _ => .invalidNumber

/-- What is wrong with a value that is skipped: its grammar, and not what its literals say. -/
def fault? : Reading → Option Fault
  | .null | .bool _ => none
  | .number n => skippedNumberFault n
  | .string s => s.fault
  | .list _ fault | .object _ _ fault => fault
  | .broken fault => some fault

end Reading

/-- A list or object that is still open; parts are kept in reverse. -/
inductive Frame where
  | list (items : List Reading)
  | object (members : List (RawString × Reading)) (key : RawString)

def Frame.put (v : Reading) (fault : Option Fault) : Frame → Reading
  | .list items => .list (v :: items).reverse fault
  | .object members key => .object ((key, v) :: members).reverse none fault

namespace Reading

inductive State where
  | value (frames : List Frame)
  | firstItem (frames : List Frame)
  | nextItem (items : List Reading) (frames : List Frame)
  | firstKey (frames : List Frame)
  | nextKey (members : List (RawString × Reading)) (frames : List Frame)
  | colon (members : List (RawString × Reading)) (key : RawString) (frames : List Frame)
  | after (v : Reading) (frame : Frame) (frames : List Frame)
  | done (v : Reading)
  | trailing (v : Reading)
  | halted (v : Reading)

namespace State

def complete (v : Reading) : List Frame → State
  | [] => .done v
  | frame :: frames => .after v frame frames

def unwind (f : Fault) : Reading → List Frame → Reading
  | v, [] => v
  | v, frame :: frames => unwind f (frame.put v (some f)) frames

def halt (v : Reading) (f : Fault) (frames : List Frame) : State :=
  .halted (unwind f v frames)

def leaf (v : Reading) (frames : List Frame) : State :=
  match v.fault? with
  | none => complete v frames
  | some f => halt v f frames

def begin (frames : List Frame) : Token → State
  | .openList => .firstItem frames
  | .openObject => .firstKey frames
  | .null => leaf .null frames
  | .bool b => leaf (.bool b) frames
  | .number n => leaf (.number n) frames
  | .string s => leaf (.string s) frames
  | .misspelt => halt (.broken .expectedIdent) .expectedIdent frames
  | .closeList | .closeObject | .comma | .colon | .stray =>
    halt (.broken .expectedValue) .expectedValue frames

def key (members : List (RawString × Reading)) (frames : List Frame) (k : RawString) : State :=
  match k.fault with
  | none => .colon members k frames
  | some f => halt (.object members.reverse (some k) (some f)) f frames

def haltObject (members : List (RawString × Reading)) (f : Fault) (frames : List Frame) : State :=
  halt (.object members.reverse none (some f)) f frames

def haltList (items : List Reading) (f : Fault) (frames : List Frame) : State :=
  halt (.list items.reverse (some f)) f frames

def step : State → Token → State
  | .value frames, t => begin frames t
  | .firstItem frames, .closeList => complete (.list [] none) frames
  | .firstItem frames, t => begin (.list [] :: frames) t
  | .nextItem items frames, .closeList => haltList items .trailingComma frames
  | .nextItem items frames, t => begin (.list items :: frames) t
  | .firstKey frames, .closeObject => complete (.object [] none none) frames
  | .firstKey frames, .string k => key [] frames k
  | .firstKey frames, _ => haltObject [] .keyNotString frames
  | .nextKey members frames, .string k => key members frames k
  | .nextKey members frames, .closeObject => haltObject members .trailingComma frames
  | .nextKey members frames, _ => haltObject members .keyNotString frames
  | .colon members k frames, .colon => .value (.object members k :: frames)
  | .colon members k frames, _ =>
    halt (.object members.reverse (some k) (some .expectedColon)) .expectedColon frames
  | .after v (.list items) frames, .comma => .nextItem (v :: items) frames
  | .after v (.list items) frames, .closeList => complete (.list (v :: items).reverse none) frames
  | .after v (.list items) frames, _ => haltList (v :: items) .expectedListEnd frames
  | .after v (.object members k) frames, .comma => .nextKey ((k, v) :: members) frames
  | .after v (.object members k) frames, .closeObject =>
    complete (.object ((k, v) :: members).reverse none none) frames
  | .after v (.object members k) frames, _ =>
    haltObject ((k, v) :: members) .expectedObjectEnd frames
  | .done v, _ => .trailing v
  | .trailing v, _ => .trailing v
  | .halted v, _ => .halted v

def finish : State → Reading
  | .value frames => unwind .endInValue (.broken .endInValue) frames
  | .firstItem frames => unwind .endInList (.list [] (some .endInList)) frames
  | .nextItem items frames => unwind .endInValue (.list items.reverse (some .endInValue)) frames
  | .firstKey frames => unwind .endInObject (.object [] none (some .endInObject)) frames
  | .nextKey members frames =>
    unwind .endInValue (.object members.reverse none (some .endInValue)) frames
  | .colon members k frames =>
    unwind .endInObject (.object members.reverse (some k) (some .endInObject)) frames
  | .after v (.list items) frames =>
    unwind .endInList (.list (v :: items).reverse (some .endInList)) frames
  | .after v (.object members k) frames =>
    unwind .endInObject (.object ((k, v) :: members).reverse none (some .endInObject)) frames
  | .done v | .trailing v | .halted v => v

end State

end Reading

structure Document where
  value : Reading
  trailing : Bool

def read (text : List UInt8) : Document :=
  match (tokens text).foldl Reading.State.step (.value []) with
  | .trailing v => ⟨v, true⟩
  | s => ⟨s.finish, false⟩

end DeviceAuth.Json
