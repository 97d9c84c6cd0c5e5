import DeviceAuth.Text.Ascii
import DeviceAuth.Time.Instant

/-! Dates as mail and HTTP headers write them: an optional weekday, day, month by name, year, time
of day and zone. Comments in parentheses may stand where blanks may, but not behind a year of four
digits. -/
namespace DeviceAuth.Time.MailDate

/-- Reads a value off the front of a text. -/
abbrev Reader (α : Type) := List Char → Option (α × List Char)

/-- The text behind blanks and nested comments; `depth` counts the comments that are open. -/
def skipBlanks : Nat → List Char → List Char
  | 0, '(' :: rest => skipBlanks 1 rest
  | 0, c :: rest => if c = ' ' ∨ c = '\t' then skipBlanks 0 rest else c :: rest
  | depth + 1, '(' :: rest => skipBlanks (depth + 2) rest
  | depth + 1, ')' :: rest => skipBlanks depth rest
  | depth + 1, '\\' :: _ :: rest => skipBlanks (depth + 1) rest
  | depth + 1, _ :: rest => skipBlanks (depth + 1) rest
  | _, [] => []

def blanks : Reader Unit := fun s =>
  let rest := skipBlanks 0 s
  if rest.length < s.length then some ((), rest) else none

/-- The text behind blanks, where no comment may stand. -/
def spaces : Reader Unit := fun s =>
  let rest := s.dropWhile fun c => c = ' ' ∨ c = '\t'
  if rest.length < s.length then some ((), rest) else none

def literal (c : Char) : Reader Unit
  | d :: rest => if c = d then some ((), rest) else none
  | [] => none

def digits (count : Nat) : Reader Int := fun s => do
  let head := s.take count
  if head.length < count then none
  else return (((← Text.digits? head) : Int), s.drop count)

def name (table : List (String × Int)) : Reader Int := fun s =>
  table.findSome? fun (word, n) =>
    let head := s.take word.length
    if Text.equalsIgnoringCase (String.ofList head) word then some (n, s.drop word.length) else none

def weekdays : List (String × Int) :=
  [("Mon", 1), ("Tue", 2), ("Wed", 3), ("Thu", 4), ("Fri", 5), ("Sat", 6), ("Sun", 7)]

def months : List (String × Int) :=
  [("Jan", 1), ("Feb", 2), ("Mar", 3), ("Apr", 4), ("May", 5), ("Jun", 6), ("Jul", 7), ("Aug", 8),
    ("Sep", 9), ("Oct", 10), ("Nov", 11), ("Dec", 12)]

def zones : List (String × Int) :=
  [("UT", 0), ("GMT", 0), ("EST", -5), ("EDT", -4), ("CST", -6), ("CDT", -5), ("MST", -7),
    ("MDT", -6), ("PST", -8), ("PDT", -7)]

/-- Four digits from 1900 on, with no comment behind them, or two digits around 2000. -/
def year : Reader Int := fun s =>
  match digits 4 s with
  | some (n, rest) => do
    if n < 1900 then none
    let (_, rest) ← spaces rest
    return (n, rest)
  | none => do
    let (n, rest) ← digits 2 s
    let (_, rest) ← blanks rest
    return (if n < 50 then n + 2000 else n + 1900, rest)

/-- The offset in seconds; single letters other than `J` stand for UTC. -/
def zone : Reader Int := fun s =>
  match name zones s with
  | some (hours, rest) => some (hours * 3600, rest)
  | none =>
    match s with
    | [] => none
    | c :: rest =>
      if c.isAlpha ∧ c ≠ 'J' ∧ c ≠ 'j' then some (0, rest)
      else do
        let sign : Int ← if c = '+' then some 1 else if c = '-' then some (-1) else none
        let (hours, rest) ← digits 2 rest
        let (minutes, rest) ← digits 2 rest
        return (sign * (hours * 3600 + minutes * 60), rest)

def day : Reader Int := fun s => digits 2 s <|> digits 1 s

def weekday (s : List Char) : Option (List Char) :=
  match name weekdays s with
  | none => some s
  | some (_, rest) => (literal ',' rest).map fun (_, rest) => skipBlanks 0 rest

def time : Reader (Int × Int × Int) := fun s => do
  let (hour, s) ← digits 2 s
  let (_, s) ← literal ':' (skipBlanks 0 s)
  let (minute, s) ← digits 2 (skipBlanks 0 s)
  match literal ':' (skipBlanks 0 s) with
  | some (_, s) => do
    let (second, s) ← digits 2 (skipBlanks 0 s)
    let (_, s) ← blanks s
    return ((hour, minute, second), s)
  | none => do
    let (_, s) ← blanks s
    return ((hour, minute, 0), s)

/-- A leap second is taken as the last nanosecond before it, and has to end a month in UTC. -/
def endsMonth (t : Instant) : Bool :=
  let u : Instant := { t with offset := 0 }
  let p := u.parts
  let next := yearAndOrdinal (u.localDay + 1)
  p.hour = 23 && p.minute = 59 && p.second = 59 && (monthAndDay next.1 next.2).2 = 1

def parse? (text : String) : Option Instant := do
  let s := skipBlanks 0 text.toList
  let s ← weekday s
  let (day, s) ← day s
  let (_, s) ← blanks s
  let (month, s) ← name months s
  let (_, s) ← blanks s
  let (year, s) ← year s
  let ((hour, minute, second), s) ← time s
  let (offset, s) ← zone s
  if !s.isEmpty then none
  let ordinal ← ordinal? year month day
  let leap := second = 60
  let p : Instant.Parts :=
    ⟨year, ordinal, hour, minute, if leap then 59 else second, if leap then 999999999 else 0,
      offset.tdiv 3600, (offset.tdiv 60).tmod 60, offset.tmod 60⟩
  if p.outOfRange.isSome then none
  let t := Instant.ofParts p
  if leap ∧ !endsMonth t then none
  return t

end DeviceAuth.Time.MailDate
