import DeviceAuth.Decimal.Text
import DeviceAuth.Json.Decode
import DeviceAuth.Time.Calendar

/-! Points in time to the nanosecond, each presented in an offset from UTC. Order and difference
look at the point alone; the written forms show the presentation too. -/
namespace DeviceAuth

structure Span where
  nanos : Int
  deriving DecidableEq, Repr

namespace Span

def nanosPerSecond : Int := 1000000000

def seconds (n : Int) : Span := ⟨n * nanosPerSecond⟩

def wholeSeconds (s : Span) : Int := s.nanos.tdiv nanosPerSecond

def subsecond (s : Span) : Int := s.nanos.tmod nanosPerSecond

/-- Two thirds, toward zero to the nanosecond. -/
def twoThirds (s : Span) : Span := ⟨(s.nanos * 2).tdiv 3⟩

end Span

/-- `nanos` counts from 1970-01-01 in UTC, and `offset` is in seconds east of it. -/
structure Instant where
  nanos : Int
  offset : Int
  deriving DecidableEq, Repr

namespace Instant

def ofUnix (seconds : Int) (nanos : Int) (offset : Int) : Instant :=
  ⟨seconds * Span.nanosPerSecond + nanos, offset⟩

def unixSeconds (t : Instant) : Int := t.nanos / Span.nanosPerSecond

def unixSubsecond (t : Instant) : Int := t.nanos % Span.nanosPerSecond

def before (a b : Instant) : Bool := a.nanos < b.nanos

def since (later earlier : Instant) : Span := ⟨later.nanos - earlier.nanos⟩

/-- The nanoseconds that the clock on the wall shows since 1970. -/
def localNanos (t : Instant) : Int := t.nanos + t.offset * Span.nanosPerSecond

def nanosPerDay : Int := 86400 * Span.nanosPerSecond

def localDay (t : Instant) : Int := t.localNanos / nanosPerDay

def inRange (t : Instant) : Bool := Time.dayInRange t.localDay

/-- A later or earlier point, unless its date is beyond the calendar. -/
def add? (t : Instant) (s : Span) : Option Instant :=
  let sum : Instant := ⟨t.nanos + s.nanos, t.offset⟩
  if sum.inRange then some sum else none

structure Parts where
  year : Int
  ordinal : Int
  hour : Int
  minute : Int
  second : Int
  nanosecond : Int
  offsetHour : Int
  offsetMinute : Int
  offsetSecond : Int
  deriving DecidableEq, Repr

def parts (t : Instant) : Parts :=
  let (year, ordinal) := Time.yearAndOrdinal t.localDay
  let n := t.localNanos % nanosPerDay
  let s := n / Span.nanosPerSecond
  ⟨year, ordinal, s / 3600, s / 60 % 60, s % 60, n % Span.nanosPerSecond,
    t.offset.tdiv 3600, (t.offset.tdiv 60).tmod 60, t.offset.tmod 60⟩

def Parts.outOfRange (p : Parts) : Option String :=
  if p.year < Time.minYear ∨ Time.maxYear < p.year then some "year"
  else if p.ordinal < 1 ∨ Time.daysInYear p.year < p.ordinal then some "ordinal"
  else if p.hour < 0 ∨ 23 < p.hour then some "hour"
  else if p.minute < 0 ∨ 59 < p.minute then some "minute"
  else if p.second < 0 ∨ 59 < p.second then some "second"
  else if p.nanosecond < 0 ∨ Span.nanosPerSecond ≤ p.nanosecond then some "nanosecond"
  else if p.offsetHour < -25 ∨ 25 < p.offsetHour then some "offset hour"
  else if p.offsetMinute < -59 ∨ 59 < p.offsetMinute then some "offset minute"
  else if p.offsetSecond < -59 ∨ 59 < p.offsetSecond then some "offset second"
  else none

/-- `x` with the sign of the first of `signs` that has one. -/
def withSignOf (signs : List Int) (x : Int) : Int :=
  match signs.find? (· ≠ 0) with
  | none => x
  | some s => if s < 0 then -(x.natAbs : Int) else x.natAbs

def Parts.offset (p : Parts) : Int :=
  let minute := withSignOf [p.offsetHour] p.offsetMinute
  p.offsetHour * 3600 + minute * 60 + withSignOf [p.offsetHour, minute] p.offsetSecond

def ofParts (p : Parts) : Instant :=
  let day := Time.firstDay p.year + (p.ordinal - 1)
  let seconds := day * 86400 + p.hour * 3600 + p.minute * 60 + p.second
  ⟨(seconds - p.offset) * Span.nanosPerSecond + p.nanosecond, p.offset⟩

def toJson (t : Instant) : Json :=
  let p := t.parts
  .array ([p.year, p.ordinal, p.hour, p.minute, p.second, p.nanosecond, p.offsetHour,
    p.offsetMinute, p.offsetSecond].map Json.int)

def partTypes : List (String × String × Int × Int) := [
  ("year", "i32", Decimal.signedStart 32, Decimal.signedEnd 32 - 1),
  ("day of year", "u16", 0, Decimal.naturalEnd 16 - 1),
  ("hour", "u8", 0, 255),
  ("minute", "u8", 0, 255),
  ("second", "u8", 0, 255),
  ("nanosecond", "u32", 0, Decimal.naturalEnd 32 - 1),
  ("offset hours", "i8", -128, 127),
  ("offset minutes", "i8", -128, 127),
  ("offset seconds", "i8", -128, 127)]

open Json in
def readParts (levels : Nat) (stop : Option Fault) :
    Nat → List (String × String × Int × Int) → List Reading →
      Except Json.Error (List Int × List Reading)
  | _, [], rest => .ok ([], rest)
  | i, (_, type, low, high) :: types, r :: rest => do
    let n ← Decoder.within (.index i) (Decoder.integer type low high levels r)
    let (numbers, rest) ← readParts levels stop (i + 1) types rest
    return (n :: numbers, rest)
  | _, (name, _) :: _, [] => do
    Decoder.stopAt stop
    Decoder.mismatch (.refused ("expected " ++ name))

def Parts.ofList : List Int → Option Parts
  | [year, ordinal, hour, minute, second, nanosecond, oh, om, os] =>
    some ⟨year, ordinal, hour, minute, second, nanosecond, oh, om, os⟩
  | _ => none

open Json in
def decoder : Decoder Instant
  | levels, .list items stop => Decoder.descend levels fun levels => do
    let (numbers, rest) ← readParts levels stop 0 partTypes items
    match Parts.ofList numbers with
    | none => Decoder.mismatch (.refused "expected nine numbers")
    | some p =>
      if let some name := p.outOfRange then
        Decoder.mismatch (.refused ("invalid " ++ name ++ ", expected an in-range value"))
      Decoder.Shape.endOfList rest stop
      return ofParts p
  | _, r => Decoder.unexpected "an `OffsetDateTime`" r

open Decimal in
/-- Date, time and offset for diagnostics: the hour without a leading zero, and at least one digit
of the fraction. -/
def outline (t : Instant) : String :=
  let p := t.parts
  let (month, day) := Time.monthAndDay p.year p.ordinal
  let fraction := (padded 9 p.nanosecond.natAbs).toList.reverse.dropWhile (· = '0')
  let fraction := if fraction.isEmpty then "0" else String.ofList fraction.reverse
  (if p.year < 0 then "-" else "") ++ padded 4 p.year.natAbs ++ "-" ++ padded 2 month.natAbs ++
    "-" ++ padded 2 day.natAbs ++ " " ++ natText p.hour.natAbs ++ ":" ++
    padded 2 p.minute.natAbs ++ ":" ++ padded 2 p.second.natAbs ++ "." ++ fraction ++ " " ++
    (if t.offset < 0 then "-" else "+") ++ padded 2 p.offsetHour.natAbs ++ ":" ++
    padded 2 p.offsetMinute.natAbs ++ ":" ++ padded 2 p.offsetSecond.natAbs

end Instant

end DeviceAuth
