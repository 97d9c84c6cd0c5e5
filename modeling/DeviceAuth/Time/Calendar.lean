/-! The proleptic Gregorian calendar: day numbers counted from 1970-01-01, years with the ordinal
day, and months. -/
namespace DeviceAuth.Time

def isLeapYear (year : Int) : Bool :=
  year % 4 = 0 && (year % 100 ≠ 0 || year % 400 = 0)

def daysInYear (year : Int) : Int :=
  if isLeapYear year then 366 else 365

def firstDay (year : Int) : Int :=
  let y := year - 1
  365 * y + y / 4 - y / 100 + y / 400 - 719162

/-- Year and ordinal day of a day number, by cycles of 400, 100, 4 and one years. -/
def yearAndOrdinal (day : Int) : Int × Int :=
  let d := day + 719162
  let cycle := d / 146097
  let d := d % 146097
  let century := min (d / 36524) 3
  let d := d - century * 36524
  let four := d / 1461
  let d := d % 1461
  let one := min (d / 365) 3
  (400 * cycle + 100 * century + 4 * four + one + 1, d - one * 365 + 1)

def monthLengths (year : Int) : List Int :=
  [31, if isLeapYear year then 29 else 28, 31, 30, 31, 30, 31, 31, 30, 31, 30, 31]

def monthAndDay (year ordinal : Int) : Int × Int :=
  go 1 (monthLengths year) ordinal
where
  go (month : Int) : List Int → Int → Int × Int
    | [], day => (month, day)
    | length :: rest, day =>
      if day ≤ length then (month, day) else go (month + 1) rest (day - length)

def ordinal? (year month day : Int) : Option Int :=
  if month < 1 ∨ 12 < month then none
  else
    let lengths := monthLengths year
    let before := (lengths.take (month - 1).toNat).foldl (· + ·) 0
    match lengths[(month - 1).toNat]? with
    | none => none
    | some length => if 1 ≤ day ∧ day ≤ length then some (before + day) else none

/-- The first and the last year that a date may have. -/
def minYear : Int := -9999
def maxYear : Int := 9999

def dayInRange (day : Int) : Bool :=
  firstDay minYear ≤ day && day < firstDay (maxYear + 1)

end DeviceAuth.Time
