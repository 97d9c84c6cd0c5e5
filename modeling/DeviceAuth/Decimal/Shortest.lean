import DeviceAuth.Decimal.Binary64

/-! The shortest decimal that reads back as a given double: of the decimals between the midpoints to
the neighbouring doubles, one with the fewest digits, and of those the nearest. -/
namespace DeviceAuth.Decimal

structure Scaled where
  digits : Nat
  scale : Int
  deriving DecidableEq, Repr

def digitCount (n : Nat) : Nat :=
  (Nat.toDigits 10 n).length

/-- The `e` with `10 ^ e ≤ num / den < 10 ^ (e + 1)`, for a positive ratio. -/
def magnitude (num den : Nat) : Int :=
  let e : Int := (digitCount num : Int) - digitCount den
  if num * tenTo (-e) ≥ den * tenTo e then e else e - 1

/-- Lower and upper midpoint and the double itself over one denominator, and whether a midpoint
reads back as the double. -/
structure Interval where
  low : Nat
  value : Nat
  high : Nat
  den : Nat
  closed : Bool

def Interval.ofBinary64 (x : Binary64) : Interval :=
  let narrow := x.mantissa = twoTo 52 ∧ x.exponent > -1074
  let e := x.exponent - 2
  let scale (m : Nat) : Nat := m * twoTo e
  ⟨scale (4 * x.mantissa - (if narrow then 1 else 2)), scale (4 * x.mantissa),
    scale (4 * x.mantissa + 2), twoTo (-e), x.mantissa % 2 = 0⟩

def Interval.holds (i : Interval) (c : Nat) (k : Int) : Bool :=
  let n := c * tenTo k * i.den
  let d := tenTo (-k)
  if i.closed then i.low * d ≤ n && n ≤ i.high * d else i.low * d < n && n < i.high * d

/-- The point of the grid of `count` digits that lies in the interval, the nearer if there are two.
-/
def Interval.onGrid? (i : Interval) (count : Nat) : Option Scaled :=
  let k := magnitude i.value i.den - (count - 1 : Nat)
  let n := i.value * tenTo (-k)
  let d := i.den * tenTo k
  let c := n / d
  let r := n % d
  let below := i.holds c k
  let above := i.holds (c + 1) k
  if below && above then
    some ⟨if 2 * r < d ∨ (2 * r = d ∧ c % 2 = 0) then c else c + 1, k⟩
  else if below then some ⟨c, k⟩
  else if above then some ⟨c + 1, k⟩
  else none

/-- Seventeen digits always reach the interval, so the search has an end. -/
def shortest (x : Binary64) : Scaled :=
  if x.mantissa = 0 then ⟨0, 0⟩
  else ((List.range 17).findSome? fun n => (Interval.ofBinary64 x).onGrid? (n + 1)).getD ⟨0, 0⟩

end DeviceAuth.Decimal
