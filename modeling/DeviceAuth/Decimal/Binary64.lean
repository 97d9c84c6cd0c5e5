import DeviceAuth.Decimal.Power

/-! Finite doubles as exact numbers. Every operation rounds the exact result once, to the nearest
double and to the even one of two equally near. -/
namespace DeviceAuth.Decimal

/-- The number `± mantissa * 2 ^ exponent`. Rounding yields a mantissa below `2 ^ 53` and an
exponent of at least `-1074`, with a smaller mantissa than `2 ^ 52` at the least exponent only. -/
structure Binary64 where
  negative : Bool
  mantissa : Nat
  exponent : Int
  deriving DecidableEq, Repr

namespace Binary64

def zero : Binary64 := ⟨false, 0, -1074⟩

def scaleNumerator (num : Nat) (e : Int) : Nat :=
  num * twoTo (-e)

def scaleDenominator (den : Nat) (e : Int) : Nat :=
  den * twoTo e

/-- The multiple of `2 ^ e` nearest to `num / den`, in units of `2 ^ e`. -/
def roundAt (num den : Nat) (e : Int) : Nat :=
  let n := scaleNumerator num e
  let d := scaleDenominator den e
  let q := n / d
  let r := n % d
  if 2 * r > d ∨ (2 * r = d ∧ q % 2 = 1) then q + 1 else q

def gridExponent (num den : Nat) : Int :=
  let e : Int := (num.log2 : Int) - den.log2 - 53
  let e := if scaleNumerator num e / scaleDenominator den e < twoTo 53 then e else e + 1
  max e (-1074)

/-- The double nearest to `num / den`; none if that is beyond the largest double. -/
def ofRatio (num den : Nat) : Option Binary64 :=
  if num = 0 ∨ den = 0 then some zero
  else
    let e := gridExponent num den
    let m := roundAt num den e
    let (m, e) := if m = twoTo 53 then (twoTo 52, e + 1) else (m, e)
    if e > 971 then none else some ⟨false, m, e⟩

def ratio (x : Binary64) : Nat × Nat :=
  (scaleNumerator x.mantissa (-x.exponent), scaleDenominator 1 (-x.exponent))

def timesPower (x : Binary64) (k : Nat) : Option Binary64 := do
  let p ← ofRatio (tenTo k) 1
  ofRatio (x.ratio.1 * p.ratio.1) (x.ratio.2 * p.ratio.2)

def overPower (x : Binary64) (k : Nat) : Option Binary64 := do
  let p ← ofRatio (tenTo k) 1
  ofRatio (x.ratio.1 * p.ratio.2) (x.ratio.2 * p.ratio.1)

def maxPower : Nat := 308

/-- Divides by `10 ^ k` in steps of the largest power; `fuel` bounds the steps. -/
def shrink : Nat → Binary64 → Nat → Option Binary64
  | 0, x, _ => some x
  | fuel + 1, x, k =>
    if k ≤ maxPower then x.overPower k
    else if x.mantissa = 0 then some x
    else do shrink fuel (← x.overPower maxPower) (k - maxPower)

/-- `significand * 10 ^ exponent`, scaled with one rounding a step; none if it is out of range. -/
def ofDecimal (significand : Nat) (exponent : Int) : Option Binary64 := do
  let x ← ofRatio significand 1
  if 0 ≤ exponent then
    if exponent.toNat ≤ maxPower then x.timesPower exponent.toNat
    else if x.mantissa = 0 then some x
    else none
  else shrink 8 x (-exponent).toNat

def negate (x : Binary64) : Binary64 :=
  { x with negative := !x.negative }

end Binary64

end DeviceAuth.Decimal
