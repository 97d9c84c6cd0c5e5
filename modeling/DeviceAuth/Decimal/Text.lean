import DeviceAuth.Decimal.Shortest

/-! Decimals as text: positional while the point stays near the digits, else in powers of ten. -/
namespace DeviceAuth.Decimal

def natText (n : Nat) : String :=
  String.ofList (Nat.toDigits 10 n)

def intText (n : Int) : String :=
  if n < 0 then "-" ++ natText n.natAbs else natText n.natAbs

def padded (width n : Nat) : String :=
  let digits := Nat.toDigits 10 n
  String.ofList (List.replicate (width - digits.length) '0' ++ digits)

/-- The point positions written positionally, counted from the first digit, and the mark of a
positive power of ten. -/
structure Layout where
  lowest : Int
  highest : Int
  positiveMark : String

def Scaled.parts (d : Scaled) : List Char × Int :=
  let digits := Nat.toDigits 10 d.digits
  let kept := (digits.reverse.dropWhile (· = '0')).reverse
  (if kept.isEmpty then ['0'] else kept, digits.length + d.scale)

def Layout.write (l : Layout) (d : Scaled) : String :=
  let (digits, point) := d.parts
  if d.digits = 0 then "0.0"
  else if 0 < point ∧ point ≤ l.highest then
    let p := point.toNat
    if digits.length ≤ p then
      String.ofList (digits ++ List.replicate (p - digits.length) '0') ++ ".0"
    else String.ofList (digits.take p ++ '.' :: digits.drop p)
  else if l.lowest ≤ point ∧ point ≤ 0 then
    "0." ++ String.ofList (List.replicate (-point).toNat '0' ++ digits)
  else
    let exponent := point - 1
    let mantissa := match digits with
      | [] => ""
      | [d] => String.ofList [d]
      | d :: rest => String.ofList (d :: '.' :: rest)
    mantissa ++ "e" ++ (if exponent < 0 then "-" else l.positiveMark) ++ natText exponent.natAbs

def Layout.writeBinary64 (l : Layout) (x : Binary64) : String :=
  (if x.negative then "-" else "") ++ l.write (shortest x)

end DeviceAuth.Decimal
