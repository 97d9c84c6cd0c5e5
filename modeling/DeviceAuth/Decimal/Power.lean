/-! Powers of two and of ten, and the ranges of whole numbers of a given width. A power with a
negative exponent is one, so a ratio is scaled by one power above and one below. -/
namespace DeviceAuth.Decimal

def twoTo (e : Int) : Nat := Nat.pow 2 e.toNat

def tenTo (e : Int) : Nat := Nat.pow 10 e.toNat

def naturalEnd (bits : Nat) : Nat := Nat.pow 2 bits

def signedEnd (bits : Nat) : Int := Nat.pow 2 (bits - 1)

def signedStart (bits : Nat) : Int := -signedEnd bits

end DeviceAuth.Decimal
